import PiFire.Control.Mode

/-!
# The recipe runner

A step is begun, judged once a second, and gives way to the next. The source
begins a step and advances past it by two functions calling each other, which
repeat only over the steps the cook marked to be skipped; that repetition is
`passOver`.
-/

namespace PiFire

/-- The flag of a step the run pauses at the end of. -/
def flagPause : StepFlag := 1

/-- The flag of a step the run skips. -/
def flagSkip : StepFlag := 2

/-- The flag of a step that continues on its own. -/
def flagContinue : StepFlag := 3

/-- Whether the run skips the step it is at. -/
def RecipeRun.skips (run : RecipeRun) : Bool :=
  run.step < recipeMaxSteps && run.flagAt run.step == flagSkip

/-- Whether the run pauses at the end of the step it is at. -/
def RecipeRun.pauses (run : RecipeRun) : Bool :=
  run.step < recipeMaxSteps && run.flagAt run.step == flagPause

/-- One skipped step: its flag is spent and its message unsaid. -/
def RecipeRun.skipOne (run : RecipeRun) : RecipeRun :=
  { run.setFlag run.step 0 with said := true, step := run.step + 1 }

/-- Pass over the steps to be skipped from the one the run is at. The flag says
whether that was the end of the recipe. -/
def passOver : ℕ → RecipeRun → RecipeRun × Bool
  | 0, run => (run, false)
  | fuel + 1, run =>
      if run.skips then
        if run.skipOne.step ≥ run.r.nsteps then (run.skipOne, true) else passOver fuel run.skipOne
      else (run, false)

/-- The run as a step begins. -/
def RecipeRun.beginAt (now : ℚ) (run : RecipeRun) : RecipeRun :=
  let ends := run.current.ends
  { run with
    stepStart := now
    atTempSince := 0
    triggered := false
    waiting := false
    leadFired := false
    said := false
    etaS := -1
    lastEval := 0
    promptGiven := false
    lidSeen := false
    ends := ends
    wantsPrompt := endsMention "prompt" ends || endsMention "lid" ends }

/-- What startup hands over to during a recipe's Startup step: the next step's
mode when that is Smoke or Hold. -/
def startupTarget (c : Control) : Mode :=
  let next :=
    if c.recipe.step + 1 < c.recipe.r.nsteps then
      (c.recipe.r.stepAt (c.recipe.step + 1)).mode
    else c.cfg.afterStartupMode
  if next.isRunning then next else .smoke

/-- The change of mode a step asks for as it begins. -/
def switchForStep (t : Tick) (stepMode : Mode) (c : Control) : Control :=
  match stepMode with
  | .startup =>
      let aimed := { c with nextMode := startupTarget c }
      if c.mode.isFiring then aimed else enterMode t .startup aimed
  | .smoke | .hold =>
      if c.mode.isIdle then enterMode t .startup { c with nextMode := stepMode }
      else if c.mode.isLighting then { c with nextMode := stepMode }
      else if c.mode ≠ stepMode then enterMode t stepMode c
      else if stepMode = .hold then { c with targetReached := false }
      else c
  | .shutdown => enterMode t .shutdown c
  | .stop => enterMode t .stop c
  | _ => c

/-- Begin the step the run is at. -/
def startStep (t : Tick) (c : Control) : Control :=
  let s := c.recipe.current
  switchForStep t s.mode
    { c with
      recipe := c.recipe.beginAt t.now
      setpointC := if s.setpointC > 0 then s.setpointC else c.setpointC
      sPlus := s.sPlus }

/-- The end of the recipe. -/
def recipeComplete (c : Control) : Control :=
  { c with
    recipe := { c.recipe with active := false, ends := none, leftRunning := c.mode.isFiring } }

/-- Begin the step the run is at, or the first one after it that is not to be
skipped. -/
def recipeBeginStep (t : Tick) (c : Control) : Control :=
  let passed := passOver recipeMaxSteps c.recipe
  let there := { c with recipe := passed.1 }
  if passed.2 then recipeComplete there else startStep t there

/-- End the current step and begin the next. -/
def recipeAdvance (t : Tick) (c : Control) : Control :=
  let next := { c with recipe := { c.recipe with step := c.recipe.step + 1 } }
  if next.recipe.step ≥ next.recipe.r.nsteps then recipeComplete next else recipeBeginStep t next

/-- End the recipe where it is. -/
def recipeDrop (c : Control) : Control :=
  { c with recipe := { c.recipe with active := false, ends := none } }

/-- The last Shutdown step from the one the run is at. -/
def finishStep (run : RecipeRun) : Option ℕ :=
  (List.range run.r.nsteps).reverse.find? fun i =>
    run.step ≤ i ∧ (run.r.stepAt i).mode = .shutdown

/-- Finish a recipe early: go to its Shutdown step and drop what follows, or,
without one, end it and shut the grill down. -/
def recipeFinishNow (t : Tick) (c : Control) : Control :=
  match finishStep c.recipe with
  | none =>
      let dropped := recipeDrop c
      enterMode t .shutdown
        { dropped with recipe := { dropped.recipe with leftRunning := false } }
  | some fin =>
      let kept := { c.recipe with
        r := { c.recipe.r with steps := c.recipe.r.steps.take (fin + 1) }, step := fin }
      recipeBeginStep t { c with recipe := kept.setFlag fin 0 }

/-- How long the step has been doing what it is for: a Hold step counts from
when the pit reached its set point. -/
def stepElapsed (now : ℚ) (c : Control) : ℚ :=
  if c.recipe.current.mode = .hold then
    if c.recipe.atTempSince > 0 then now - c.recipe.atTempSince else 0
  else now - c.recipe.stepStart

/-- The facts a step's ending is evaluated against. `asIfAnswered` forces the
two signals only a person can give. -/
def stepFacts (t : Tick) (asIfAnswered : Bool) (c : Control) : StepFacts :=
  { mode := c.mode
    setpointC := c.setpointC
    lidOpen := c.lidOpen
    cookElapsed := if c.cookStartWall > 0 then t.wall - c.cookStartWall else 0
    aimingS := t.now - c.aimSince
    sensors := c.sensors
    elapsed := stepElapsed t.now c
    prompt := asIfAnswered || c.recipe.promptGiven
    lid := asIfAnswered || c.recipe.lidSeen }

/-- Evaluate the step's ending; a missing tree is false. -/
def evalEnds (t : Tick) (asIfAnswered : Bool) (c : Control) : Bool :=
  match c.recipe.ends with
  | none => false
  | some tree => t.services.evalTree tree (stepFacts t asIfAnswered c)

/-- When the step is due to end; negative when nothing can say. -/
def endsEta (t : Tick) (c : Control) : ℚ :=
  match c.recipe.ends with
  | none => -1
  | some tree => t.services.treeEta tree (stepFacts t false c)

/-- Hold the run at the end of its step for the cook. -/
def recipeHoldHere (c : Control) : Control :=
  mapRecipe (fun run => { run with waiting := true, etaS := -1, said := true }) c

/-- End the step unless the cook asked for a pause at its end. -/
def endOrPause (c : Control) : Control × Bool :=
  if c.recipe.pauses then (recipeHoldHere c, false) else (c, true)

/-- Whether a step about the grill's own mode has ended. -/
def modeStepDone (stepMode mode : Mode) : Bool :=
  match stepMode with
  | .startup => !mode.isLighting && mode != .prime
  | .shutdown => mode == .stop
  | _ => true

/-- Ask again only after a second; a Hold step's clock starts once the pit has
reached its set point. -/
def beginEval (t : Tick) (c : Control) : Control :=
  let arrived := c.recipe.current.mode = .hold ∧ c.recipe.atTempSince ≤ 0 ∧ c.targetReached
  mapRecipe (fun run =>
    { run with lastEval := t.now, atTempSince := if arrived then t.now else run.atTempSince }) c

/-- Whether the step answers its own prompt, as the cook asked. -/
def RecipeRun.continuesAlone (run : RecipeRun) : Bool :=
  run.wantsPrompt && !run.promptGiven && run.step < recipeMaxSteps &&
    run.flagAt run.step == flagContinue

/-- The end of an evaluation: whether the cook is waited for, and when the step
is due to end. -/
def concludeEval (t : Tick) (ready ended : Bool) (c : Control) : Control × Bool :=
  let waiting := ready && !ended
  let eta := if waiting then -1 else endsEta t c
  let lead := c.recipe.current.leadS
  (mapRecipe (fun run =>
    { run with
      waiting := waiting
      said := waiting || run.said
      etaS := eta
      leadFired := run.leadFired || (lead > 0 && eta ≥ 0 && eta ≤ lead) }) c, ended)

/-- Judge a step that is waiting for its condition, at most once a second. -/
def weighEnds (t : Tick) (c : Control) : Control × Bool :=
  let timed := beginEval t c
  let done := evalEnds t false timed
  if done && timed.recipe.pauses then (recipeHoldHere timed, false)
  else
    let ready := done || (timed.recipe.wantsPrompt && evalEnds t true timed)
    if ready && !done && timed.recipe.continuesAlone then
      let answered := mapRecipe (fun run => { run with promptGiven := true }) timed
      concludeEval t ready (evalEnds t false answered) answered
    else concludeEval t ready done timed

/-- Latch the lid the instant it is open, for a step that asks about it. -/
def noticeLid (c : Control) : Control :=
  if c.lidOpen && !c.recipe.lidSeen && endsMention "lid" c.recipe.ends then
    mapRecipe (fun run => { run with lidSeen := true }) c
  else c

/-- Judge the current step: the state with what was noticed, and whether the
step has ended. -/
def weighStep (t : Tick) (c : Control) : Control × Bool :=
  let s := c.recipe.current
  let noticed := noticeLid c
  if s.mode = .startup ∨ s.mode = .shutdown ∨ s.mode = .stop then
    if modeStepDone s.mode c.mode then endOrPause noticed else (noticed, false)
  else if c.mode ≠ s.mode then (noticed, false)
  else if treeEmpty c.recipe.ends then endOrPause noticed
  else if t.now - c.recipe.lastEval < 1 then (noticed, false)
  else weighEnds t noticed

/-- One tick of the recipe. -/
def runRecipe (t : Tick) (c : Control) : Control :=
  if !c.recipe.active then c
  else if c.mode = .error then mapRecipe (fun run => { run with active := false }) c
  else
    let weighed := weighStep t c
    if weighed.2 then recipeAdvance t weighed.1 else weighed.1

/-- Drop the question what to do with the fire once it is out. -/
def recipeAftercare (c : Control) : Control :=
  if c.recipe.leftRunning ∧ c.mode.isFiring = false then
    { c with recipe := { c.recipe with leftRunning := false } }
  else c

end PiFire
