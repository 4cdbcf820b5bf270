import PiFire.Runner.Place

/-!
# What a light owes the recipe

A Smoke or Hold step that begins during a light is what the light is to go to.
This file keeps a ledger of it beside the control state: a step that begins
writes it, the end of the light or of the recipe and the cook's own change of
mind strike it out, and the clamp on set points holds it as it holds the set
point itself.
-/

namespace PiFire

open Transition

/-- Where a light is to go: the mode, and the set point when the step has one. -/
structure Due where
  mode : Mode
  aim : Option ℚ
  deriving DecidableEq

/-- What a run that begins its step asks of a light. -/
def RecipeRun.due (run : RecipeRun) : Option Due :=
  let s := run.current
  if run.active = true ∧ s.mode.isRunning = true then
    some { mode := s.mode, aim := if s.setpointC > 0 then some s.setpointC else none }
  else none

/-- A set point held to the targets the grill accepts. -/
def heldTo (cfg : Cfg) (sp : ℚ) : ℚ :=
  let held := clamp sp cfg.minTargetC cfg.maxTargetC
  if sp > 0 ∧ |held - sp| > setpointSlackC then held else sp

/-- What is owed, with its set point held to the targets the grill accepts. -/
def Due.held (cfg : Cfg) (d : Due) : Due :=
  { d with aim := d.aim.map (heldTo cfg) }

/-- The run as a phase begins a step of it, when it begins one: by a start, a
skip, a step back, or the end of the step before. -/
def begins (t : Tick) (p : Phase) (c : Control) : Option RecipeRun :=
  match p with
  | .command (.recipeStart num) =>
      if c.mode ≠ .error ∧ t.services.recipes.has (truncate num) = true then
        some (cmdRun t c.mode c.recipe (.recipeStart num))
      else none
  | .command .recipeSkip => if c.recipe.active then some (advancedRun c.recipe) else none
  | .command .recipeBack =>
      if c.recipe.active ∧ c.recipe.step > 0 then
        some (begunRun { c.recipe with step := c.recipe.step - 1 })
      else none
  | .recipe =>
      if c.recipe.active ∧ c.mode ≠ .error ∧ (weighStep t c).2 then
        some (advancedRun c.recipe)
      else none
  | _ => none

/-- Whether the cook sends the light elsewhere: by a set point, or by a request
that is not refused or carries a set point. -/
def redirects (p : Phase) (c : Control) : Bool :=
  match p with
  | .command (.setpoint num) => num > 0
  | .request => c.req.any fun r => !refuses c.mode r.mode || r.setpointC > 0
  | _ => false

/-- The control state with what its light owes. -/
abbrev Ledger := Control × Option Due

/-- What is owed after a phase that begins no step. -/
def dueAfter (p : Phase) (c : Control) (due : Option Due) : Option Due :=
  match p with
  | .clampSp => due.map (Due.held c.cfg)
  | p => if redirects p c then none else due

/-- What is owed after a phase. -/
def oweNext (t : Tick) (p : Phase) (c : Control) (due : Option Due) : Option Due :=
  if (p.act t c).mode.isLighting && (p.act t c).recipe.active then
    match begins t p c with
    | some run => run.due
    | none => dueAfter p c due
  else none

/-- A phase, with what it does to the ledger. -/
def owePhase (t : Tick) (p : Phase) (s : Ledger) : Ledger :=
  (p.act t s.1, oweNext t p s.1 s.2)

/-- Where the control state would take a light now. -/
structure Bearing where
  mode : Mode
  nextMode : Mode
  reigniteLast : Mode
  setpointC : ℚ

/-- The bearing of the control state. -/
def bearingOf (c : Control) : Bearing :=
  { mode := c.mode
    nextMode := c.nextMode
    reigniteLast := c.safety.reigniteLast
    setpointC := c.setpointC }

/-- The light would go where it is due. -/
def HeadedTo (c : Control) (d : Due) : Prop :=
  handoverMode c = d.mode ∧ ∀ sp ∈ d.aim, c.setpointC = sp

/-- While something is owed a recipe is active on a grill that is being lit, and
the light would go where it is due. -/
def Owed (s : Ledger) : Prop :=
  ∀ d ∈ s.2, s.1.mode.isLighting = true ∧ s.1.recipe.active = true ∧ HeadedTo s.1 d

section Bearing

variable {c c' : Control} {d : Due}

theorem headedTo_of_bearing (same : bearingOf c' = bearingOf c) (headed : HeadedTo c d) :
    HeadedTo c' d := by
  simp only [bearingOf, Bearing.mk.injEq] at same
  obtain ⟨mode, nextMode, reigniteLast, setpointC⟩ := same
  unfold HeadedTo handoverMode
  rw [mode, nextMode, reigniteLast, setpointC]
  exact headed

theorem bearingOf_of_still (same : stillOf c' = stillOf c) : bearingOf c' = bearingOf c :=
  congrArg
    (fun s : Still =>
      ({ mode := s.mode, nextMode := s.nextMode, reigniteLast := s.safety.reigniteLast,
         setpointC := s.setpointC } : Bearing)) same

end Bearing

/-- Where a Relight goes back to. -/
def goesBack (c : Control) : Mode :=
  if c.safety.reigniteLast.isRunning then c.safety.reigniteLast else .smoke

section Begun

variable {t : Tick} {c : Control} {d : Due}

theorem due_place {run other : RecipeRun} (same : run.place = other.place) :
    run.due = other.due := by
  obtain ⟨active, step, -, r⟩ := parts_of_place same
  unfold RecipeRun.due RecipeRun.current
  rw [active, step, r]

theorem due_inactive {run : RecipeRun} (inactive : run.active = false) : run.due = none := by
  simp [RecipeRun.due, inactive]

theorem due_spec {run : RecipeRun} (owes : d ∈ run.due) :
    run.active = true ∧ run.current.mode.isRunning = true ∧ d.mode = run.current.mode ∧
      ∀ sp ∈ d.aim, run.current.setpointC > 0 ∧ sp = run.current.setpointC := by
  simp only [RecipeRun.due, Option.mem_def] at owes
  split at owes
  · next going =>
      cases owes
      refine ⟨going.1, going.2, rfl, ?_⟩
      intro sp aimed
      simp only [Option.mem_def] at aimed
      split at aimed
      · next positive =>
          cases aimed
          exact ⟨positive, rfl⟩
      · cases aimed
  · cases owes

theorem handoverMode_startup (lighting : c.mode = .startup)
    (running : c.nextMode.isRunning = true) : handoverMode c = c.nextMode := by
  simp [handoverMode, lighting, running]

theorem handoverMode_reignite (lighting : c.mode = .reignite) : handoverMode c = goesBack c := by
  simp only [handoverMode, lighting, if_true, goesBack]

theorem handoverMode_lit {c' : Control} {m : Mode} (running : m.isRunning = true)
    (lit : c.mode.isLighting = true) (mode : c'.mode = c.mode) (next : c'.nextMode = m)
    (safety : c'.safety = c.safety) :
    handoverMode c' = m ↔ (c.mode = .reignite → goesBack c = m) := by
  cases lighting : c.mode with
  | startup =>
      rw [lighting] at mode
      have there := handoverMode_startup mode (by rw [next]; exact running)
      rw [there, next]
      exact iff_of_true rfl fun relight => nomatch relight
  | reignite =>
      rw [lighting] at mode
      have there : goesBack c' = goesBack c := by rw [goesBack, goesBack, safety]
      rw [handoverMode_reignite mode, there]
      exact ⟨fun back _ => back, fun back => back rfl⟩
  | _ =>
      rw [lighting] at lit
      cases lit

theorem bearingOf_enterStartup (t : Tick) (c : Control) :
    bearingOf (enterMode t .startup c) =
      { mode := .startup, nextMode := c.nextMode, reigniteLast := .stop
        setpointC := c.setpointC } := by
  have core := relayOf_enterMode_plain t .startup c (by decide)
  have heading := headingOf_enterMode t c .startup
  have mode : (enterMode t .startup c).mode = .startup := congrArg Relay.mode core
  have setpointC : (enterMode t .startup c).setpointC = c.setpointC :=
    congrArg Relay.setpointC core
  have nextMode : (enterMode t .startup c).nextMode = c.nextMode :=
    congrArg Heading.nextMode heading
  have reigniteLast : (enterMode t .startup c).safety.reigniteLast = .stop :=
    congrArg Heading.reigniteLast heading
  rw [bearingOf, mode, nextMode, reigniteLast, setpointC]

/-- The change of mode of a Smoke or Hold step heads the light for the step,
unless the light is a Relight: that one goes where it would have gone. -/
theorem switchForStep_headed {m : Mode} (running : m.isRunning = true)
    (lighting : (switchForStep t m c).mode.isLighting = true) :
    (switchForStep t m c).setpointC = c.setpointC ∧
      (handoverMode (switchForStep t m c) = m ↔ (c.mode = .reignite → goesBack c = m)) := by
  have switched : switchForStep t m c =
      if c.mode.isIdle then enterMode t .startup { c with nextMode := m }
      else if c.mode.isLighting then { c with nextMode := m }
      else if c.mode ≠ m then enterMode t m c
      else if m = .hold then { c with targetReached := false }
      else c := by
    cases m with
    | smoke | hold => rfl
    | _ => cases running
  rw [switched] at lighting ⊢
  by_cases idle : c.mode.isIdle = true
  · rw [if_pos idle]
    have bearing := bearingOf_enterStartup t { c with nextMode := m }
    have mode : (enterMode t .startup { c with nextMode := m }).mode = .startup :=
      congrArg Bearing.mode bearing
    have next : (enterMode t .startup { c with nextMode := m }).nextMode = m :=
      congrArg Bearing.nextMode bearing
    constructor
    · exact congrArg Bearing.setpointC bearing
    · have there := handoverMode_startup mode (by rw [next]; exact running)
      rw [there, next]
      have notRelight : c.mode ≠ .reignite := by
        intro relight
        rw [relight] at idle
        cases idle
      exact iff_of_true rfl fun relight => absurd relight notRelight
  rw [if_neg idle] at lighting ⊢
  by_cases lit : c.mode.isLighting = true
  · rw [if_pos lit]
    exact ⟨rfl, handoverMode_lit running lit rfl rfl rfl⟩
  rw [if_neg lit] at lighting
  have cooking {m : Mode} (running : m.isRunning = true) : m.isLighting = false := by
    cases m <;> first | rfl | cases running
  by_cases other : c.mode ≠ m
  · rw [if_pos other, enterMode_mode, cooking running] at lighting
    cases lighting
  · rw [if_neg other] at lighting
    split at lighting
    · exact absurd lighting lit
    · exact absurd lighting lit

theorem startStep_headed (owes : d ∈ c.recipe.due)
    (lighting : (startStep t c).mode.isLighting = true) :
    HeadedTo (startStep t c) d ↔ (c.mode = .reignite → goesBack c = d.mode) := by
  obtain ⟨-, running, mode, aimed⟩ := due_spec owes
  rw [startStep] at lighting ⊢
  obtain ⟨setpointC, there⟩ := switchForStep_headed running lighting
  rw [mode]
  unfold HeadedTo
  rw [setpointC, mode, there]
  constructor
  · rintro ⟨back, -⟩
    exact back
  · intro back
    refine ⟨back, ?_⟩
    intro sp among
    obtain ⟨positive, rfl⟩ := aimed sp among
    exact if_pos positive

theorem startStep_lights (owes : d ∈ c.recipe.due) (lit : c.mode.isLighting = true) :
    (startStep t c).mode.isLighting = true := by
  have moved := congrArg Relay.mode (passes_startStep t c).core
  have running := (due_spec owes).2.1
  have stays : switchEntry c.mode c.recipe.current.mode = none := by
    cases mode : c.mode with
    | startup | reignite =>
        cases step : c.recipe.current.mode with
        | smoke | hold => rfl
        | _ =>
            rw [step] at running
            cases running
    | _ =>
        rw [mode] at lit
        cases lit
  rw [stays] at moved
  have same : (startStep t c).mode = c.mode := moved
  rw [same]
  exact lit

/-- A state in which a step has just begun that is due: a light that was going
before goes on, and is headed for the step unless it is a Relight that goes back
to another mode. -/
structure BeginsDue (before after : Control) (d : Due) : Prop where
  goesOn : before.mode.isLighting = true → after.mode.isLighting = true
  headed : after.mode.isLighting = true →
    (HeadedTo after d ↔ (before.mode = .reignite → goesBack before = d.mode))

theorem recipeBeginStep_due (owes : d ∈ (recipeBeginStep t c).recipe.due) :
    BeginsDue c (recipeBeginStep t c) d := by
  cases ended : (passOver recipeMaxSteps c.recipe).2 with
  | true =>
      have isOver : (recipeBeginStep t c).recipe.active = false := by
        simp only [recipeBeginStep, ended, if_true]
        rfl
      rw [due_inactive isOver] at owes
      cases owes
  | false =>
      have begun : recipeBeginStep t c =
          startStep t { c with recipe := (passOver recipeMaxSteps c.recipe).1 } := by
        simp only [recipeBeginStep, ended, Bool.false_eq_true, if_false]
      rw [begun] at owes ⊢
      have same : (startStep t { c with
          recipe := (passOver recipeMaxSteps c.recipe).1 }).recipe.place =
            (passOver recipeMaxSteps c.recipe).1.place := by
        rw [startStep, switchForStep_recipe]
        rfl
      rw [due_place same] at owes
      constructor
      · exact startStep_lights (c := { c with
          recipe := (passOver recipeMaxSteps c.recipe).1 }) owes
      · exact startStep_headed owes

theorem recipeAdvance_due (owes : d ∈ (recipeAdvance t c).recipe.due) :
    BeginsDue c (recipeAdvance t c) d := by
  by_cases ended : c.recipe.step + 1 ≥ c.recipe.r.nsteps
  · have isOver : (recipeAdvance t c).recipe.active = false := by
      simp only [recipeAdvance, if_pos ended]
      rfl
    rw [due_inactive isOver] at owes
    cases owes
  · have begun : recipeAdvance t c =
        recipeBeginStep t { c with recipe := { c.recipe with step := c.recipe.step + 1 } } := by
      simp only [recipeAdvance, if_neg ended]
    rw [begun] at owes ⊢
    have due := recipeBeginStep_due owes
    exact ⟨due.goesOn, due.headed⟩

end Begun

end PiFire
