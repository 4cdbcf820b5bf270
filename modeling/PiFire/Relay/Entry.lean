import PiFire.Control.Life
import PiFire.Relay.Core

/-!
# Which mode a phase enters

For every phase that changes the mode, pure functions of the state before it say
which mode is entered, if any, and with which set point. Beside that the phase
works on the course of the cook alone, so it acts on the relay core as its entry
and in no other way. The phases that switch a relay by themselves (the manual
commands, the lid, the supervision and the auger cycle) are in
`PiFire.Relay.Switch`.
-/

namespace PiFire

/-! ## How a phase passes a state on -/

/-- What is left without the course of the cook: the recipe, the targets, the mode that is
to follow and the feed that is asked for. -/
def withoutCourse (c : Control) : Control :=
  { c with
    nextMode := .stop, modeStart := 0, aimSince := 0, sPlus := false, pwmControl := false
    cycle := .idle, uRaw := 0, uApplied := 0, targetReached := false, primeAmountG := 0
    notify := .init, recipe := .init, lastStep := 0, powerOffRequested := false
    autotune := { active := false, uCenter := 0, lastLoad := 0 }
    safety := { c.safety with reigniteLast := .stop, stopOvertempSaid := false, error := none } }

/-- The state with this set point, and this request waiting. -/
def Control.aiming (sp : ℚ) (req : Option Request) (c : Control) : Control :=
  { c with setpointC := sp, req := req }

/-- How a part of a step that enters a mode, or none, passes on what a view shows of the
state. -/
inductive Passes {β : Type} (view : Control → β) (t : Tick) (c : Control) :
    Option Entry → Control → Prop where
  | stays {d : Control} (same : view d = view c) : Passes view t c none d
  | enters {d from_ : Control} {e : Entry} (into : view d = view (enterMode t e.mode from_))
      (same : view from_ = view c)
      (lights : e.lights = Entry.lights { mode := e.mode, ignites := primeIgnites from_ }) :
      Passes view t c (some e) d
  /-- A light is handed over, or a light's end is forced. -/
  | handsOver {d from_ : Control} {m : Mode} (lighting : c.mode.isLighting)
      (into : view d = view (enterMode t m from_))
      (same : view from_ = view (onStartupExit t c)) (notPrime : m ≠ .prime) :
      Passes view t c (some (.plain m)) d

theorem Entry.lights_plain {m : Mode} (notPrime : m ≠ .prime) (ignites : Bool) :
    (Entry.plain m).lights = Entry.lights { mode := m, ignites := ignites } := by
  cases m <;> first | rfl | contradiction

namespace Passes

variable {β : Type} {t : Tick} {c c' d : Control} {entered : Option Entry}

theorem blind {left : Control → Control} (passes : Passes left t c entered d)
    (view : Control → β) (blinded : ∀ c, view (left c) = view c) : Passes view t c entered d := by
  have seen {a b : Control} (same : left a = left b) : view a = view b := by
    rw [← blinded a, same, blinded b]
  cases passes with
  | stays same => exact .stays (seen same)
  | enters into same lights => exact .enters (seen into) (seen same) lights
  | handsOver lighting into same notPrime =>
      exact .handsOver lighting (seen into) (seen same) notPrime

theorem stays_or_enters {view : Control → β} (passes : Passes view t c entered d)
    (exits : view (onStartupExit t c) = view c) :
    entered = none ∧ view d = view c ∨
      ∃ e from_, entered = some e ∧ view from_ = view c ∧
        view d = view (enterMode t e.mode from_) := by
  cases passes with
  | stays same => exact Or.inl ⟨rfl, same⟩
  | enters into same => exact Or.inr ⟨_, _, rfl, same, into⟩
  | handsOver _ into same => exact Or.inr ⟨_, _, rfl, same.trans exits, into⟩

theorem after {entered' : Option Entry} (passes : Passes withoutCourse t c' entered d)
    (planned : withoutCourse c' = withoutCourse c) (same : entered' = entered) :
    Passes withoutCourse t c entered' d := by
  subst same
  have mode : c'.mode = c.mode := by
    have left := congrArg Control.mode planned
    exact left
  cases passes with
  | stays same => exact .stays (same.trans planned)
  | enters into same lights => exact .enters into (same.trans planned) lights
  | handsOver lighting into same notPrime =>
      have ended : withoutCourse (onStartupExit t (withoutCourse c')) =
          withoutCourse (onStartupExit t (withoutCourse c)) :=
        congrArg (fun c => withoutCourse (onStartupExit t c)) planned
      exact .handsOver (mode ▸ lighting) into (same.trans ended) notPrime

/-- The relay core is blind to the course, and to the end of a light. -/
theorem core (passes : Passes withoutCourse t c entered d) :
    relayOf d = (relayOf c).enterIf t.now entered := by
  cases passes.blind relayOf fun _ => rfl with
  | stays same => exact same
  | @enters _ _ e into same lights =>
      rw [into, relayOf_enterMode, same, Relay.enterIf_some, Relay.enter, Relay.enter, lights]
  | handsOver _ into same notPrime =>
      rw [into, relayOf_enterMode_plain t _ _ notPrime, same]
      rfl

end Passes

/-! ## The recipe -/

/-- What a step of a given mode enters as it begins. -/
def switchEntry (mode stepMode : Mode) : Option Entry :=
  match stepMode with
  | .startup => if mode.isFiring then none else some (.plain .startup)
  | .smoke | .hold =>
      if mode.isIdle then some (.plain .startup)
      else if mode.isLighting then none
      else if mode ≠ stepMode then some (.plain stepMode)
      else none
  | .shutdown => some (.plain .shutdown)
  | .stop => some (.plain .stop)
  | _ => none

/-- What is entered as the run begins the step it is at. -/
def beginEntry (mode : Mode) (run : RecipeRun) : Option Entry :=
  let passed := passOver recipeMaxSteps run
  if passed.2 then none else switchEntry mode passed.1.current.mode

/-- What is entered as the run goes on to its next step. -/
def advanceEntry (mode : Mode) (run : RecipeRun) : Option Entry :=
  if run.step + 1 ≥ run.r.nsteps then none
  else beginEntry mode { run with step := run.step + 1 }

/-- The set point of the step the run is at: its own, when it has one. -/
def RecipeRun.aim (run : RecipeRun) (sp : ℚ) : ℚ :=
  if run.current.setpointC > 0 then run.current.setpointC else sp

/-- The set point as the run begins the step it is at. -/
def beginAim (run : RecipeRun) (sp : ℚ) : ℚ :=
  let passed := passOver recipeMaxSteps run
  if passed.2 then sp else passed.1.aim sp

/-- The set point as the run goes on to its next step. -/
def advanceAim (run : RecipeRun) (sp : ℚ) : ℚ :=
  if run.step + 1 ≥ run.r.nsteps then sp else beginAim { run with step := run.step + 1 } sp

/-- The set point as a recipe is finished early. -/
def finishAim (run : RecipeRun) (sp : ℚ) : ℚ :=
  match finishStep run with
  | none => sp
  | some fin => if (run.r.stepAt fin).setpointC > 0 then (run.r.stepAt fin).setpointC else sp

section Recipe

variable (t : Tick) (c : Control)

theorem passes_switchForStep (stepMode : Mode) :
    Passes withoutCourse t c (switchEntry c.mode stepMode) (switchForStep t stepMode c) := by
  cases stepMode with
  | startup =>
      simp only [switchForStep, switchEntry]
      split
      · exact .stays rfl
      · exact .enters rfl rfl rfl
  | smoke | hold =>
      simp only [switchForStep, switchEntry]
      split
      · exact .enters rfl rfl rfl
      · split
        · exact .stays rfl
        · split
          · exact .enters rfl rfl rfl
          · exact .stays rfl
  | shutdown => exact .enters rfl rfl rfl
  | stop => exact .enters rfl rfl rfl
  | monitor | prime | reignite | manual | error => exact .stays rfl

theorem passes_startStep :
    Passes withoutCourse t (c.aiming (c.recipe.aim c.setpointC) c.req)
      (switchEntry c.mode c.recipe.current.mode) (startStep t c) :=
  (passes_switchForStep t _ _).after rfl rfl

theorem passes_recipeBeginStep :
    Passes withoutCourse t (c.aiming (beginAim c.recipe c.setpointC) c.req)
      (beginEntry c.mode c.recipe) (recipeBeginStep t c) := by
  simp only [recipeBeginStep, beginEntry, beginAim]
  split
  · exact .stays rfl
  · exact (passes_startStep t _).after rfl rfl

theorem passes_recipeAdvance :
    Passes withoutCourse t (c.aiming (advanceAim c.recipe c.setpointC) c.req)
      (advanceEntry c.mode c.recipe) (recipeAdvance t c) := by
  simp only [recipeAdvance, advanceEntry, advanceAim]
  split
  · exact .stays rfl
  · exact (passes_recipeBeginStep t _).after rfl rfl

end Recipe

theorem finishStep_spec {run : RecipeRun} {fin : ℕ} (found : finishStep run = some fin) :
    fin < run.r.nsteps ∧ (run.r.stepAt fin).mode = .shutdown := by
  have inside := List.mem_of_find?_eq_some found
  have picked := List.find?_some found
  simp only [decide_eq_true_eq] at picked
  simp only [List.mem_reverse, List.mem_range] at inside
  exact ⟨inside, picked.2⟩

theorem stepAt_take {r : Recipe} {fin : ℕ} :
    ({ r with steps := r.steps.take (fin + 1) } : Recipe).stepAt fin = r.stepAt fin := by
  simp [Recipe.stepAt, List.getD_eq_getElem?_getD]

theorem setFlag_not_skips (run : RecipeRun) : (run.setFlag run.step 0).skips = false := by
  simp only [RecipeRun.skips, RecipeRun.setFlag, RecipeRun.flagAt, Bool.and_eq_false_iff]
  right
  rw [List.getD_eq_getElem?_getD, List.getElem?_set_self']
  cases run.flags[run.step]? <;> rfl

theorem passOver_of_not_skips {run : RecipeRun} (notSkipped : run.skips = false) (fuel : ℕ) :
    passOver fuel run = (run, false) := by
  cases fuel with
  | zero => rfl
  | succ fuel => simp [passOver, notSkipped]

theorem finishEntry {mode : Mode} {run : RecipeRun} {fin : ℕ} (found : finishStep run = some fin) :
    beginEntry mode (RecipeRun.setFlag fin 0 { run with
      r := { run.r with steps := run.r.steps.take (fin + 1) }, step := fin }) =
        some (.plain .shutdown) := by
  obtain ⟨-, isShutdown⟩ := finishStep_spec found
  have notSkipped := setFlag_not_skips { run with
    r := { run.r with steps := run.r.steps.take (fin + 1) }, step := fin }
  have current : (RecipeRun.setFlag fin 0 { run with
      r := { run.r with steps := run.r.steps.take (fin + 1) },
      step := fin }).current = run.r.stepAt fin := stepAt_take
  simp only [beginEntry]
  rw [passOver_of_not_skips notSkipped]
  simp only [Bool.false_eq_true, if_false, current, isShutdown, switchEntry]

theorem passes_recipeFinishNow (t : Tick) (c : Control) :
    Passes withoutCourse t (c.aiming (finishAim c.recipe c.setpointC) c.req)
      (some (.plain .shutdown)) (recipeFinishNow t c) := by
  unfold recipeFinishNow finishAim
  cases found : finishStep c.recipe with
  | none => exact .enters rfl rfl rfl
  | some fin =>
      have begun := passes_recipeBeginStep t { c with
        recipe := RecipeRun.setFlag fin 0 { c.recipe with
          r := { c.recipe.r with steps := c.recipe.r.steps.take (fin + 1) }, step := fin } }
      have notSkipped := setFlag_not_skips { c.recipe with
        r := { c.recipe.r with steps := c.recipe.r.steps.take (fin + 1) }, step := fin }
      have current : (RecipeRun.setFlag fin 0 { c.recipe with
          r := { c.recipe.r with steps := c.recipe.r.steps.take (fin + 1) },
          step := fin }).current = c.recipe.r.stepAt fin := stepAt_take
      simp only [beginAim] at begun
      rw [passOver_of_not_skips notSkipped, finishEntry found] at begun
      simp only [Bool.false_eq_true, if_false, RecipeRun.aim, current] at begun
      exact begun.after rfl rfl

/-! ## The pending request -/

/-- What a request that was not refused enters. -/
def carriedEntry (r : Request) (c : Control) : Option Entry :=
  match r.mode with
  | .startup =>
      if c.cfg.primeOnStartupG > 0 ∧ (c.mode = .stop ∨ c.mode = .monitor) then
        some { mode := .prime, ignites := c.cfg.primeIgnition }
      else some (.plain .startup)
  | .smoke | .hold =>
      if c.mode.isIdle then some (.plain .startup)
      else if (c.mode = .hold ∧ r.mode = .hold) ∨ c.mode.isLighting then none
      else some (.plain r.mode)
  | .prime => some { mode := .prime, ignites := primeIgnites c }
  | other => some (.plain other)

/-- What the pending request enters. -/
def requestEntry (c : Control) : Option Entry :=
  match c.req with
  | none => none
  | some r => if refuses c.mode r.mode then none else carriedEntry r c

/-- The set point Hold begins with. -/
def holdAim (c : Control) : ℚ :=
  if c.setpointC ≤ 0 then c.cfg.afterStartupSetpointC else c.setpointC

/-- The set point a request that was not refused is carried out with. -/
def carriedAim (r : Request) (c : Control) : ℚ :=
  match r.mode with
  | .shutdown => if c.recipe.active then finishAim c.recipe c.setpointC else c.setpointC
  | .startup =>
      if c.cfg.afterStartupMode = .hold ∧ r.setpointC ≤ 0 then c.cfg.afterStartupSetpointC
      else c.setpointC
  | .hold => holdAim c
  | _ => c.setpointC

/-- The state as the pending request is taken from its slot. -/
def takeRequest (r : Request) (c : Control) : Control :=
  { c with
    req := none
    setpointC := if r.setpointC > 0 then r.setpointC else c.setpointC }

/-- The set point after the pending request. -/
def requestAim (c : Control) : ℚ :=
  match c.req with
  | none => c.setpointC
  | some r =>
      if refuses c.mode r.mode then (takeRequest r c).setpointC
      else carriedAim r (takeRequest r c)

section Request

variable (t : Tick) (c : Control)

theorem withoutCourse_clearForStop : withoutCourse (clearForStop c) = withoutCourse c := by
  unfold clearForStop
  extract_lets cleared
  split <;> rfl

theorem defaultSetpoint_eq : defaultSetpoint c = c.aiming (holdAim c) c.req := by
  unfold defaultSetpoint holdAim
  split <;> rfl

theorem carriedEntry_running {r : Request} (running : r.mode.isRunning) :
    carriedEntry r c =
      if c.mode.isIdle then some (.plain .startup)
      else if (c.mode = .hold ∧ r.mode = .hold) ∨ c.mode.isLighting then none
      else some (.plain r.mode) := by
  unfold carriedEntry
  split <;> simp_all [Mode.isRunning]

theorem passes_requestRunning (r : Request) (running : r.mode.isRunning) :
    Passes withoutCourse t c (carriedEntry r c) (requestRunning t r.mode c) := by
  rw [carriedEntry_running c running, requestRunning]
  by_cases idle : c.mode.isIdle = true
  · rw [if_pos idle, if_pos idle]
    exact .enters rfl rfl rfl
  · rw [if_neg idle, if_neg idle]
    by_cases holding : c.mode = .hold ∧ r.mode = .hold
    · rw [if_pos holding, if_pos (Or.inl holding)]
      exact .stays rfl
    · rw [if_neg holding]
      by_cases lighting : c.mode.isLighting = true
      · rw [if_pos (Or.inr lighting)]
        split
        · exact .stays rfl
        · split
          · exact .stays rfl
          · next notReignite notStartup =>
              cases mode : c.mode <;> simp_all [Mode.isLighting]
      · have notReignite : c.mode ≠ .reignite := fun same => lighting (by rw [same]; rfl)
        have notStartup : c.mode ≠ .startup := fun same => lighting (by rw [same]; rfl)
        have notPrime : r.mode ≠ .prime := fun same => by simp [same, Mode.isRunning] at running
        rw [if_neg notReignite, if_neg notStartup, if_neg (by tauto)]
        exact .enters rfl rfl (Entry.lights_plain notPrime _)

theorem passes_requestStartup (sp : ℚ) :
    Passes withoutCourse t (c.aiming (carriedAim { mode := .startup, setpointC := sp } c) c.req)
      (carriedEntry { mode := .startup, setpointC := sp } c) (requestStartup t sp c) := by
  simp only [requestStartup, carriedEntry]
  split
  · refine .enters rfl rfl ?_
    simp [Entry.lights, primeIgnites]
  · exact .enters rfl rfl rfl

theorem passes_carryOut (r : Request) :
    Passes withoutCourse t (c.aiming (carriedAim r c) c.req) (carriedEntry r c)
      (carryOut t r c) := by
  obtain ⟨m, sp⟩ := r
  cases m with
  | stop => exact .enters rfl (withoutCourse_clearForStop c) rfl
  | startup => exact passes_requestStartup t c sp
  | smoke => exact passes_requestRunning t c { mode := .smoke, setpointC := sp } rfl
  | hold =>
      have aimed := passes_requestRunning t (defaultSetpoint c)
        { mode := .hold, setpointC := sp } rfl
      rw [defaultSetpoint_eq] at aimed
      rw [carryOut, defaultSetpoint_eq]
      exact aimed
  | shutdown =>
      simp only [carryOut, carriedAim]
      split
      · exact passes_recipeFinishNow t c
      · exact .enters rfl rfl rfl
  | prime | monitor | manual | reignite | error => exact .enters rfl rfl rfl

theorem passes_applyRequest :
    Passes withoutCourse t (c.aiming (requestAim c) none) (requestEntry c)
      (applyRequest t c) := by
  unfold applyRequest requestEntry requestAim
  cases pending : c.req with
  | none =>
      have same : c.aiming c.setpointC none = c := by
        rw [← pending]
        rfl
      simp only [same]
      exact .stays rfl
  | some r =>
      simp only
      split
      · exact .stays rfl
      · exact passes_carryOut t (takeRequest r c) r

end Request

/-! ## Commands -/

/-- The commands that act on the core without entering a mode: they switch a
relay, or load other limits. -/
def Cmd.isDirect : Cmd → Bool
  | .manualOutput .. | .lidToggle | .settingsChanged | .controllerChanged => true
  | _ => false

/-- The commands that work on the course of the cook, or enter a mode. -/
def Cmd.plans : Cmd → Bool
  | .dutyCycle _ | .manualOutput .. | .lidToggle | .settingsChanged | .controllerChanged => false
  | _ => true

/-- What a command enters at once. -/
def cmdEntry (t : Tick) (c : Control) : Cmd → Option Entry
  | .stop => some (.plain .stop)
  | .mode m _ flag => if forcesHandover c m flag then some (.plain m) else none
  | .prime _ str =>
      if c.mode = .stop ∨ c.mode = .monitor then
        some { mode := .prime, ignites := c.cfg.primeIgnition && strcasecmp str "Startup" }
      else none
  | .clearError => if c.mode = .error then some (.plain .stop) else none
  | .recipeStart num =>
      let load := recipeLoad t.services.recipes (settingsUnits t.settings) (truncate num)
      if c.mode ≠ .error ∧ load.2 then
        beginEntry c.mode { c.recipe with
          r := load.1, active := true, step := 0, flags := clearFlags, leftRunning := false }
      else none
  | .recipeSkip => if c.recipe.active then advanceEntry c.mode c.recipe else none
  | .recipeBack =>
      if c.recipe.active ∧ c.recipe.step > 0 then
        beginEntry c.mode { c.recipe with step := c.recipe.step - 1 }
      else none
  | _ => none

/-- The set point a handover by the user begins with. -/
def forcedAim (m : Mode) (num : ℚ) (c : Control) : ℚ :=
  let asked := if num > 0 then toC num c.cfg.units else c.setpointC
  if m = .hold ∧ asked ≤ 0 then c.cfg.afterStartupSetpointC else asked

/-- The set point after a command. -/
def cmdAim (t : Tick) (c : Control) : Cmd → ℚ
  | .setpoint num => if num > 0 then toC num c.cfg.units else c.setpointC
  | .mode m num flag => if forcesHandover c m flag then forcedAim m num c else c.setpointC
  | .recipeStart num =>
      let load := recipeLoad t.services.recipes (settingsUnits t.settings) (truncate num)
      if c.mode ≠ .error ∧ load.2 then
        beginAim { c.recipe with
          r := load.1, active := true, step := 0, flags := clearFlags, leftRunning := false }
          c.setpointC
      else c.setpointC
  | .recipeSkip => if c.recipe.active then advanceAim c.recipe c.setpointC else c.setpointC
  | .recipeBack =>
      if c.recipe.active ∧ c.recipe.step > 0 then
        beginAim { c.recipe with step := c.recipe.step - 1 } c.setpointC
      else c.setpointC
  | _ => c.setpointC

/-- The request that waits after a command. -/
def cmdReq (c : Control) : Cmd → Option Request
  | .stop => none
  | .mode m num flag =>
      if forcesHandover c m flag then c.req
      else some { mode := m, setpointC := if num > 0 then toC num c.cfg.units else 0 }
  | .setpoint num =>
      if num > 0 ∧ c.mode = .smoke then
        some { mode := .hold, setpointC := toC num c.cfg.units }
      else c.req
  | _ => c.req

/-- The core with the set point and the request a command leaves. -/
def cmdAimed (t : Tick) (c : Control) (cmd : Cmd) : Relay :=
  { relayOf c with setpointC := cmdAim t c cmd, req := cmdReq c cmd }

section Command

variable (t : Tick) (c : Control)

/-- The state with the set point and the request a command leaves. -/
abbrev aimedBy (cmd : Cmd) : Control := c.aiming (cmdAim t c cmd) (cmdReq c cmd)

theorem passes_commandMode (m : Mode) (num : ℚ) (flag : Bool) :
    Passes withoutCourse t (aimedBy t c (.mode m num flag)) (cmdEntry t c (.mode m num flag))
      (commandMode t m num flag c) := by
  simp only [commandMode, aimedBy, cmdEntry, cmdAim, cmdReq]
  split
  · next forced =>
      obtain ⟨⟨-, lighting⟩, running⟩ : (flag = true ∧ c.mode.isLighting = true) ∧
          m.isRunning = true := by
        simpa only [forcesHandover, Bool.and_eq_true] using forced
      have notPrime : m ≠ .prime := fun same => by simp [same, Mode.isRunning] at running
      exact .handsOver lighting rfl rfl notPrime
  · exact .stays rfl

theorem passes_commandSetpoint (num : ℚ) :
    Passes withoutCourse t (aimedBy t c (.setpoint num)) none (commandSetpoint t num c) := by
  simp only [commandSetpoint, aimedBy, cmdAim, cmdReq]
  by_cases positive : num > 0
  · simp only [positive, true_and, if_true, followSetpoint]
    split <;> split
    all_goals first | exact .stays rfl | simp_all
  · simp only [positive, false_and, if_false]
    exact .stays rfl

theorem passes_commandPrime (num : ℚ) (str : String) :
    Passes withoutCourse t c (cmdEntry t c (.prime num str)) (commandPrime t num str c) := by
  simp only [commandPrime, cmdEntry]
  split
  · refine .enters rfl rfl ?_
    simp only [primeIgnites]
    cases strcasecmp str "Startup" <;> rfl
  · exact .stays rfl

theorem passes_commandRecipeStart (num : ℚ) :
    Passes withoutCourse t (aimedBy t c (.recipeStart num)) (cmdEntry t c (.recipeStart num))
      (commandRecipeStart t num c) := by
  simp only [commandRecipeStart, aimedBy, cmdEntry, cmdAim, cmdReq]
  by_cases faulted : c.mode = .error
  · simp only [faulted, if_true, ne_eq, not_true_eq_false, false_and, if_false]
    exact .stays rfl
  · simp only [faulted, if_false, ne_eq, not_false_eq_true, true_and]
    split
    · exact (passes_recipeBeginStep t _).after rfl rfl
    · exact .stays rfl

theorem passes_commandRecipeBack :
    Passes withoutCourse t (aimedBy t c .recipeBack) (cmdEntry t c .recipeBack)
      (commandRecipeBack t c) := by
  simp only [commandRecipeBack, aimedBy, cmdEntry, cmdAim, cmdReq]
  split
  · exact (passes_recipeBeginStep t _).after rfl rfl
  · exact .stays rfl

theorem passes_commandStop :
    Passes withoutCourse t (aimedBy t c .stop) (some (.plain .stop)) (commandStop t c) := by
  have into : withoutCourse (clearAll (enterMode t .stop c)) =
      withoutCourse (enterMode t .stop (c.aiming c.setpointC none)) := by
    by_cases tunes : c.autotune.active = true
    · have still : (c.aiming c.setpointC none).autotune.active = true := tunes
      simp only [enterMode, leaveMode, if_pos tunes, if_pos still]
      rfl
    · have still : ¬(c.aiming c.setpointC none).autotune.active = true := tunes
      simp only [enterMode, leaveMode, if_neg tunes, if_neg still]
      rfl
  exact .enters into rfl rfl

theorem passes_handleCmd {cmd : Cmd} (plans : cmd.plans = true) :
    Passes withoutCourse t (aimedBy t c cmd) (cmdEntry t c cmd) (handleCmd t c cmd) := by
  cases cmd with
  | stop => exact passes_commandStop t c
  | mode m num flag => exact passes_commandMode t c m num flag
  | setpoint num => exact passes_commandSetpoint t c num
  | dutyCycle | manualOutput | lidToggle | settingsChanged | controllerChanged => cases plans
  | prime num str => exact passes_commandPrime t c num str
  | clearError =>
      simp only [handleCmd, cmdEntry]
      split
      · exact .enters rfl rfl rfl
      · exact .stays rfl
  | recipeStart num => exact passes_commandRecipeStart t c num
  | recipeNext =>
      simp only [handleCmd, commandRecipeNext]
      split <;> exact .stays rfl
  | recipeStop =>
      simp only [handleCmd]
      split <;> exact .stays rfl
  | recipeSkip =>
      simp only [handleCmd, commandRecipeSkip, aimedBy, cmdEntry, cmdAim, cmdReq]
      split
      · exact passes_recipeAdvance t c
      · exact .stays rfl
  | recipeBack => exact passes_commandRecipeBack t c
  | recipeFlag num num2 =>
      simp only [handleCmd, commandRecipeFlag]
      split <;> exact .stays rfl
  | autotuneStart =>
      simp only [handleCmd, autotuneStart]
      split
      · split <;> exact .stays rfl
      · exact .stays rfl
  | autotuneStop =>
      simp only [handleCmd]
      split <;> exact .stays rfl
  | _ => exact .stays rfl

theorem relayOf_handleCmd (cmd : Cmd) (notDirect : cmd.isDirect = false) :
    relayOf (handleCmd t c cmd) = (cmdAimed t c cmd).enterIf t.now (cmdEntry t c cmd) := by
  by_cases plans : cmd.plans = true
  · exact (passes_handleCmd t c plans).core
  · cases cmd with
    | dutyCycle num =>
        simp only [handleCmd]
        split <;> rfl
    | manualOutput | lidToggle | settingsChanged | controllerChanged => cases notDirect
    | _ => exact absurd rfl plans

end Command

/-! ## The later phases -/

/-- What a met target or a finished timer enters. -/
def actionEntry (act : ℤ) (c : Control) : Option Entry :=
  if act = afterShutdown ∧ c.mode.isFiring then some (.plain .shutdown)
  else if act = afterKeepwarm ∧ c.mode.isRunning ∧ c.mode ≠ .hold then some (.plain .hold)
  else none

/-- The set point after that. -/
def actionAim (act : ℤ) (c : Control) : ℚ :=
  if act = afterShutdown ∧ c.mode.isFiring then
    if c.recipe.active then finishAim c.recipe c.setpointC else c.setpointC
  else if act = afterKeepwarm ∧ c.mode.isRunning then c.cfg.keepwarmC
  else c.setpointC

/-- What the targets and the timer enter. -/
def notifyEntry (t : Tick) (c : Control) : Option Entry :=
  actionEntry (tickNotify t c).pendingAction c

/-- What the recipe enters when its step ends. -/
def recipeEntry (t : Tick) (c : Control) : Option Entry :=
  if c.recipe.active ∧ c.mode ≠ .error ∧ (weighStep t c).2 then
    advanceEntry c.mode (weighStep t c).1.recipe
  else none

/-- The set point after the recipe's tick. -/
def recipeAim (t : Tick) (c : Control) : ℚ :=
  if c.recipe.active ∧ c.mode ≠ .error ∧ (weighStep t c).2 then
    advanceAim (weighStep t c).1.recipe c.setpointC
  else c.setpointC

/-- What the supervision enters. -/
def superviseEntry (t : Tick) (c : Control) : Option Entry :=
  match (safetyTick t c).2 with
  | .none => none
  | .error => some (.plain .error)
  | .reignite => some (.plain .reignite)

/-- What is entered as a matter of time. -/
def timedEntry (t : Tick) (c : Control) : Option Entry :=
  match c.mode with
  | .startup | .reignite => if startupDone c then some (.plain (handoverMode c)) else none
  | .shutdown => if cooledDown t c then some (.plain .stop) else none
  | .prime =>
      if t.now - c.modeStart > c.primeDurationS then
        some (.plain (if c.nextMode = .startup then .startup else .stop))
      else none
  | _ => none

/-- The set point after that: Hold is not begun without one. -/
def timedAim (c : Control) : ℚ :=
  if c.mode.isLighting ∧ startupDone c ∧ handoverMode c = .hold then holdAim c else c.setpointC

/-- What the shutdown input enters. -/
def inputEntry (t : Tick) (c : Control) : Option Entry :=
  if t.shutdownInput ∧ c.mode ≠ .stop then
    some (.plain (if c.mode.isRunning then .shutdown else .stop))
  else none

section Later

variable (t : Tick) (c : Control)

theorem passes_runNotify :
    Passes withoutCourse t (c.aiming (actionAim (tickNotify t c).pendingAction c) c.req)
      (notifyEntry t c) (runNotify t c) := by
  simp only [runNotify, notifyEntry, afterAction, actionEntry, actionAim]
  by_cases shuts : (tickNotify t c).pendingAction = afterShutdown ∧ c.mode.isFiring
  · rw [if_pos shuts, if_pos shuts, if_pos shuts]
    split
    · exact (passes_recipeFinishNow t _).after rfl rfl
    · exact .enters rfl rfl rfl
  · rw [if_neg shuts, if_neg shuts, if_neg shuts]
    by_cases warms : (tickNotify t c).pendingAction = afterKeepwarm ∧ c.mode.isRunning
    · rw [if_pos warms, if_pos warms]
      by_cases holding : c.mode = .hold
      · rw [if_pos holding, if_neg (by tauto)]
        exact .stays rfl
      · rw [if_neg holding, if_pos ⟨warms.1, warms.2, holding⟩]
        exact .enters rfl rfl rfl
    · rw [if_neg warms, if_neg warms, if_neg (by tauto)]
      exact .stays rfl

theorem withoutCourse_weighStep : withoutCourse (weighStep t c).1 = withoutCourse c := by
  have noticed : withoutCourse (noticeLid c) = withoutCourse c := by
    unfold noticeLid
    split <;> rfl
  have paused (c : Control) : withoutCourse (endOrPause c).1 = withoutCourse c := by
    unfold endOrPause
    split <;> rfl
  have concluded (ready ended : Bool) (c : Control) :
      withoutCourse (concludeEval t ready ended c).1 = withoutCourse c := rfl
  have answered (f : RecipeRun → RecipeRun) (c : Control) :
      withoutCourse (mapRecipe f c) = withoutCourse c := rfl
  have begun (c : Control) : withoutCourse (beginEval t c) = withoutCourse c := rfl
  have weighed (c : Control) : withoutCourse (weighEnds t c).1 = withoutCourse c := by
    unfold weighEnds
    extract_lets timed done ready given
    split_ifs
    · exact begun c
    · rw [concluded, answered, begun]
    · rw [concluded, begun]
  simp only [weighStep]
  split
  · split
    · rw [paused, noticed]
    · exact noticed
  · split
    · exact noticed
    · split
      · rw [paused, noticed]
      · split
        · exact noticed
        · rw [weighed, noticed]

theorem passes_runRecipe :
    Passes withoutCourse t (c.aiming (recipeAim t c) c.req) (recipeEntry t c)
      (runRecipe t c) := by
  have weighed := withoutCourse_weighStep t c
  have seen : ((weighStep t c).1.mode, (weighStep t c).1.setpointC, (weighStep t c).1.req) =
      (c.mode, c.setpointC, c.req) := by
    have left := congrArg (fun c => (c.mode, c.setpointC, c.req)) weighed
    exact left
  simp only [Prod.mk.injEq] at seen
  obtain ⟨mode, aim, req⟩ := seen
  simp only [runRecipe, recipeEntry, recipeAim]
  by_cases active : c.recipe.active = true
  · by_cases faulted : c.mode = .error
    · simp only [active, faulted, if_true, Bool.not_true, Bool.false_eq_true, if_false, ne_eq,
        not_true_eq_false, false_and, and_false]
      exact .stays rfl
    · simp only [active, faulted, if_false, Bool.not_true, Bool.false_eq_true, ne_eq,
        not_false_eq_true, true_and]
      split
      · have advanced := passes_recipeAdvance t (weighStep t c).1
        rw [mode, aim, req] at advanced
        refine advanced.after ?_ rfl
        have aimed := congrArg (Control.aiming (advanceAim (weighStep t c).1.recipe c.setpointC)
          c.req) weighed
        exact aimed
      · exact .stays weighed
  · simp only [active, Bool.not_false, if_true, Bool.false_eq_true, false_and, if_false]
    exact .stays rfl

theorem relayOf_errorFan :
    relayOf (errorFan t c) = relayOf c ∨
      relayOf (errorFan t c) = { relayOf c with auger := false, igniter := false } := by
  have stopped (c : Control) :
      relayOf (stopErrorFan c) = { relayOf c with auger := false, igniter := false } := rfl
  have expired : relayOf (expireErrorFan t c) = relayOf c ∨
      relayOf (expireErrorFan t c) = { relayOf c with auger := false, igniter := false } := by
    unfold expireErrorFan
    split
    · exact Or.inr (stopped c)
    · exact Or.inl rfl
  unfold errorFan stopFeedingFire
  split
  · right
    rw [stopped]
    rcases expired with same | same <;> rw [same]
  · exact expired

theorem handoverMode_isRunning : (handoverMode c).isRunning := by
  unfold handoverMode
  extract_lets next
  split
  · assumption
  · rfl

theorem passes_handOver (lighting : c.mode.isLighting) :
    Passes withoutCourse t
      (c.aiming (if handoverMode c = .hold then holdAim c else c.setpointC) c.req)
      (some (.plain (handoverMode c))) (handOver t c) := by
  have notPrime : handoverMode c ≠ .prime := by
    intro same
    have running := handoverMode_isRunning c
    simp [same, Mode.isRunning] at running
  unfold handOver
  extract_lets nm ended aimed
  refine .handsOver lighting rfl ?_ notPrime
  change withoutCourse aimed = _
  unfold aimed
  split
  · rw [defaultSetpoint_eq]
    rfl
  · rfl

theorem passes_timedTransition (notError : c.mode ≠ .error) :
    Passes withoutCourse t (c.aiming (timedAim c) c.req) (timedEntry t c)
      (timedTransition t c) := by
  unfold timedTransition timedEntry timedAim
  cases mode : c.mode with
  | startup | reignite =>
      simp only [Mode.isLighting, true_and]
      by_cases done : startupDone c = true
      · rw [if_pos done, if_pos done]
        simp only [done, true_and]
        exact passes_handOver t c (by rw [mode]; rfl)
      · rw [if_neg done, if_neg done, if_neg (by tauto)]
        exact .stays rfl
  | shutdown =>
      simp only [Mode.isLighting, Bool.false_eq_true, false_and, if_false]
      split
      · exact .enters rfl rfl rfl
      · exact .stays rfl
  | prime =>
      simp only [Mode.isLighting, Bool.false_eq_true, false_and, if_false]
      split
      · unfold endPrime
        split
        · exact .enters rfl rfl rfl
        · exact .enters rfl rfl rfl
      · exact .stays rfl
  | error => exact absurd mode notError
  | _ => exact .stays rfl

theorem relayOf_timedTransition_error (faulted : c.mode = .error) :
    relayOf (timedTransition t c) = relayOf (errorFan t c) := by
  unfold timedTransition
  rw [faulted]

theorem passes_shutdownInput :
    Passes withoutCourse t c (inputEntry t c) (shutdownInput t c) := by
  unfold shutdownInput inputEntry
  split
  · split
    · exact .enters rfl rfl rfl
    · exact .enters rfl rfl rfl
  · exact .stays rfl

end Later

end PiFire
