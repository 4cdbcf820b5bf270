import PiFire.Relay.Still

/-!
# The cook behind the outputs

The relays, the fan's duty and what keeps them (the overrides, the caps, the
stamps of the fan) are what a hand on the outputs can reach. The cook is
everything else: the mode, the set point, the cycle, the supervision, the recipe
and the timers. Every phase of a step acts on the cook by the cook alone, so a
run with manual commands cooks as the run without them.
-/

namespace PiFire

open Transition

/-- What is left of the state without the outputs and what keeps them. -/
def cookOf (c : Control) : Control :=
  { c with
    outputs := outputsAllOff
    manualUntil := .none
    augerOnSince := 0
    augerTotalOnS := 0
    augerRestUntil := 0
    fanToggleT := 0
    fanUpdateT := 0
    fanRamping := false
    rampEndT := 0
    dutyCycle := 0
    checkpoint := .init
    safety := { c.safety with
      proving := false, proveUntil := 0, igniterOnSince := 0, igniterLockedOut := false } }

/-- A judgement, with what is left of the state it leaves. -/
def judgedCook {α : Type} (judged : Control × α) : Control × α :=
  (cookOf judged.1, judged.2)

/-- It acts on the cook by the cook alone. -/
abbrev ByCook (f : Control → Control) : Prop :=
  Respects cookOf cookOf f

/-- It judges, and leaves of the cook, by the cook alone. -/
abbrev JudgesCook {α : Type} (f : Control → Control × α) : Prop :=
  Respects cookOf judgedCook f

theorem cookOf_cookOf (c : Control) : cookOf (cookOf c) = cookOf c := rfl

theorem byCook_of_blind {f : Control → Control} (blind : ∀ c, cookOf (f c) = cookOf c) :
    ByCook f :=
  respects_of_blind cookOf_cookOf blind

theorem JudgesCook.parts {α : Type} {f : Control → Control × α} (judges : JudgesCook f)
    (c : Control) : cookOf (f (cookOf c)).1 = cookOf (f c).1 ∧ (f (cookOf c)).2 = (f c).2 :=
  Prod.ext_iff.mp (judges c)

section Cook

variable (t : Tick) (c : Control)

@[simp]
theorem cookOf_mode : (cookOf c).mode = c.mode := rfl

@[simp]
theorem cookOf_validPit : (cookOf c).validPit = c.validPit := rfl

@[simp]
theorem cookOf_recipe : (cookOf c).recipe = c.recipe := rfl

@[simp]
theorem cookOf_setOutput (o : Output) (on : Bool) :
    cookOf (setOutput o on c) = cookOf c := rfl

@[simp]
theorem cookOf_setFanPct (pct : ℤ) : cookOf (setFanPct pct c) = cookOf c := rfl

@[simp]
theorem cookOf_fanOn (pct : ℤ) : cookOf (fanOn pct c) = cookOf c := by
  have same := congrArg cookOf (withoutFan_fanOn c pct)
  exact same

/-! ## Entering a mode -/

@[simp]
theorem cookOf_smokeCycle : cookOf (smokeCycle t c) = smokeCycle t (cookOf c) := by
  unfold smokeCycle
  extract_lets times learned times' learned'
  have same : learned' = learned := rfl
  rw [same]
  cases learned <;> rfl

theorem byCook_smokeCycle : ByCook (smokeCycle t) := by
  intro c
  rw [cookOf_smokeCycle, cookOf_smokeCycle]
  rfl

theorem cookOf_autotuneFinish : cookOf (autotuneFinish c) = autotuneFinish (cookOf c) := rfl

theorem byCook_onStartupEnter : ByCook (onStartupEnter t) := fun _ => rfl

theorem byCook_onRunEnter (prev : Mode) : ByCook (onRunEnter t prev) := fun _ => rfl

theorem byCook_leaveMode (m : Mode) : ByCook (leaveMode t m) := by
  intro c
  have quiet :
      (if (cookOf c).autotune.active then autotuneFinish (cookOf c) else cookOf c) =
        cookOf (if c.autotune.active then autotuneFinish c else c) := by
    rw [apply_ite cookOf, cookOf_autotuneFinish]
    rfl
  unfold leaveMode
  rw [quiet]
  rfl

theorem byCook_setupStop : ByCook setupStop := fun _ => rfl

theorem byCook_setupPrime : ByCook (setupPrime t) := by
  intro c
  have ignites : primeIgnites (cookOf c) = primeIgnites c := rfl
  unfold setupPrime
  rw [ignites]
  simp only [cookOf_setOutput]
  split <;> rfl

theorem byCook_beginCook : ByCook (beginCook t) := fun _ => rfl

theorem byCook_setupLight : ByCook (setupLight t) := by
  intro c
  simp only [setupLight, cookOf_setOutput]
  apply (byCook_smokeCycle t).congr
  apply (byCook_onStartupEnter t).congr
  have selected : ByCook selectSmartstartProfile := fun _ => rfl
  apply selected.congr
  rw [cookOf_setOutput, cookOf_fanOn, cookOf_setOutput, cookOf_setOutput, cookOf_fanOn,
    cookOf_setOutput]
  rfl

theorem byCook_setupSmoke (prev : Mode) : ByCook (setupSmoke t prev) := by
  intro c
  simp only [setupSmoke, cookOf_setOutput]
  apply (byCook_smokeCycle t).congr
  rw [cookOf_fanOn, cookOf_fanOn, cookOf_setOutput, cookOf_setOutput]
  exact byCook_onRunEnter t prev c

theorem byCook_setupHold (prev : Mode) : ByCook (setupHold t prev) := by
  intro c
  have applied (cycle : Cycle) : ByCook (applyCycle cycle) := fun _ => rfl
  simp only [setupHold, cookOf_setOutput]
  apply (applied _).congr
  rw [cookOf_fanOn, cookOf_fanOn, cookOf_setOutput, cookOf_setOutput]
  exact byCook_onRunEnter t prev c

theorem cookOf_setupShutdown : cookOf (setupShutdown c) = cookOf c := by
  rw [setupShutdown, cookOf_fanOn, cookOf_setOutput]

theorem byCook_setupError : ByCook (setupError t) := by
  intro c
  have blown (c : Control) (fanUntil : ℚ) :
      cookOf (if fanUntil > t.now then fanOn 100 (setOutput .power true c) else allOff c) =
        cookOf c := by
    split
    · rw [cookOf_fanOn, cookOf_setOutput]
    · rfl
  unfold setupError
  extract_lets
  rw [blown, blown]
  rfl

theorem byCook_enterMode (m : Mode) : ByCook (enterMode t m) := by
  intro c
  have left := byCook_leaveMode t m c
  cases m with
  | stop => exact byCook_setupStop.congr left
  | monitor | manual => exact left
  | prime => exact (byCook_setupPrime t).congr left
  | startup => exact (byCook_setupLight t).congr ((byCook_beginCook t).congr left)
  | reignite => exact (byCook_setupLight t).congr left
  | smoke => exact (byCook_setupSmoke t c.mode).congr left
  | hold => exact (byCook_setupHold t c.mode).congr left
  | shutdown =>
      simp only [enterMode, cookOf_setupShutdown]
      exact left
  | error => exact (byCook_setupError t).congr left

/-! ## The recipe runner -/

theorem byCook_switchForStep (stepMode : Mode) :
    ByCook (switchForStep t stepMode) := by
  intro c
  cases stepMode with
  | startup =>
      simp only [switchForStep]
      exact view_ite Iff.rfl rfl ((byCook_enterMode t .startup).congr rfl)
  | smoke | hold =>
      simp only [switchForStep]
      refine view_ite Iff.rfl ((byCook_enterMode t .startup).congr rfl) ?_
      refine view_ite Iff.rfl rfl ?_
      exact view_ite Iff.rfl ((byCook_enterMode t _).congr rfl) (view_ite Iff.rfl rfl rfl)
  | shutdown => exact byCook_enterMode t .shutdown c
  | stop => exact byCook_enterMode t .stop c
  | _ => rfl

theorem byCook_startStep : ByCook (startStep t) := by
  intro c
  exact (byCook_switchForStep t c.recipe.current.mode).congr rfl

theorem byCook_recipeBeginStep : ByCook (recipeBeginStep t) := by
  intro c
  simp only [recipeBeginStep]
  exact view_ite Iff.rfl rfl ((byCook_startStep t).congr rfl)

theorem byCook_recipeAdvance : ByCook (recipeAdvance t) := by
  intro c
  simp only [recipeAdvance]
  exact view_ite Iff.rfl rfl ((byCook_recipeBeginStep t).congr rfl)

theorem byCook_recipeFinishNow : ByCook (recipeFinishNow t) := by
  intro c
  simp only [recipeFinishNow, cookOf_recipe]
  cases finishStep c.recipe with
  | none => exact (byCook_enterMode t .shutdown).congr rfl
  | some fin => exact (byCook_recipeBeginStep t).congr rfl

/-! ## Requests and commands -/

theorem byCook_clearForStop : ByCook clearForStop := by
  intro c
  simp only [clearForStop]
  exact view_ite Iff.rfl rfl rfl

theorem byCook_defaultSetpoint : ByCook defaultSetpoint := by
  intro c
  exact view_ite Iff.rfl rfl rfl

theorem byCook_requestStartup (sp : ℚ) : ByCook (requestStartup t sp) := by
  intro c
  simp only [requestStartup]
  exact view_ite Iff.rfl ((byCook_enterMode t .prime).congr rfl)
    ((byCook_enterMode t .startup).congr rfl)

theorem byCook_requestRunning (m : Mode) : ByCook (requestRunning t m) := by
  intro c
  simp only [requestRunning]
  refine view_ite Iff.rfl ((byCook_enterMode t .startup).congr rfl) ?_
  refine view_ite Iff.rfl rfl ?_
  refine view_ite Iff.rfl rfl ?_
  exact view_ite Iff.rfl rfl (byCook_enterMode t m c)

theorem byCook_carryOut (r : Request) : ByCook (carryOut t r) := by
  intro c
  obtain ⟨m, sp⟩ := r
  cases m with
  | shutdown =>
      exact view_ite Iff.rfl (byCook_recipeFinishNow t c) (byCook_enterMode t .shutdown c)
  | stop => exact (byCook_enterMode t .stop).congr (byCook_clearForStop c)
  | startup => exact byCook_requestStartup t sp c
  | hold => exact (byCook_requestRunning t .hold).congr (byCook_defaultSetpoint c)
  | smoke => exact byCook_requestRunning t .smoke c
  | monitor | prime | reignite | manual | error => exact byCook_enterMode t _ c

theorem byCook_applyRequest : ByCook (applyRequest t) := by
  intro c
  have req : (cookOf c).req = c.req := rfl
  simp only [applyRequest, req]
  cases c.req with
  | none => rfl
  | some r => exact view_ite Iff.rfl rfl ((byCook_carryOut t r).congr rfl)

theorem byCook_controllerLoad (id : String) : ByCook (controllerLoad t id) := by
  intro c
  rfl

theorem byCook_controlReloadSettings : ByCook (controlReloadSettings t) := by
  intro c
  simp only [controlReloadSettings]
  exact view_ite Iff.rfl ((byCook_controllerLoad t _).congr rfl) rfl

theorem byCook_autotuneStart : ByCook (autotuneStart t) := by
  intro c
  have ready : autotuneReady (cookOf c) = autotuneReady c := rfl
  have aim : (cookOf c).setpointC = c.setpointC := rfl
  simp only [autotuneStart, ready, aim]
  split
  · cases t.services.relayStart c.setpointC with
    | none => rfl
    | some start => rfl
  · rfl

theorem cookOf_manualSwitch (until_ : ℚ) (o : Output) (on : Bool) :
    cookOf (manualSwitch t until_ o on c) = cookOf c := by
  simp only [manualSwitch]
  split <;> rfl

theorem cookOf_manualOutput (str : String) (on : Bool) (num : ℚ) :
    cookOf (manualOutput t str on num c) = cookOf c := by
  simp only [manualOutput]
  split
  · split
    · rfl
    · split
      · exact cookOf_manualSwitch t c _ _ on
      · rfl
  · rfl

theorem byCook_lidToggle : ByCook (lidToggle t) := by
  intro c
  simp only [lidToggle]
  refine view_ite Iff.rfl ?_ rfl
  refine view_ite Iff.rfl ?_ ?_
  · rw [cookOf_fanOn, cookOf_fanOn]
    rfl
  · have paused : ByCook fun d =>
        { d with cycle := cycleStop c.cycle, targetReached := false } := fun _ => rfl
    apply paused.congr
    rw [cookOf_fanOn, cookOf_fanOn]
    rfl

theorem byCook_followSetpoint : ByCook followSetpoint := by
  intro c
  simp only [followSetpoint, cookOf_mode]
  split <;> rfl

theorem byCook_commandSetpoint (num : ℚ) : ByCook (commandSetpoint t num) := by
  intro c
  simp only [commandSetpoint]
  exact view_ite Iff.rfl (byCook_followSetpoint.congr rfl) rfl

theorem byCook_forceHandover (m : Mode) (num : ℚ) : ByCook (forceHandover t m num) := by
  intro c
  simp only [forceHandover]
  exact (byCook_enterMode t m).congr rfl

theorem byCook_commandMode (m : Mode) (num : ℚ) (flag : Bool) :
    ByCook (commandMode t m num flag) := by
  intro c
  simp only [commandMode]
  exact view_ite Iff.rfl (byCook_forceHandover t m num c) rfl

theorem byCook_commandPrime (num : ℚ) (str : String) : ByCook (commandPrime t num str) := by
  intro c
  simp only [commandPrime]
  exact view_ite Iff.rfl ((byCook_enterMode t .prime).congr rfl) rfl

theorem byCook_commandRecipeStart (num : ℚ) : ByCook (commandRecipeStart t num) := by
  intro c
  simp only [commandRecipeStart]
  refine view_ite Iff.rfl rfl ?_
  exact view_ite Iff.rfl ((byCook_recipeBeginStep t).congr rfl) rfl

theorem byCook_commandRecipeNext : ByCook commandRecipeNext := by
  intro c
  simp only [commandRecipeNext]
  exact view_ite Iff.rfl rfl rfl

theorem byCook_commandRecipeSkip : ByCook (commandRecipeSkip t) := by
  intro c
  exact view_ite Iff.rfl (byCook_recipeAdvance t c) rfl

theorem byCook_commandRecipeBack : ByCook (commandRecipeBack t) := by
  intro c
  exact view_ite Iff.rfl ((byCook_recipeBeginStep t).congr rfl) rfl

theorem byCook_commandRecipeFlag (num num2 : ℚ) : ByCook (commandRecipeFlag num num2) := by
  intro c
  simp only [commandRecipeFlag]
  exact view_ite Iff.rfl rfl rfl

theorem byCook_commandStop : ByCook (commandStop t) := by
  intro c
  have cleared : ByCook clearAll := fun c => rfl
  exact cleared.congr (byCook_enterMode t .stop c)

theorem cookOf_dutyCycle (num : ℚ) : cookOf (handleCmd t c (.dutyCycle num)) = cookOf c := by
  simp only [handleCmd]
  split <;> rfl

theorem byCook_handleCmd (cmd : Cmd) : ByCook fun c => handleCmd t c cmd := by
  intro c
  cases cmd with
  | stop => exact byCook_commandStop t c
  | mode m num flag => exact byCook_commandMode t m num flag c
  | setpoint num => exact byCook_commandSetpoint t num c
  | dutyCycle num => exact (cookOf_dutyCycle t _ num).trans (cookOf_dutyCycle t c num).symm
  | manualOutput str on num =>
      exact (cookOf_manualOutput t _ str on num).trans (cookOf_manualOutput t c str on num).symm
  | lidToggle => exact byCook_lidToggle t c
  | prime num str => exact byCook_commandPrime t num str c
  | settingsChanged => exact byCook_controlReloadSettings t c
  | controllerChanged => exact (byCook_controllerLoad t _).congr rfl
  | clearError => exact view_ite Iff.rfl (byCook_enterMode t .stop c) rfl
  | recipeStart num => exact byCook_commandRecipeStart t num c
  | recipeNext => exact byCook_commandRecipeNext c
  | recipeSkip => exact byCook_commandRecipeSkip t c
  | recipeBack => exact byCook_commandRecipeBack t c
  | recipeFlag num num2 => exact byCook_commandRecipeFlag num num2 c
  | recipeStop => exact view_ite Iff.rfl rfl rfl
  | autotuneStart => exact byCook_autotuneStart t c
  | autotuneStop => exact view_ite Iff.rfl rfl rfl
  | _ => rfl

/-! ## Readings, targets and the recipe -/

theorem byCook_beginStep : ByCook (beginStep t) := by
  intro c
  exact view_ite Iff.rfl rfl rfl

theorem byCook_readAmbient : ByCook (readAmbient t) := by
  intro c
  simp only [readAmbient]
  cases outdoorReading t with
  | some ambient => rfl
  | none => exact view_ite Iff.rfl rfl rfl

theorem byCook_readSensors : ByCook (readSensors t) := by
  intro c
  simp only [readSensors]
  apply (byCook_readAmbient t).congr
  cases t.sensors.pit with
  | some pit => rfl
  | none => rfl

theorem byCook_noticeIdleHeat : ByCook noticeIdleHeat := by
  intro c
  simp only [noticeIdleHeat]
  exact view_ite Iff.rfl rfl rfl

theorem byCook_clampSetpoint : ByCook clampSetpoint := by
  intro c
  simp only [clampSetpoint]
  exact view_ite Iff.rfl rfl rfl

theorem byCook_afterAction (act : ℤ) : ByCook (afterAction t act) := by
  intro c
  simp only [afterAction]
  refine view_ite Iff.rfl ?_ ?_
  · exact view_ite Iff.rfl (byCook_recipeFinishNow t c) (byCook_enterMode t .shutdown c)
  · refine view_ite Iff.rfl ?_ rfl
    exact view_ite Iff.rfl rfl ((byCook_enterMode t .hold).congr rfl)

theorem byCook_runNotify : ByCook (runNotify t) := by
  intro c
  have ticked : tickNotify t (cookOf c) = tickNotify t c := rfl
  simp only [runNotify, ticked]
  exact (byCook_afterAction t _).congr rfl

theorem byCook_recipeAftercare : ByCook recipeAftercare := by
  intro c
  exact view_ite Iff.rfl rfl rfl

theorem byCook_weighEnds : JudgesCook (weighEnds t) := by
  intro c
  have eval (c : Control) (b : Bool) : evalEnds t b (cookOf c) = evalEnds t b c := rfl
  have begun : beginEval t (cookOf c) = cookOf (beginEval t c) := rfl
  simp only [weighEnds, begun, eval]
  exact view_ite Iff.rfl rfl (view_ite Iff.rfl rfl rfl)

theorem byCook_noticeLid : ByCook noticeLid := by
  intro c
  exact view_ite Iff.rfl rfl rfl

theorem byCook_endOrPause : JudgesCook endOrPause := by
  intro c
  exact view_ite Iff.rfl rfl rfl

theorem byCook_weighStep : JudgesCook (weighStep t) := by
  intro c
  have noticed := byCook_noticeLid c
  have bare (c d : Control) (same : cookOf c = cookOf d) :
      judgedCook (c, false) = judgedCook (d, false) := by
    simp only [judgedCook, same]
  simp only [weighStep]
  refine view_ite Iff.rfl ?_ ?_
  · exact view_ite Iff.rfl (byCook_endOrPause.congr noticed) (bare _ _ noticed)
  · refine view_ite Iff.rfl (bare _ _ noticed) ?_
    refine view_ite Iff.rfl (byCook_endOrPause.congr noticed) ?_
    exact view_ite Iff.rfl (bare _ _ noticed) ((byCook_weighEnds t).congr noticed)

theorem byCook_runRecipe : ByCook (runRecipe t) := by
  intro c
  obtain ⟨left, ended⟩ := JudgesCook.parts (byCook_weighStep t) c
  simp only [runRecipe, ended]
  refine view_ite Iff.rfl rfl (view_ite Iff.rfl rfl ?_)
  exact view_ite Iff.rfl ((byCook_recipeAdvance t).congr left) left

/-! ## Supervision -/

theorem cookOf_capIgniter : cookOf (capIgniter t c) = cookOf c := by
  unfold capIgniter
  split
  · split
    · rfl
    · split
      · rfl
      · split <;> rfl
  · rfl

theorem byCook_judgeProbe : JudgesCook (judgeProbe t) := by
  intro c
  simp only [judgeProbe]
  exact view_ite Iff.rfl rfl (view_ite Iff.rfl rfl rfl)

theorem byCook_judgeLight : JudgesCook (judgeLight t) := by
  intro c
  have judged : (if (cookOf c).safety.ssProven then cookOf c
        else proveByHold t ((cookOf c).safety.filtC.getD 0)
          (proveByRise t ((cookOf c).safety.filtC.getD 0) (cookOf c))) = 
      cookOf (if c.safety.ssProven then c
        else proveByHold t (c.safety.filtC.getD 0) (proveByRise t (c.safety.filtC.getD 0) c)) := by
    rw [apply_ite cookOf]
    rfl
  simp only [judgeLight]
  rw [judged]
  exact view_ite Iff.rfl rfl rfl

theorem byCook_flameout (fault : Fault) : JudgesCook (flameout fault) := by
  intro c
  simp only [flameout]
  exact view_ite Iff.rfl rfl rfl

theorem byCook_endCoast (pit : ℚ) : ByCook (endCoast t pit) := by
  intro c
  simp only [endCoast]
  exact view_ite Iff.rfl rfl rfl

theorem cookOf_proveFire : cookOf (proveFire t c) = cookOf c := by
  unfold proveFire
  split
  · split <;> rfl
  · rfl

theorem byCook_timeClimb (pit : ℚ) : ByCook (timeClimb t pit) := by
  intro c
  exact view_ite Iff.rfl rfl rfl

theorem byCook_superviseFire (pit : ℚ) : JudgesCook (superviseFire t pit) := by
  intro c
  have quiet {c d : Control} (same : cookOf c = cookOf d) :
      judgedCook (proveFire t (endCoast t pit c), Action.none) =
        judgedCook (proveFire t (endCoast t pit d), Action.none) := by
    simp only [judgedCook, cookOf_proveFire]
    rw [(byCook_endCoast t pit).congr same]
  simp only [superviseFire]
  refine view_ite Iff.rfl (quiet rfl) (view_ite Iff.rfl ?_ (view_ite Iff.rfl rfl ?_))
  · exact (byCook_flameout _).congr rfl
  · exact quiet ((byCook_timeClimb t pit).congr rfl)

theorem byCook_judgeFiring (pit : ℚ) : JudgesCook (judgeFiring t pit) := by
  intro c
  simp only [judgeFiring]
  refine view_ite Iff.rfl ?_ ((byCook_superviseFire t pit).congr rfl)
  exact view_ite Iff.rfl ((byCook_judgeLight t).congr rfl) rfl

theorem byCook_safetyTick : JudgesCook (safetyTick t) := by
  intro c
  have capped : cookOf (capIgniter t (cookOf c)) = cookOf (capIgniter t c) := by
    rw [cookOf_capIgniter, cookOf_capIgniter]
    rfl
  simp only [safetyTick, cookOf_mode, cookOf_validPit]
  refine view_ite Iff.rfl rfl (view_ite Iff.rfl ?_ ?_)
  · cases c.validPit with
    | none => exact (byCook_judgeProbe t).congr capped
    | some pit => exact (byCook_judgeFiring t pit).congr capped
  · have idle : ByCook judgeIdle := fun _ => rfl
    simp only [judgedCook]
    rw [idle.congr capped]

theorem byCook_supervise : ByCook (supervise t) := by
  intro c
  obtain ⟨left, action⟩ := JudgesCook.parts (byCook_safetyTick t) c
  simp only [supervise, carryAction, action]
  cases (safetyTick t c).2 with
  | none => exact left
  | error => exact (byCook_enterMode t .error).congr left
  | reignite => exact (byCook_enterMode t .reignite).congr left

/-! ## Lid -/

theorem byCook_lidWatch : JudgesCook (lidWatch t) := by
  intro c
  have sampled (pit : ℚ) : sampleLid t pit (cookOf c) = cookOf (sampleLid t pit c) := by
    unfold sampleLid
    rw [apply_ite cookOf]
    rfl
  simp only [lidWatch, cookOf_validPit]
  cases c.validPit with
  | none => rfl
  | some pit =>
      simp only [sampled]
      rfl

theorem byCook_trackLidEvent (dropped : Bool) : ByCook (trackLidEvent t dropped) := by
  intro c
  have begun : (if dropped ∧ (cookOf c).lidEvent = false then
        { cookOf c with lidEvent := true, lidEventT := t.now, aimSince := t.now } else cookOf c) =
      cookOf (if dropped ∧ c.lidEvent = false then
        { c with lidEvent := true, lidEventT := t.now, aimSince := t.now } else c) := by
    rw [apply_ite cookOf]
    rfl
  simp only [trackLidEvent]
  rw [begun]
  exact view_ite Iff.rfl rfl rfl

theorem byCook_openLid : ByCook (openLid t) := by
  intro c
  have stopped : ByCook fun d => { d with cycle := cycleStop c.cycle } := fun _ => rfl
  simp only [openLid]
  apply stopped.congr
  rw [cookOf_fanOn, cookOf_fanOn]
  rfl

theorem byCook_closeLid : ByCook (closeLid t) := by
  intro c
  have begun : ByCook fun d => { d with cycle := cycleBegin c.ccfg t.now (some c.cfg.uMin) } :=
    fun _ => rfl
  simp only [closeLid]
  refine view_ite Iff.rfl (view_ite Iff.rfl ?_ rfl) rfl
  refine view_ite Iff.rfl ?_ ?_
  · rw [cookOf_fanOn, cookOf_fanOn]
    rfl
  · apply begun.congr
    rw [cookOf_fanOn, cookOf_fanOn]
    rfl

theorem lidOpens_cook (dropped : Bool) {c d : Control} (same : cookOf c = cookOf d) :
    lidOpens dropped c = lidOpens dropped d := by
  change lidOpens dropped (cookOf c) = lidOpens dropped (cookOf d)
  rw [same]

theorem byCook_watchLid : ByCook (watchLid t) := by
  intro c
  let arrive (c : Control) : Control :=
    if c.mode = .hold ∧ readsAtLeast c.pitC c.setpointC then { c with targetReached := true } else c
  have arrived : ByCook arrive := fun _ => view_ite Iff.rfl rfl rfl
  have watched := (byCook_lidWatch t).congr (arrived c)
  obtain ⟨seen, dropped⟩ := Prod.ext_iff.mp watched
  simp only [judgedCook] at seen dropped
  have tracked := (byCook_trackLidEvent t (lidWatch t (arrive c)).2).congr seen
  have folded (c : Control) : watchLid t c =
      if c.mode.isRunning then
        let tracked := trackLidEvent t (lidWatch t (arrive c)).2 (lidWatch t (arrive c)).1
        closeLid t (if lidOpens (lidWatch t (arrive c)).2 tracked then openLid t tracked
          else tracked)
      else c := rfl
  rw [folded, folded, dropped]
  refine view_ite Iff.rfl ((byCook_closeLid t).congr ?_) rfl
  exact view_ite (by rw [lidOpens_cook _ tracked]) ((byCook_openLid t).congr tracked) tracked

/-! ## The auger cycle and the fan -/

theorem byCook_askController (id : String) : JudgesCook (askController t id) := by
  intro c
  have shown : t.services.controllerUpdate id (ctrlIn t (holdFeed t (cookOf c)) (cookOf c)) =
      t.services.controllerUpdate id (ctrlIn t (holdFeed t c) c) := rfl
  simp only [askController, shown]
  cases usableFeed (t.services.controllerUpdate id (ctrlIn t (holdFeed t c) c)) with
  | some u => rfl
  | none =>
      have fault : ByCook (controllerFault t id) := by
        intro c
        simp only [controllerFault]
        exact view_ite Iff.rfl ((byCook_controllerLoad t "pid").congr rfl) rfl
      simp only [judgedCook, fault c]
      rfl

theorem byCook_autotuneStep : JudgesCook (autotuneStep t) := by
  intro c
  have shown :
      t.services.relayStep (ctrlIn t 0 (cookOf c)) = t.services.relayStep (ctrlIn t 0 c) := rfl
  simp only [autotuneStep, shown, judgedCook]
  refine Prod.ext ?_ rfl
  change cookOf (ite _ _ _) = cookOf (ite _ _ _)
  exact view_ite Iff.rfl rfl rfl

theorem byCook_holdRatio : JudgesCook (holdRatio t) := by
  intro c
  have loaded : (cookOf c).controller = c.controller := rfl
  simp only [holdRatio, loaded]
  cases c.controller with
  | none => rfl
  | some id =>
      refine view_ite Iff.rfl rfl (view_ite Iff.rfl ?_ ?_)
      · exact byCook_autotuneStep t c
      · exact byCook_askController t id c

theorem byCook_runHoldCycle : ByCook (runHoldCycle t) := by
  intro c
  obtain ⟨left, feed⟩ := JudgesCook.parts (byCook_holdRatio t) c
  let began (d : Control) : Control := 
    { d with
      uRaw := (holdRatio t c).2
      cycle := cycleBegin d.ccfg t.now (some (holdRatio t c).2)
      uApplied := (cycleBegin d.ccfg t.now (some (holdRatio t c).2)).uApplied
      saturated := (cycleBegin d.ccfg t.now (some (holdRatio t c).2)).saturated
      fanPidActive :=
        c.cfg.fanPid && !c.pwmControl && c.targetReached && (holdRatio t c).2 < c.cfg.uMin }
  have begun : ByCook began := fun _ => rfl
  simp only [runHoldCycle, feed]
  exact view_ite Iff.rfl (begun.congr left) rfl

theorem byCook_nextCycle : ByCook (nextCycle t) := by
  intro c
  simp only [nextCycle]
  exact view_ite Iff.rfl (byCook_runHoldCycle t c) (view_ite Iff.rfl (byCook_smokeCycle t c) rfl)

theorem cookOf_followCycle : cookOf (followCycle t c) = cookOf c := by
  simp only [followCycle]
  split
  · split
    · rfl
    · split <;> rfl
  · rfl

theorem cookOf_parkAuger : cookOf (parkAuger t c) = cookOf c := by
  unfold parkAuger
  split <;> rfl

theorem byCook_driveCycle : ByCook (driveCycle t) := by
  intro c
  simp only [driveCycle]
  refine view_ite Iff.rfl ?_ ?_
  · rw [cookOf_followCycle, cookOf_followCycle]
    exact byCook_nextCycle t c
  · rw [cookOf_parkAuger, cookOf_parkAuger]
    rfl

theorem cookOf_restAuger : cookOf (restAuger t c) = cookOf c := by
  unfold restAuger
  split <;> rfl

theorem cookOf_capAuger : cookOf (capAuger t c) = cookOf c := by
  simp only [capAuger]
  split <;> rfl

theorem byCook_feedAuger : ByCook (feedAuger t) := by
  intro c
  simp only [feedAuger, cookOf_capAuger, cookOf_restAuger]
  exact byCook_driveCycle t c

theorem cookOf_choosePwmDuty : cookOf (choosePwmDuty t c) = cookOf c := by
  unfold choosePwmDuty
  split <;> rfl

theorem cookOf_runFan : cookOf (runFan t c) = cookOf c := by
  have same := congrArg cookOf (withoutFan_runFan t c)
  exact same

theorem cookOf_expireManual : cookOf (expireManual t c) = cookOf c := by
  unfold expireManual
  split <;> rfl

theorem byCook_handOver : ByCook (handOver t) := by
  intro c
  have ended (c : Control) : cookOf (onStartupExit t (cookOf c)) = cookOf (onStartupExit t c) := rfl
  have plus : ByCook fun d => { d with sPlus := c.sPlus || c.cfg.splusDefault } := fun _ => rfl
  simp only [handOver]
  apply (byCook_enterMode t (handoverMode c)).congr
  apply plus.congr
  exact view_ite Iff.rfl (byCook_defaultSetpoint.congr (ended c)) (ended c)

theorem byCook_endPrime : ByCook (endPrime t) := by
  intro c
  exact view_ite Iff.rfl ((byCook_enterMode t .startup).congr rfl) (byCook_enterMode t .stop c)

theorem byCook_errorFan : ByCook (errorFan t) := by
  intro c
  have expired : cookOf (expireErrorFan t (cookOf c)) = cookOf (expireErrorFan t c) :=
    view_ite Iff.rfl rfl rfl
  have fed : ByCook stopFeedingFire := by
    intro c
    exact view_ite Iff.rfl rfl rfl
  exact fed.congr expired

theorem byCook_timedTransition : ByCook (timedTransition t) := by
  intro c
  simp only [timedTransition, cookOf_mode]
  cases c.mode with
  | startup | reignite => exact view_ite Iff.rfl (byCook_handOver t c) rfl
  | shutdown =>
      refine view_ite Iff.rfl ?_ rfl
      have off : ByCook fun d =>
          { d with powerOffRequested := c.powerOffRequested || c.cfg.autoPowerOff } := fun _ => rfl
      exact off.congr (byCook_enterMode t .stop c)
  | prime => exact view_ite Iff.rfl (byCook_endPrime t c) rfl
  | error => exact byCook_errorFan t c
  | stop | monitor | smoke | hold | manual => rfl

theorem byCook_shutdownInput : ByCook (shutdownInput t) := by
  intro c
  exact view_ite Iff.rfl (byCook_enterMode t _ c) rfl

/-! ## The phases and the step -/

theorem byCook_act (p : Phase) : ByCook (p.act t) := by
  cases p with
  | begin => exact byCook_beginStep t
  | command cmd => exact byCook_handleCmd t cmd
  | read => exact byCook_readSensors t
  | request => exact byCook_applyRequest t
  | idleHeat => exact byCook_noticeIdleHeat
  | clampSp => exact byCook_clampSetpoint
  | notify => exact byCook_runNotify t
  | recipe => exact byCook_runRecipe t
  | aftercare => exact byCook_recipeAftercare
  | supervise => exact byCook_supervise t
  | lid => exact byCook_watchLid t
  | feed => exact byCook_feedAuger t
  | fan => exact byCook_of_blind (cookOf_runFan t)
  | expire => exact byCook_of_blind (cookOf_expireManual t)
  | timed => exact byCook_timedTransition t
  | input => exact byCook_shutdownInput t
  | checkpoint => exact fun _ => rfl
  | close => exact fun _ => rfl

end Cook

end PiFire
