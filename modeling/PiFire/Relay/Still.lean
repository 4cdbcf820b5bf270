import PiFire.Control.Life

/-!
# What the quiet phases leave alone

Reading the probes, watching the lid, feeding the auger and driving the fan work
on the outputs and their clocks. They leave the mode, the limits, the set point,
the request, the recipe, the targets and nearly all of the supervision alone.
-/

namespace PiFire

/-- What the supervision remembers, without the faults it has reported and the
fan of an error. -/
def Safety.stilled (s : Safety) : Safety :=
  { s with ctrlFaultCount := 0, errorFanUntil := 0, stopOvertempSaid := false, error := none }

/-- What a quiet phase leaves alone. -/
structure Still where
  cfg : Cfg
  mode : Mode
  nextMode : Mode
  checkpoint : Checkpoint
  req : Option Request
  setpointC : ℚ
  sPlus : Bool
  recoveries : ℤ
  safety : Safety
  notify : Notify
  recipe : RecipeRun

/-- The still part of the control state. -/
def stillOf (c : Control) : Still :=
  { cfg := c.cfg
    mode := c.mode
    nextMode := c.nextMode
    checkpoint := c.checkpoint
    req := c.req
    setpointC := c.setpointC
    sPlus := c.sPlus
    recoveries := c.recoveries
    safety := c.safety.stilled
    notify := c.notify
    recipe := c.recipe }

/-- What is left without the readings. -/
def withoutReadings (c : Control) : Control :=
  { c with
    sensors := .none, pitC := none, pitValid := false, ambientC := none
    ambientFromProbe := false, cookMaxPitC := 0 }

/-- What is left without the fan. -/
def withoutFan (c : Control) : Control :=
  { c with
    outputs := { c.outputs with fan := false, fanPct := 0 }, fanToggleT := 0, fanUpdateT := 0
    fanRamping := false, rampEndT := 0, dutyCycle := 0 }

/-- What is left without the feed that is asked for, and who asks for it. -/
def withoutAsking (c : Control) : Control :=
  { c with
    cycle := .idle, uRaw := 0, uApplied := 0, saturated := 0, fanPidActive := false
    controller := none, autotune := { active := false, uCenter := 0, lastLoad := 0 }
    safety := { c.safety with ctrlFaultCount := 0, error := none } }

/-- What is left without the fan, the lid and the cycle an open lid stops. -/
def withoutPause (c : Control) : Control :=
  { withoutFan c with
    cycle := .idle, aimSince := 0, targetReached := false, lidOpen := false, lidOpenUntil := 0
    lidLowC := none, lidEvent := false, lidEventT := 0, lidHist := [], lidHistLast := 0 }

section Left

variable (t : Tick) (c : Control)

theorem withoutReadings_readSensors : withoutReadings (readSensors t c) = withoutReadings c := by
  have ambient (c : Control) : withoutReadings (readAmbient t c) = withoutReadings c := by
    unfold readAmbient
    split
    · rfl
    · extract_lets
      split <;> rfl
  unfold readSensors
  extract_lets read
  rw [ambient]
  unfold read
  split <;> rfl

theorem withoutFan_fanOn (pct : ℤ) : withoutFan (fanOn pct c) = withoutFan c := by
  simp only [fanOn]
  split <;> rfl

theorem withoutFan_runFan : withoutFan (runFan t c) = withoutFan c := by
  have chosen : withoutFan (choosePwmDuty t c) = withoutFan c := by
    unfold choosePwmDuty
    split_ifs <;> rfl
  have modulated (c : Control) : withoutFan (fanPidLogic t c) = withoutFan c := by
    unfold fanPidLogic
    extract_lets
    split_ifs
    · rfl
    · exact withoutFan_fanOn c _
    · rfl
  have toggled (c : Control) : withoutFan (splusToggle t c) = withoutFan c := by
    simp only [splusToggle, splusFanOn]
    split_ifs
    all_goals first | rfl | exact withoutFan_fanOn _ _
  have ramped (c : Control) : withoutFan (rampFan t c) = withoutFan c := by
    simp only [rampFan]
    split_ifs <;> rfl
  have steady (c : Control) : withoutFan (defaultFan c) = withoutFan c := by
    simp only [defaultFan]
    split_ifs
    all_goals first | rfl | exact withoutFan_fanOn _ _
  simp only [runFan, runFanLogic]
  split_ifs
  · rfl
  · rw [modulated, chosen]
  · rw [ramped, toggled, chosen]
  · rw [steady, chosen]
  · rfl

theorem withoutAsking_holdRatio : withoutAsking (holdRatio t c).1 = withoutAsking c := by
  have tuned : withoutAsking (autotuneStep t c).1 = withoutAsking c := by
    simp only [autotuneStep]
    split_ifs <;> rfl
  have asked (id : String) : withoutAsking (askController t id c).1 = withoutAsking c := by
    unfold askController
    split
    · rfl
    · simp only [controllerFault]
      split_ifs <;> rfl
  unfold holdRatio
  split
  · rfl
  · split_ifs
    · rfl
    · exact tuned
    · exact asked _

theorem withoutAsking_nextCycle : withoutAsking (nextCycle t c) = withoutAsking c := by
  unfold nextCycle
  split_ifs
  · unfold runHoldCycle
    split_ifs
    · have ratio := congrArg withoutAsking (withoutAsking_holdRatio t c)
      exact ratio
    · rfl
  · unfold smokeCycle
    extract_lets times learned
    cases learned <;> rfl
  · rfl

theorem withoutPause_fanOn (pct : ℤ) : withoutPause (fanOn pct c) = withoutPause c := by
  have same := congrArg withoutPause (withoutFan_fanOn c pct)
  exact same

theorem withoutPause_lidWatch : withoutPause (lidWatch t c).1 = withoutPause c := by
  unfold lidWatch
  split
  · rfl
  · simp only [sampleLid]
    split_ifs <;> rfl

theorem withoutPause_trackLidEvent (dropped : Bool) :
    withoutPause (trackLidEvent t dropped c) = withoutPause c := by
  simp only [trackLidEvent]
  split_ifs <;> rfl

theorem withoutPause_openLid :
    withoutPause (openLid t c) = withoutPause (setOutput .auger false c) :=
  withoutPause_fanOn (setOutput .auger false { c with
    lidOpen := true, lidOpenUntil := t.now + c.cfg.lidPauseS, lidLowC := c.pitC
    targetReached := false }) _

theorem withoutPause_closeLid : withoutPause (closeLid t c) = withoutPause c := by
  have shut (low : Option ℚ) :
      withoutPause (fanOn c.dutyCycle { c with lidLowC := low, lidOpen := false }) =
        withoutPause c :=
    withoutPause_fanOn _ _
  simp only [closeLid]
  split_ifs
  · exact shut _
  · exact shut _
  all_goals rfl

theorem withoutPause_watchLid :
    withoutPause (watchLid t c) = withoutPause c ∨
      withoutPause (watchLid t c) = withoutPause (setOutput .auger false c) := by
  have parked {c d : Control} (same : withoutPause d = withoutPause c) :
      withoutPause (setOutput .auger false d) = withoutPause (setOutput .auger false c) := by
    have off := congrArg (setOutput .auger false) same
    exact off
  unfold watchLid
  split
  · extract_lets arrived watched tracked
    have same : withoutPause tracked = withoutPause c := by
      unfold tracked
      rw [withoutPause_trackLidEvent, withoutPause_lidWatch]
      unfold arrived
      split <;> rfl
    rw [withoutPause_closeLid]
    split
    · exact Or.inr ((withoutPause_openLid t tracked).trans (parked same))
    · exact Or.inl same
  · exact Or.inl rfl

theorem withoutPause_lidToggle :
    withoutPause (lidToggle t c) = withoutPause c ∨
      withoutPause (lidToggle t c) = withoutPause (setOutput .auger false c) := by
  simp only [lidToggle]
  split_ifs
  · exact Or.inl (withoutPause_fanOn _ _)
  · exact Or.inr (withoutPause_fanOn (setOutput .auger false { c with
      lidOpen := true, lidOpenUntil := t.now + c.cfg.lidPauseS, lidLowC := c.pitC }) _)
  · exact Or.inl rfl

end Left

section Frame

variable (t : Tick) (c : Control)

theorem stillOf_feedAuger : stillOf (feedAuger t c) = stillOf c := by
  have next := congrArg stillOf (withoutAsking_nextCycle t c)
  have follows (c : Control) : stillOf (followCycle t c) = stillOf c := by
    simp only [followCycle]
    split_ifs <;> rfl
  have drives : stillOf (driveCycle t c) = stillOf c := by
    unfold driveCycle
    split
    · exact (follows _).trans next
    · unfold parkAuger
      split <;> rfl
  have rests (c : Control) : stillOf (restAuger t c) = stillOf c := by
    unfold restAuger
    split <;> rfl
  have caps (c : Control) : stillOf (capAuger t c) = stillOf c := by
    unfold capAuger
    split <;> rfl
  rw [feedAuger, caps, rests, drives]

theorem stillOf_errorFan : stillOf (errorFan t c) = stillOf c := by
  have stopped (c : Control) : stillOf (stopErrorFan c) = stillOf c := rfl
  have expired : stillOf (expireErrorFan t c) = stillOf c := by
    unfold expireErrorFan
    split
    · exact stopped c
    · rfl
  rw [errorFan, ← expired]
  unfold stopFeedingFire
  split
  · exact stopped _
  · rfl

/-- The phases that work on the outputs and their clocks only. -/
def Phase.isQuiet : Phase → Bool
  | begin | read | idleHeat | lid | feed | fan | expire | close => true
  | _ => false

theorem stillOf_quiet {p : Phase} (quiet : p.isQuiet = true) :
    stillOf (p.act t c) = stillOf c := by
  cases p with
  | begin =>
      simp only [Phase.act, beginStep]
      split <;> rfl
  | read =>
      have same := congrArg stillOf (withoutReadings_readSensors t c)
      exact same
  | idleHeat =>
      simp only [Phase.act, noticeIdleHeat]
      split <;> rfl
  | lid =>
      rcases withoutPause_watchLid t c with same | same
      all_goals
        have still := congrArg stillOf same
        exact still
  | feed => exact stillOf_feedAuger t c
  | fan =>
      have same := congrArg stillOf (withoutFan_runFan t c)
      exact same
  | expire =>
      simp only [Phase.act, expireManual]
      split <;> rfl
  | close => rfl
  | _ => cases quiet

end Frame

end PiFire
