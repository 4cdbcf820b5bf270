import PiFire.Relay.Passage

/-!
# The watch over the fire

What the supervision remembers of the fire, the recoveries of the cook and its
checkpoint are changed by very little: a mode being entered, a light being
handed over, the supervision itself and the checkpoint being written. This file
says so for every phase of a step.
-/

namespace PiFire

/-- What the supervision remembers of the fire. The faults it has reported, the
igniter's clock and the mode a relight goes back to are left out. -/
def Safety.watched (s : Safety) : Safety :=
  { s with
    igniterOnSince := 0, igniterLockedOut := false, ctrlFaultCount := 0, errorFanUntil := 0
    errorPitC := none, stopOvertempSaid := false, reigniteLast := .stop, error := none }

theorem Safety.of_watched {α : Type} {s s' : Safety} (field : Safety → α)
    (kept : ∀ s, field s.watched = field s) (same : s'.watched = s.watched) :
    field s' = field s := by
  rw [← kept s', same, kept s]

/-- The mode, the recoveries of the cook, its checkpoint, and what is remembered
of the fire. -/
structure Watch where
  mode : Mode
  recoveries : ℤ
  checkpoint : Checkpoint
  safety : Safety

/-- The watch of the control state. -/
def watchOf (c : Control) : Watch :=
  { mode := c.mode
    recoveries := c.recoveries
    checkpoint := c.checkpoint
    safety := c.safety.watched }

/-- A light begins. -/
def Watch.light (now : ℚ) (cfg : Cfg) (pit : Option ℚ) (w : Watch) : Watch :=
  { w with
    safety := { w.safety with
      ssActive := true
      ssProven := false
      ssAboveSince := 0
      filtC := pit
      ssBaselineC := pit
      ssDeadline := now + cfg.ssProveS
      ssStart := now
      ssEntryC := pit
      ssHeld := false
      ssFlatT := 0
      peakC := none
      heating := false
      proving := false
      stepdownArmed := false } }

/-- A light ends. -/
def Watch.lit (now : ℚ) (pit : Option ℚ) (w : Watch) : Watch :=
  { w with
    safety := { w.safety with
      ssActive := false
      heating := true
      established := false
      peakC := pit
      progressC := pit
      progressT := now
      handoverC := pit } }

/-- Smoke or Hold begins, working at `work`, after the mode `prev`. -/
def Watch.cook (now : ℚ) (prev : Mode) (pit : Option ℚ) (work : ℚ) (w : Watch) : Watch :=
  { w with
    safety := { w.safety with
      peakC := if w.safety.peakC.isNone then pit else w.safety.peakC
      progressC := if pit.isSome then pit else w.safety.progressC
      progressT := if pit.isSome then now else w.safety.progressT
      established := if prev.isLighting then w.safety.established else true
      reached := false
      stallSaid := false
      stepdownArmed := work > 0 && readsAbove pit work } }

/-- A mode is entered with the set point `sp`. Whatever the mode, the fault of
the pit probe is timed afresh. -/
def Watch.enter (now : ℚ) (m : Mode) (cfg : Cfg) (pit : Option ℚ) (sp : ℚ) (w : Watch) : Watch :=
  let left := { w with
    mode := m
    recoveries := if m = .stop then 0 else w.recoveries
    safety := { w.safety with primaryInvalidSince := 0 } }
  match m with
  | .startup =>
      { left with safety := (safetyReset cfg.reigniteRetries).watched }.light now cfg pit
  | .reignite => left.light now cfg pit
  | .smoke => left.cook now w.mode pit cfg.smokeMinC
  | .hold => left.cook now w.mode pit sp
  | _ => left

/-- The watch is read off what the quiet phases leave alone. -/
def Still.watch (s : Still) : Watch :=
  { mode := s.mode, recoveries := s.recoveries, checkpoint := s.checkpoint
    safety := s.safety.watched }

theorem watchOf_of_still {c c' : Control} (same : stillOf c' = stillOf c) :
    watchOf c' = watchOf c :=
  congrArg Still.watch same

section Frame

variable (t : Tick) (c : Control)

@[simp]
theorem watchOf_mapRecipe (f : RecipeRun → RecipeRun) : watchOf (mapRecipe f c) = watchOf c := rfl

@[simp]
theorem watchOf_setOutput (o : Output) (on : Bool) : watchOf (setOutput o on c) = watchOf c := rfl

@[simp]
theorem watchOf_setFanPct (pct : ℤ) : watchOf (setFanPct pct c) = watchOf c := rfl

@[simp]
theorem watchOf_fanOn (pct : ℤ) : watchOf (fanOn pct c) = watchOf c := by
  simp only [fanOn]
  split <;> rfl

@[simp]
theorem watchOf_applyCycle (cycle : Cycle) : watchOf (applyCycle cycle c) = watchOf c := rfl

@[simp]
theorem watchOf_smokeCycle : watchOf (smokeCycle t c) = watchOf c := by
  simp only [smokeCycle]
  split <;> rfl

@[simp]
theorem watchOf_autotuneFinish : watchOf (autotuneFinish c) = watchOf c := rfl

@[simp]
theorem watchOf_setError (fault : Fault) : watchOf (setError fault c) = watchOf c := rfl

end Frame

section Enter

variable (t : Tick) (m : Mode) (c : Control)

theorem watchOf_leaveMode :
    watchOf (leaveMode t m c) =
      { watchOf c with
        mode := m
        recoveries := if m = .stop then 0 else c.recoveries
        safety := { (watchOf c).safety with primaryInvalidSince := 0 } } := by
  simp only [leaveMode]
  split <;> rfl

theorem leaveMode_known :
    (leaveMode t m c).cfg = c.cfg ∧ (leaveMode t m c).validPit = c.validPit ∧
      (leaveMode t m c).setpointC = c.setpointC ∧ (leaveMode t m c).mode = m := by
  unfold leaveMode
  split <;> exact ⟨rfl, rfl, rfl, rfl⟩

theorem fanOn_known (pct : ℤ) :
    (fanOn pct c).cfg = c.cfg ∧ (fanOn pct c).validPit = c.validPit := by
  unfold fanOn
  extract_lets on driven
  have same : driven.cfg = c.cfg ∧ driven.validPit = c.validPit := by
    unfold driven
    split <;> exact ⟨rfl, rfl⟩
  exact same

theorem watchOf_onRunEnter (prev : Mode) :
    watchOf (onRunEnter t prev c) = (watchOf c).cook t.now prev c.validPit (workC c) := rfl

theorem watchOf_setupLight :
    watchOf (setupLight t c) = (watchOf c).light t.now c.cfg c.validPit := by
  have entered (c : Control) : watchOf (onStartupEnter t (selectSmartstartProfile c)) =
      (watchOf c).light t.now c.cfg c.validPit :=
    rfl
  obtain ⟨limits, pit⟩ := fanOn_known (setOutput .power true c)
    (if c.cfg.dcFan then c.cfg.startupPwmDuty else 100)
  have ignited : (setOutput .igniter true (fanOn (if c.cfg.dcFan then c.cfg.startupPwmDuty else 100)
      (setOutput .power true c))).validPit = c.validPit := pit
  rw [setupLight, watchOf_setOutput, watchOf_smokeCycle, entered, ignited, watchOf_setOutput,
    watchOf_fanOn, watchOf_setOutput]
  exact congrArg (fun cfg => (watchOf c).light t.now cfg c.validPit) limits

theorem watchOf_setupError : watchOf (setupError t c) = watchOf c := by
  unfold setupError
  extract_lets
  split
  · rw [watchOf_fanOn]
    rfl
  · rfl

theorem watchOf_setupPrime : watchOf (setupPrime t c) = watchOf c := by
  unfold setupPrime
  extract_lets amount powered ignited timed
  have lit : watchOf ignited = watchOf c := by
    unfold ignited
    split <;> rfl
  rw [watchOf_setOutput, ← lit]
  rfl

theorem watchOf_beginCook :
    watchOf (beginCook t c) =
      { watchOf c with safety := (safetyReset c.cfg.reigniteRetries).watched } := rfl

theorem watchOf_enterMode :
    watchOf (enterMode t m c) = (watchOf c).enter t.now m c.cfg c.validPit c.setpointC := by
  have left := watchOf_leaveMode t m c
  obtain ⟨limits, pit, sp, mode⟩ := leaveMode_known t m c
  cases m with
  | stop =>
      have stopped (c : Control) : watchOf (setupStop c) = watchOf c := rfl
      rw [enterMode, stopped, left]
      rfl
  | monitor | manual => exact left
  | prime => rw [enterMode, watchOf_setupPrime, left]; rfl
  | startup =>
      have begun : (beginCook t (leaveMode t .startup c)).validPit = c.validPit := pit
      have same : (beginCook t (leaveMode t .startup c)).cfg = c.cfg := limits
      rw [enterMode, watchOf_setupLight, begun, same, watchOf_beginCook, left, limits]
      rfl
  | reignite =>
      rw [enterMode, watchOf_setupLight, left, limits, pit]
      rfl
  | smoke =>
      rw [enterMode, setupSmoke, watchOf_setOutput, watchOf_smokeCycle, watchOf_fanOn,
        watchOf_setOutput, watchOf_onRunEnter, left, workC, mode, limits, pit]
      rfl
  | hold =>
      rw [enterMode, setupHold, watchOf_setOutput, watchOf_applyCycle, watchOf_fanOn,
        watchOf_setOutput, watchOf_onRunEnter, left, workC, mode, sp, pit]
      rfl
  | shutdown => rw [enterMode, setupShutdown, watchOf_fanOn, watchOf_setOutput, left]; rfl
  | error => rw [enterMode, watchOf_setupError, left]; rfl

end Enter

/-- How a part of a step that enters the given mode, or none, moves the watch at
`now`. -/
inductive WatchMove (now : ℚ) (c : Control) : Option Mode → Watch → Prop where
  | keep : WatchMove now c none (watchOf c)
  | enter (m : Mode) (sp : ℚ) :
      WatchMove now c (some m) ((watchOf c).enter now m c.cfg c.validPit sp)
  /-- A light is handed over, or a light's end is forced. -/
  | handOver (m : Mode) (sp : ℚ) (lighting : c.mode.isLighting) :
      WatchMove now c (some m)
        (((watchOf c).lit now c.validPit).enter now m c.cfg c.validPit sp)

section Moves

variable {now : ℚ} {c c' : Control} {entered : Option Mode} {w : Watch}

theorem WatchMove.of_eq (same : w = watchOf c) : WatchMove now c none w := same ▸ .keep

theorem WatchMove.stays (moved : WatchMove now c none w) : w = watchOf c := by
  cases moved
  rfl

theorem WatchMove.enters {m : Mode} (moved : WatchMove now c (some m) w) :
    ∃ before sp, w = before.enter now m c.cfg c.validPit sp ∧
      (before = watchOf c ∨ c.mode.isLighting ∧ before = (watchOf c).lit now c.validPit) := by
  cases moved with
  | enter m sp => exact ⟨_, sp, rfl, Or.inl rfl⟩
  | handOver m sp lighting => exact ⟨_, sp, rfl, Or.inr ⟨lighting, rfl⟩⟩

/-- The mode of an entry. -/
abbrev enteredMode (e : Option Entry) : Option Mode := e.map Entry.mode

theorem WatchMove.of_passes {t : Tick} {d : Control} {e : Option Entry}
    (passes : Passes withoutPlan t c e d) : WatchMove t.now c (enteredMode e) (watchOf d) := by
  have seen := passes.blind (fun c => (watchOf c, c.cfg, c.validPit)) fun _ => rfl
  cases seen with
  | stays same => exact .of_eq (congrArg Prod.fst same)
  | @enters _ from_ e into same =>
      simp only [Prod.mk.injEq] at into same
      obtain ⟨watch, limits, pit⟩ := same
      rw [into.1, watchOf_enterMode, watch, limits, pit]
      exact .enter e.mode from_.setpointC
  | @handsOver _ from_ m lighting into same =>
      simp only [Prod.mk.injEq] at into same
      obtain ⟨watch, limits, pit⟩ := same
      rw [into.1, watchOf_enterMode, watch, limits, pit]
      exact .handOver m from_.setpointC lighting

end Moves

section Commands

variable (t : Tick) (c : Control)

theorem watchOf_controllerLoad (id : String) : watchOf (controllerLoad t id c) = watchOf c := by
  unfold controllerLoad
  extract_lets loaded
  cases loaded <;> rfl

theorem watchOf_controlReloadSettings : watchOf (controlReloadSettings t c) = watchOf c := by
  unfold controlReloadSettings
  extract_lets loaded fitted
  split
  · rw [watchOf_controllerLoad]
    rfl
  · rfl

theorem watchOf_manualOutput (str : String) (on : Bool) (num : ℚ) :
    watchOf (manualOutput t str on num c) = watchOf c := by
  unfold manualOutput
  split
  · extract_lets until_
    split
    · rfl
    · split
      · unfold manualSwitch
        extract_lets blown switched
        have same : watchOf blown = watchOf c := by
          unfold blown
          split <;> rfl
        exact same
      · rfl
  · rfl

theorem watchOf_lidToggle : watchOf (lidToggle t c) = watchOf c := by
  unfold lidToggle
  split
  · split
    · rw [watchOf_fanOn]
      rfl
    · extract_lets parked
      have same : watchOf parked = watchOf c := by
        unfold parked
        rw [watchOf_fanOn, watchOf_setOutput]
        rfl
      exact same
  · rfl

theorem watch_handleCmd {cmd : Cmd} (works : cmd.plans = false) :
    WatchMove t.now c (enteredMode (cmdEntry t c cmd)) (watchOf (handleCmd t c cmd)) := by
  cases cmd with
  | dutyCycle num =>
      simp only [handleCmd]
      split <;> exact .keep
  | manualOutput str flag num => exact .of_eq (watchOf_manualOutput t c str flag num)
  | lidToggle => exact .of_eq (watchOf_lidToggle t c)
  | settingsChanged => exact .of_eq (watchOf_controlReloadSettings t c)
  | controllerChanged => exact .of_eq (watchOf_controllerLoad t (reloadCfg t c) _)
  | _ => cases works

theorem watch_act (p : Phase) (notSupervise : p ≠ .supervise) (notCheckpoint : p ≠ .checkpoint) :
    WatchMove t.now c (enteredMode (phaseEntry t p c)) (watchOf (p.act t c)) := by
  by_cases plans : p.plans = true
  · by_cases inError : p = .timed ∧ c.mode = .error
    · obtain ⟨rfl, mode⟩ := inError
      simp only [Phase.act, phaseEntry, timedTransition, timedEntry, mode]
      exact .of_eq (watchOf_of_still (stillOf_errorFan t c))
    · exact .of_passes (passes_plan t c plans (not_and.mp inError))
  · cases p with
    | command cmd => exact watch_handleCmd t c (Bool.eq_false_iff.mpr plans)
    | supervise => exact absurd rfl notSupervise
    | checkpoint => exact absurd rfl notCheckpoint
    | read | lid | feed | fan | expire => exact .of_eq (watchOf_of_still (stillOf_quiet t c rfl))
    | _ => exact absurd rfl plans

end Commands

section Kept

variable (t : Tick) (c : Control)

/-- The count of recoveries and the checkpoint. -/
def ledgerOf : ℤ × Checkpoint := (c.recoveries, c.checkpoint)

theorem ledgerOf_enterMode {m : Mode} (notStop : m ≠ .stop) :
    ledgerOf (enterMode t m c) = ledgerOf c := by
  have watch := watchOf_enterMode t m c
  have recoveries : (enterMode t m c).recoveries = c.recoveries := by
    refine (congrArg Watch.recoveries watch).trans ?_
    cases m <;> first | rfl | exact absurd rfl notStop
  have checkpoint : (enterMode t m c).checkpoint = c.checkpoint := by
    refine (congrArg Watch.checkpoint watch).trans ?_
    cases m <;> rfl
  rw [ledgerOf, recoveries, checkpoint]
  rfl

theorem ledgerOf_safetyTick : ledgerOf (safetyTick t c).1 = ledgerOf c := by
  have same := congrArg ledgerOf (withoutFire_safetyTick t c)
  exact same

theorem ledgerOf_supervise : ledgerOf (supervise t c) = ledgerOf c := by
  rw [← ledgerOf_safetyTick t c]
  unfold supervise carryAction
  split
  · rfl
  · exact ledgerOf_enterMode t _ (by decide)
  · exact ledgerOf_enterMode t _ (by decide)

theorem Watch.enter_keeps (now : ℚ) (m : Mode) (cfg : Cfg) (pit : Option ℚ) (sp : ℚ) (w : Watch) :
    (w.enter now m cfg pit sp).mode = m ∧
      (w.enter now m cfg pit sp).recoveries = (if m = .stop then 0 else w.recoveries) ∧
      (w.enter now m cfg pit sp).checkpoint = w.checkpoint := by
  cases m <;> exact ⟨rfl, rfl, rfl⟩

theorem act_recoveries (p : Phase) :
    (p.act t c).recoveries = c.recoveries ∨
      (p.act t c).mode = .stop ∧ (p.act t c).recoveries = 0 := by
  by_cases supervised : p = .supervise
  · subst supervised
    exact Or.inl (congrArg Prod.fst (ledgerOf_supervise t c))
  by_cases written : p = .checkpoint
  · subst written
    exact Or.inl rfl
  have moved := watch_act t c p supervised written
  change (watchOf (p.act t c)).recoveries = c.recoveries ∨
    (watchOf (p.act t c)).mode = .stop ∧ (watchOf (p.act t c)).recoveries = 0
  generalize enteredMode (phaseEntry t p c) = entered, watchOf (p.act t c) = w at moved
  have stops (m : Mode) (sp : ℚ) (before : Watch) (same : before.recoveries = c.recoveries) :
      (before.enter t.now m c.cfg c.validPit sp).recoveries = c.recoveries ∨
        (before.enter t.now m c.cfg c.validPit sp).mode = .stop ∧
          (before.enter t.now m c.cfg c.validPit sp).recoveries = 0 := by
    obtain ⟨mode, recoveries, -⟩ := Watch.enter_keeps t.now m c.cfg c.validPit sp before
    rw [mode, recoveries]
    by_cases stop : m = .stop
    · exact Or.inr ⟨stop, if_pos stop⟩
    · exact Or.inl ((if_neg stop).trans same)
  cases moved with
  | keep => exact Or.inl rfl
  | enter m sp => exact stops m sp (watchOf c) rfl
  | handOver m sp => exact stops m sp _ rfl

theorem act_checkpoint {p : Phase} (notCheckpoint : p ≠ .checkpoint) :
    (p.act t c).checkpoint = c.checkpoint := by
  by_cases supervised : p = .supervise
  · subst supervised
    exact congrArg Prod.snd (ledgerOf_supervise t c)
  have moved := watch_act t c p supervised notCheckpoint
  change (watchOf (p.act t c)).checkpoint = c.checkpoint
  generalize enteredMode (phaseEntry t p c) = entered, watchOf (p.act t c) = w at moved
  cases moved with
  | keep => rfl
  | enter m sp => exact (Watch.enter_keeps t.now m c.cfg c.validPit sp _).2.2
  | handOver m sp => exact (Watch.enter_keeps t.now m c.cfg c.validPit sp _).2.2

end Kept

end PiFire
