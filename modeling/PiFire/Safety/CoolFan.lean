import PiFire.Relay.Passage
import PiFire.Safety.Fault

/-!
# The cool-down fan of Error

Entering Error with a hot pit leaves the fan on for a while. From then on nothing in
Error switches it on: its time or a climbing pit switches it off, and whatever is asked
for by hand or by a recipe is refused or drops the recipe. Only leaving Error starts
the fan again, and with it the reference the climb is judged by.
-/

namespace PiFire

open Transition

/-- The fan and what Error knows of it. -/
structure Vent where
  fan : Bool
  errorFanUntil : ℚ
  errorPitC : Option ℚ

/-- The fan part of the control state. -/
def ventOf (c : Control) : Vent :=
  { fan := c.outputs.fan
    errorFanUntil := c.safety.errorFanUntil
    errorPitC := c.safety.errorPitC }

/-! ## What leaves the fan alone -/

section Frame

variable {t : Tick} {p : Phase} {c : Control}

theorem ventOf_controllerLoad (id : String) : ventOf (controllerLoad t id c) = ventOf c := by
  unfold controllerLoad
  extract_lets loaded
  cases loaded <;> rfl

theorem ventOf_handleCmd {cmd : Cmd} (faulted : c.mode = .error) (works : cmd.plans = false) :
    ventOf (handleCmd t c cmd) = ventOf c := by
  cases cmd with
  | dutyCycle num =>
      simp only [handleCmd]
      split_ifs <;> rfl
  | manualOutput str flag num =>
      have refused : acceptsManual c = false := by simp [acceptsManual, faulted]
      simp [handleCmd, manualOutput, refused]
  | lidToggle => simp [handleCmd, lidToggle, faulted]
  | settingsChanged =>
      simp only [handleCmd, controlReloadSettings]
      split_ifs
      · rw [ventOf_controllerLoad]
        rfl
      · rfl
  | controllerChanged =>
      simp only [handleCmd]
      rw [ventOf_controllerLoad]
      rfl
  | _ => cases works

theorem ventOf_readSensors : ventOf (readSensors t c) = ventOf c := by
  have same := congrArg ventOf (withoutReadings_readSensors t c)
  exact same

theorem ventOf_capIgniter : ventOf (capIgniter t c) = ventOf c := by
  unfold capIgniter
  split_ifs <;> rfl

theorem ventOf_feedAuger (faulted : c.mode = .error) : ventOf (feedAuger t c) = ventOf c := by
  have drives : ventOf (driveCycle t c) = ventOf c := by
    have stands : cycleRuns c = false := by simp [cycleRuns, faulted, Mode.isFiring]
    simp only [driveCycle, stands, Bool.false_eq_true, if_false, parkAuger]
    split_ifs <;> rfl
  have rests (c : Control) : ventOf (restAuger t c) = ventOf c := by
    unfold restAuger
    split_ifs <;> rfl
  have caps (c : Control) : ventOf (capAuger t c) = ventOf c := by
    unfold capAuger
    split_ifs <;> rfl
  rw [feedAuger, caps, rests, drives]

theorem ventOf_supervise (faulted : c.mode = .error) : ventOf (supervise t c) = ventOf c := by
  have cool : overheated c = false := by simp [overheated, faulted]
  have cold : c.mode.isFiring = false := by simp [faulted, Mode.isFiring]
  have capped := capIgniter_mode t c
  simp only [supervise, safetyTick, cool, cold, Bool.false_eq_true, if_false, carryAction]
  exact ventOf_capIgniter

theorem ventOf_act (faulted : c.mode = .error) (enters : phaseEntry t p c = none)
    (notTimed : p ≠ .timed) : ventOf (p.act t c) = ventOf c := by
  by_cases plans : p.plans = true
  · have passes := passes_plan t c plans fun timed => absurd timed notTimed
    rw [enters] at passes
    cases passes.blind ventOf fun _ => rfl with
    | stays same => exact same
  · cases p with
    | command cmd => exact ventOf_handleCmd faulted (Bool.eq_false_iff.mpr plans)
    | read => exact ventOf_readSensors
    | supervise => exact ventOf_supervise faulted
    | lid => simp [Phase.act, watchLid, faulted, Mode.isRunning]
    | feed => exact ventOf_feedAuger faulted
    | fan => simp [Phase.act, runFan, faulted, Mode.isRunning]
    | expire =>
        simp only [Phase.act, expireManual]
        split_ifs <;> rfl
    | checkpoint => rfl
    | _ => exact absurd rfl plans

end Frame

/-! ## The fan of a step in Error -/

/-- The pit is more than ten degrees Fahrenheit above where it was. -/
def climbed (was pit : Option ℚ) : Bool :=
  was.any fun was => readsAbove pit (was + deltaToC 10 .f)

/-- In Error since the pit read this, the fan running on the clock if it runs. -/
structure Cooling (was : Option ℚ) (c : Control) : Prop where
  held : HeldInError c
  reference : c.safety.errorPitC = was
  timed : c.outputs.fan = true → c.safety.errorFanUntil ≠ 0

section Steps

variable {t : Tick} {c : Control} {was : Option ℚ}

theorem ventOf_errorFan (timed : c.outputs.fan = true → c.safety.errorFanUntil ≠ 0) :
    ((errorFan t c).outputs.fan = true → ventOf (errorFan t c) = ventOf c ∧
      climbed c.safety.errorPitC c.validPit = false) ∧
      (errorFan t c).safety.errorPitC = c.safety.errorPitC := by
  have stopped (c : Control) : (stopErrorFan c).outputs.fan = false := rfl
  unfold errorFan
  have expired : expireErrorFan t c = c ∨ expireErrorFan t c = stopErrorFan c := by
    unfold expireErrorFan
    split_ifs
    · exact Or.inr rfl
    · exact Or.inl rfl
  rcases expired with same | out
  · rw [same]
    unfold stopFeedingFire
    split_ifs with feeds
    · exact ⟨fun runs => absurd runs (by rw [stopped]; exact Bool.false_ne_true), rfl⟩
    · refine ⟨fun on => ⟨rfl, Bool.eq_false_iff.mpr fun climbs => ?_⟩, rfl⟩
      exact feeds ⟨timed on, climbs⟩
  · rw [out]
    have quiet : stopFeedingFire (stopErrorFan c) = stopErrorFan c := by
      unfold stopFeedingFire
      rw [if_neg]
      rintro ⟨running, -⟩
      exact running rfl
    rw [quiet]
    exact ⟨fun runs => absurd runs (by rw [stopped]; exact Bool.false_ne_true), rfl⟩

/-- The phases before the fan's own, and those after it. -/
def ventPhases (t : Tick) : List Phase :=
  drainPhases t ++ (cookPhases ++ [.supervise, .lid, .feed, .fan, .expire])

theorem phases_eq_vent (t : Tick) :
    phases t = ventPhases t ++ .timed :: [.input, .checkpoint, .close] := by
  simp [phases, ventPhases, closePhases]

theorem ne_timed_of_mem {p : Phase} (inside : p ∈ ventPhases t) : p ≠ .timed := by
  rintro rfl
  simp [ventPhases, drainPhases, cookPhases] at inside

/-- The phase finds the grill in Error and enters nothing. -/
def keepsError (t : Tick) (p : Phase) (c : Control) : Prop :=
  c.mode = .error ∧ phaseEntry t p c = none

theorem run_vent {ps : List Phase} (order : ∀ p ∈ ps, p ≠ .timed)
    (keeps : Along (Phase.act t) (keepsError t) ps c) :
    ventOf (run (Phase.act t) ps c) = ventOf c := by
  induction ps generalizing c with
  | nil => rfl
  | cons p ps ih =>
      rw [run_cons, ih (fun q inside => order q (List.mem_cons_of_mem p inside))
        keeps.2]
      exact ventOf_act keeps.1.1 keeps.1.2 (order p List.mem_cons_self)

/-- What phases in Error make of the fan, the fan's own among them: it runs after them
only if it ran before them and the pit, as that phase finds it, has not climbed. -/
theorem run_vent_timed {before after : List Phase} (orderBefore : ∀ p ∈ before, p ≠ .timed)
    (orderAfter : ∀ p ∈ after, p ≠ .timed)
    (keeps : Along (Phase.act t) (keepsError t) (before ++ .timed :: after) c)
    (timed : c.outputs.fan = true → c.safety.errorFanUntil ≠ 0) :
    let ended := run (Phase.act t) (before ++ .timed :: after) c
    ended.safety.errorPitC = c.safety.errorPitC ∧ (ended.outputs.fan = true →
      c.outputs.fan = true ∧ ended.safety.errorFanUntil = c.safety.errorFanUntil ∧
        climbed c.safety.errorPitC (run (Phase.act t) before c).validPit = false) := by
  intro ended
  rw [along_append, along_cons] at keeps
  obtain ⟨keepsBefore, atFan, keepsAfter⟩ := keeps
  have sameBefore := run_vent orderBefore keepsBefore
  have sameAfter := run_vent orderAfter keepsAfter
  have through : ventOf ended = ventOf (errorFan t (run (Phase.act t) before c)) := by
    have fans : Phase.act t .timed (run (Phase.act t) before c) =
        errorFan t (run (Phase.act t) before c) := by
      simp only [Phase.act, timedTransition, atFan.1]
    change ventOf (run (Phase.act t) (before ++ .timed :: after) c) = _
    rw [run_append, run_cons, sameAfter, fans]
  generalize run (Phase.act t) before c = b at sameBefore through
  simp only [ventOf, Vent.mk.injEq] at sameBefore through
  obtain ⟨fan, until_, pit⟩ := sameBefore
  obtain ⟨runs, kept⟩ := ventOf_errorFan (t := t) (c := b) (by rw [fan, until_]; exact timed)
  refine ⟨through.2.2.trans (kept.trans pit), fun blows => ?_⟩
  rw [through.1] at blows
  obtain ⟨same, level⟩ := runs blows
  simp only [ventOf, Vent.mk.injEq] at same
  rw [pit] at level
  exact ⟨fan.symm.trans (same.1.symm.trans blows), through.2.1.trans (same.2.1.trans until_), level⟩

/-- A step in Error without a way out: the fan runs at its end only if it ran before it
and the pit the step read has not climbed. -/
theorem cooling_step (cooling : Cooling was c) (noStop : t.AsksNoStop)
    (stays : StaysInError t c) :
    Cooling was (controlStep t c) ∧ ((controlStep t c).outputs.fan = true →
      c.outputs.fan = true ∧ climbed was t.sensors.pit = false) := by
  have keeps : Along (Phase.act t) (keepsError t) (phases t) c :=
    (along_heldInError cooling.held noStop stays).mono fun _ _ _ ok => ⟨ok.1.faulted, ok.2⟩
  have read : (run (Phase.act t) (ventPhases t) c).validPit = t.sensors.pit := by
    have order : ventPhases t = (drainPhases t ++ cookPhases) ++
        [.supervise, .lid, .feed, .fan, .expire] := by simp [ventPhases]
    have judged := beforeSupervision_validPit t c
    rw [beforeSupervision, ← run_append] at judged
    rw [order, run_append, run_validPit (by simp), judged]
  rw [phases_eq_vent] at keeps
  obtain ⟨pit, runs⟩ := run_vent_timed (fun p inside => ne_timed_of_mem inside) (by simp) keeps
    cooling.timed
  rw [← phases_eq_vent, ← controlStep_eq_run] at pit runs
  rw [cooling.reference] at pit runs
  refine ⟨⟨controlStep_error cooling.held noStop stays, pit, fun blows => ?_⟩, fun blows => ?_⟩
  · obtain ⟨ran, sameUntil, -⟩ := runs blows
    rw [sameUntil]
    exact cooling.timed ran
  · obtain ⟨ran, -, level⟩ := runs blows
    rw [read] at level
    exact ⟨ran, level⟩

end Steps

/-! ## Entering Error -/

section Entering

variable {t : Tick} {c : Control}

theorem enterMode_error_vent (now_nonneg : 0 ≤ t.now) :
    (enterMode t .error c).safety.errorPitC = c.validPit ∧
      ((enterMode t .error c).outputs.fan = true →
        (enterMode t .error c).safety.errorFanUntil > t.now ∧
          readsAbove c.validPit c.cfg.restartHotC = true) := by
  have sameLeft : (leaveMode t .error c).validPit = c.validPit ∧
      (leaveMode t .error c).cfg = c.cfg := by
    unfold leaveMode
    split_ifs <;> exact ⟨rfl, rfl⟩
  simp only [enterMode, setupError]
  rw [sameLeft.1, sameLeft.2]
  have blown (pct : ℤ) (c : Control) : (fanOn pct c).safety = c.safety := by
    simp only [fanOn]
    split <;> rfl
  split_ifs with hot waits waits
  · rw [blown]
    exact ⟨rfl, fun _ => ⟨waits, hot⟩⟩
  · exact ⟨rfl, fun blows => by cases blows⟩
  · exact absurd waits (not_lt.mpr now_nonneg)
  · exact ⟨rfl, fun blows => by cases blows⟩

theorem switchEntry_ne_error {mode stepMode : Mode} {e : Entry}
    (enters : switchEntry mode stepMode = some e) : e.mode ≠ .error := by
  cases stepMode
  all_goals simp only [switchEntry] at enters
  all_goals try split_ifs at enters
  all_goals cases enters
  all_goals simp

theorem beginEntry_ne_error {mode : Mode} {run : RecipeRun} {e : Entry}
    (enters : beginEntry mode run = some e) : e.mode ≠ .error := by
  simp only [beginEntry] at enters
  split_ifs at enters
  exact switchEntry_ne_error enters

theorem advanceEntry_ne_error {mode : Mode} {run : RecipeRun} {e : Entry}
    (enters : advanceEntry mode run = some e) : e.mode ≠ .error := by
  simp only [advanceEntry] at enters
  split_ifs at enters
  exact beginEntry_ne_error enters

theorem cmdEntry_ne_error {cmd : Cmd} {e : Entry} (enters : cmdEntry t c cmd = some e) :
    e.mode ≠ .error := by
  cases cmd with
  | mode m num flag =>
      simp only [cmdEntry] at enters
      split_ifs at enters with forced
      cases enters
      simp only [forcesHandover, Bool.and_eq_true] at forced
      rintro rfl
      cases forced.2
  | recipeStart num =>
      simp only [cmdEntry] at enters
      split_ifs at enters
      exact beginEntry_ne_error enters
  | recipeSkip =>
      simp only [cmdEntry] at enters
      split_ifs at enters
      exact advanceEntry_ne_error enters
  | recipeBack =>
      simp only [cmdEntry] at enters
      split_ifs at enters
      exact beginEntry_ne_error enters
  | stop | prime | clearError =>
      simp only [cmdEntry] at enters
      try split_ifs at enters
      all_goals cases enters
      all_goals simp
  | _ => cases enters

theorem requestEntry_ne_error {e : Entry} (enters : requestEntry c = some e) :
    e.mode ≠ .error := by
  simp only [requestEntry] at enters
  split at enters
  · cases enters
  · next r waiting =>
      split_ifs at enters with refused
      cases asked : r.mode
      all_goals simp only [asked, refuses, carriedEntry] at refused enters
      all_goals try contradiction
      all_goals try split_ifs at enters
      all_goals cases enters
      all_goals simp

theorem timedEntry_ne_error {e : Entry} (enters : timedEntry t c = some e) :
    e.mode ≠ .error := by
  have handsOver : handoverMode c ≠ .error := by
    unfold handoverMode
    extract_lets next
    split_ifs with runs
    · rintro same
      rw [same] at runs
      cases runs
    · simp
  simp only [timedEntry] at enters
  split at enters
  all_goals try split_ifs at enters
  all_goals cases enters
  · exact handsOver
  · exact handsOver
  · simp
  · simp
  · simp

theorem phaseEntry_raises {p : Phase} {e : Entry} (enters : phaseEntry t p c = some e)
    (error : e.mode = .error) : p = .supervise := by
  by_contra other
  cases p with
  | command cmd => exact cmdEntry_ne_error enters error
  | request => exact requestEntry_ne_error enters error
  | notify =>
      simp only [phaseEntry, notifyEntry, actionEntry] at enters
      split_ifs at enters
      all_goals cases enters
      all_goals cases error
  | recipe =>
      simp only [phaseEntry, recipeEntry] at enters
      split_ifs at enters
      exact advanceEntry_ne_error enters error
  | supervise => exact other rfl
  | timed => exact timedEntry_ne_error enters error
  | input =>
      simp only [phaseEntry, inputEntry] at enters
      split_ifs at enters
      all_goals cases enters
      all_goals cases error
  | _ => cases enters

theorem run_mode_ne_error {ps : List Phase} (order : ∀ p ∈ ps, p ≠ .supervise)
    (apart : c.mode ≠ .error) : (run (Phase.act t) ps c).mode ≠ .error := by
  induction ps generalizing c with
  | nil => exact apart
  | cons p ps ih =>
      refine ih (fun q inside => order q (List.mem_cons_of_mem p inside)) ?_
      rw [act_mode]
      cases enters : phaseEntry t p c with
      | none => exact apart
      | some e => exact fun error => order p List.mem_cons_self (phaseEntry_raises enters error)

theorem supervise_raised (apart : c.mode ≠ .error) (raised : (controlStep t c).mode = .error) :
    superviseEntry t (beforeSupervision t c) = some (.plain .error) := by
  have before : (beforeSupervision t c).mode ≠ .error := by
    rw [beforeSupervision, ← run_append]
    exact run_mode_ne_error (fun p inside => ne_supervise_of_mem inside) apart
  have inside : (supervise t (beforeSupervision t c)).mode = .error := by
    by_contra out
    rw [controlStep_eq_supervise] at raised
    exact run_mode_ne_error (by simp [closePhases]) out raised
  have moved := act_mode t .supervise (beforeSupervision t c)
  change (supervise t (beforeSupervision t c)).mode = _ at moved
  rw [inside] at moved
  simp only [phaseEntry, superviseEntry] at moved ⊢
  cases judged : (safetyTick t (beforeSupervision t c)).2 with
  | none =>
      rw [judged] at moved
      exact absurd moved.symm before
  | error => rfl
  | reignite =>
      rw [judged] at moved
      cases moved

end Entering

/-- A state right after the error was raised, with the pit as it was read then: by the
supervision of a step, or by a start that does not recover the cook. -/
inductive Raised : Option ℚ → Control → Prop
  | step {t : Tick} {c : Control} (started : 0 < t.now) (apart : c.mode ≠ .error)
      (raised : (controlStep t c).mode = .error) : Raised t.sensors.pit (controlStep t c)
  | start {b : Boot} {o : Json} {c : Control} (started : 0 < b.tick.now)
      (apart : c.mode ≠ .error) (raised : (controlRecover b o c).1.mode = .error) :
      Raised c.validPit (controlRecover b o c).1

/-- What raising the error leaves of the fan: it runs only for a hot pit, on the clock. -/
structure Vented (was : Option ℚ) (c : Control) : Prop where
  reference : c.safety.errorPitC = was
  timed : c.outputs.fan = true → c.safety.errorFanUntil ≠ 0
  hot : c.outputs.fan = true → readsAbove was c.cfg.restartHotC = true

section Raising

variable {t : Tick} {c : Control} {was : Option ℚ}

theorem enterMode_cfg_error : (enterMode t .error c).cfg = c.cfg :=
  (congrArg Relay.cfg (relayOf_enterMode t .error c))

theorem vented_enterMode (started : 0 < t.now) :
    Vented c.validPit (enterMode t .error c) := by
  obtain ⟨reference, blows⟩ := enterMode_error_vent (t := t) (c := c) started.le
  refine ⟨reference, fun runs => ?_, fun runs => ?_⟩
  · have later := (blows runs).1
    exact ne_of_gt (started.trans later)
  · rw [enterMode_cfg_error]
    exact (blows runs).2

theorem vented_closePhases (vented : Vented was c) (held : c.mode = .error)
    (raised : (run (Phase.act t) closePhases c).mode = .error) :
    Vented was (run (Phase.act t) closePhases c) := by
  have noInput : t.shutdownInput = false := by
    rw [closePhases_mode_error t held] at raised
    cases input : t.shutdownInput with
    | false => rfl
    | true =>
        rw [input] at raised
        cases raised
  have enters : ∀ p ∈ closePhases, ∀ c : Control, c.mode = .error → phaseEntry t p c = none := by
    intro p inside c mode
    fin_cases inside
    all_goals first | rfl | simp [phaseEntry, timedEntry, inputEntry, mode, noInput]
  have keeps : Along (Phase.act t) (keepsError t) closePhases c := by
    refine Along.strengthen (fun c => c.mode = .error) ?_ ?_ held
      (along_of_forall (fun p inside _ => enters p inside) c)
    · intro p c mode stays
      rw [act_mode, stays c mode]
      exact mode
    · exact fun p c mode stays => ⟨mode, stays c mode⟩
  have order : closePhases =
      [.lid, .feed, .fan, .expire] ++ .timed :: [.input, .checkpoint, .close] := rfl
  have sameCfg : (run (Phase.act t) closePhases c).cfg = c.cfg := by
    refine run_preserves (fun (p : Phase) _ => ∀ cmd, p ≠ .command cmd)
      (fun after => after.cfg = c.cfg) ?_ rfl (along_of_forall ?_ c)
    · intro p after same notCommand
      rw [act_cfg t p after notCommand, same]
    · intro p inside _ cmd
      fin_cases inside
      all_goals simp
  rw [order] at keeps
  obtain ⟨pit, runs⟩ := run_vent_timed (by simp) (by simp) keeps vented.timed
  rw [← order] at pit runs
  refine ⟨pit.trans vented.reference, fun blows => ?_, fun blows => ?_⟩
  · obtain ⟨ran, sameUntil, -⟩ := runs blows
    rw [sameUntil]
    exact vented.timed ran
  · rw [sameCfg]
    exact vented.hot (runs blows).1

theorem enterMode_validPit : (enterMode t .error c).validPit = c.validPit := by
  have core := relayOf_enterMode t .error c
  have pit : (enterMode t .error c).pitC = c.pitC := congrArg Relay.pitC core
  have valid : (enterMode t .error c).pitValid = c.pitValid := congrArg Relay.pitValid core
  rw [Control.validPit, pit, valid, Control.validPit]

theorem vented_of_raised (raised : Raised was c) : Vented was c := by
  cases raised with
  | @step t c started apart error =>
      have entered := supervise_raised apart error
      have judged : (safetyTick t (beforeSupervision t c)).2 = .error := by
        simp only [superviseEntry] at entered
        split at entered
        · cases entered
        · assumption
        · cases entered
      have supervised : supervise t (beforeSupervision t c) =
          enterMode t .error (safetyTick t (beforeSupervision t c)).1 := by
        rw [supervise, carryAction, judged]
      have pit : (safetyTick t (beforeSupervision t c)).1.validPit = t.sensors.pit := by
        have kept := act_validPit t .supervise (beforeSupervision t c) (by simp)
        change (supervise t (beforeSupervision t c)).validPit = _ at kept
        rw [supervised, enterMode_validPit, beforeSupervision_validPit] at kept
        exact kept
      rw [controlStep_eq_supervise, supervised] at error ⊢
      have vented := vented_enterMode (c := (safetyTick t (beforeSupervision t c)).1) started
      rw [pit] at vented
      exact vented_closePhases vented (enterMode_mode t .error _) error
  | @start b o c started apart error =>
      unfold controlRecover at error ⊢
      cases recovered : recoveredMode b o c with
      | none =>
          rw [recovered] at error
          exact absurd error apart
      | some m =>
          simp only [recovered] at error ⊢
          split_ifs at error ⊢ with tuned
          · rw [enterMode_mode] at error
            cases error
          · cases refused : refusal b o m c with
            | some why => exact vented_enterMode (c := setError (.powerLoss why) c) started
            | none =>
                simp only [refused] at error
                have lit := congrArg Relay.mode (relayOf_relight b o c m)
                change (relight b o m c).mode =
                  (if m = .startup then .startup else .reignite) at lit
                rw [error] at lit
                split_ifs at lit

end Raising

/-- In Error the fan runs only if entering it with a hot pit switched it on and it ran
at every step since: it never comes on again until Stop, and is off at the end of a
step that reads the pit ten degrees above where the error was raised, as long as no
recipe command of the tick after the fault steps out. -/
theorem error_fan_goes_off_for_good {time : ℚ} {was : Option ℚ} {c : Control}
    (reached : Reachable time c) (faulted : c.mode = .error) (raised : Raised was c)
    {ticks : List Tick} (noStop : ∀ t ∈ ticks, t.AsksNoStop)
    (stays : Along controlStep StaysInError ticks c) :
    (c.outputs.fan = true → readsAbove was c.cfg.restartHotC = true) ∧
      Along controlStep (fun t c => (controlStep t c).outputs.fan = true →
        c.outputs.fan = true ∧ climbed was t.sensors.pit = false) ticks c := by
  have vented := vented_of_raised raised
  have begun : Cooling was c :=
    ⟨⟨faulted, by simp [reached.req_none]⟩, vented.reference, vented.timed⟩
  have asked : Along controlStep (fun t _ => t.AsksNoStop) ticks c :=
    along_of_forall (fun t inside _ => noStop t inside) c
  refine ⟨vented.hot, Along.strengthen (Cooling was) ?_ ?_ begun (asked.and stays)⟩
  · exact fun t c cooling ok => (cooling_step cooling ok.1 ok.2).1
  · exact fun t c cooling ok => (cooling_step cooling ok.1 ok.2).2

/-- On the bench in Error the fan blows until the pit has climbed. -/
theorem error_fan_goes_off_on_bench :
    (benchFault.outputs.fan = true → readsAbove (some 400) benchFault.cfg.restartHotC = true) ∧
      Along controlStep (fun t c => (controlStep t c).outputs.fan = true →
        c.outputs.fan = true ∧ climbed (some 400) t.sensors.pit = false)
        [benchTick twoHolds 3 (some 402) [.dutyCycle 50], benchTick twoHolds 4 (some 410) []]
        benchFault :=
  error_fan_goes_off_for_good reachable_benchFault (by decide +kernel)
    (.step (t := benchTick twoHolds 2 (some 400) []) (by decide +kernel) (by decide +kernel)
      (by decide +kernel))
    (by
      intro t inside
      fin_cases inside
      all_goals exact ⟨by decide, rfl⟩)
    (by decide)

/-- A recipe skipped in the tick after the fault has the error raised anew: the fan
blows on a pit that has climbed. -/
theorem error_fan_feeds_fire :
    ¬∀ (time : ℚ) (was : Option ℚ) (c : Control), Reachable time c → c.mode = .error →
      Raised was c → ∀ ticks : List Tick, (time :: ticks.map Tick.now).IsChain (· ≤ ·) →
      (∀ t ∈ ticks, t.AsksNoStop) →
      Along controlStep (fun t c => (controlStep t c).outputs.fan = true →
        c.outputs.fan = true ∧ climbed was t.sensors.pit = false) ticks c := by
  intro always
  have noStop : ∀ t ∈ [benchTick twoHolds 3 (some 410) [.recipeSkip]], t.AsksNoStop := by
    intro t inside
    fin_cases inside
    exact ⟨by decide, rfl⟩
  have blown := always 2 (some 400) benchFault reachable_benchFault (by decide +kernel)
    (.step (t := benchTick twoHolds 2 (some 400) []) (by decide +kernel) (by decide +kernel)
      (by decide +kernel))
    [benchTick twoHolds 3 (some 410) [.recipeSkip]] (by decide) noStop
  exact absurd blown (by decide +kernel)

end PiFire
