import PiFire.Fuel.Total
import PiFire.Safety.Auger

/-!
# The auger's time in the books

The total of a cook and the run of the auger that is not over yet are a meter of
the time the auger was on. The feed keeps it: the cycle, the rest and the cap book
the run they end. What else ends a run, or begins it again, does not: a change of
mode, the auger by hand, the lid, and the auger parked where no cycle runs.
-/

namespace PiFire

open Transition

/-- The books as a meter of the auger. -/
def augerMeter : Meter Control ℚ :=
  { on := fun c => c.outputs.auger, total := Control.augerTotalOnS, stamp := Control.augerOnSince }

/-- What the books have at a time: the total, and the run that is not over yet. -/
def augerBooked (now : ℚ) (c : Control) : ℚ := augerMeter.shows now c

/-- How long the auger was on in steps that begin at the time `since`. -/
def augerOnTime (since : ℚ) (ticks : List Tick) (c : Control) : ℚ :=
  onTime augerMeter Tick.now controlStep since ticks c

/-- No phase of the step begins another cook, and with it another total. -/
def CookGoesOn (t : Tick) (c : Control) : Prop :=
  Along (Phase.act t) (fun p c => (phaseEntry t p c).any (·.mode == .startup) = false) (phases t) c

/-- Whether the watch of the lid pauses the feed now. -/
def lidPauses (t : Tick) (c : Control) : Bool :=
  c.mode.isRunning && (c.targetReached || (c.mode == .hold && readsAtLeast c.pitC c.setpointC)) &&
    c.cfg.lidDetect && !c.lidOpen && (readsBelow c.pitC (lidThresholdC c) || (lidWatch t c).2)

/-- A phase that ends a run of the auger, or begins it again, without adding it to the
total. -/
def endsUnbooked (t : Tick) (p : Phase) (c : Control) : Bool :=
  (phaseEntry t p c).isSome ||
    match p with
    | .command (.manualOutput str _ _) => namedOutput str == some .auger && acceptsManual c
    | .command .lidToggle => c.mode == .hold && !c.lidOpen
    | .lid => lidPauses t c
    | .feed => !cycleRuns c && c.mode != .manual && c.manualUntil.auger ≤ t.now
    | _ => false

/-- A phase that loses some of the auger's time: it ends a run that has lasted. -/
def losesRun (t : Tick) (p : Phase) (c : Control) : Bool :=
  c.outputs.auger && c.augerOnSince < t.now && endsUnbooked t p c

/-- No phase of the step loses any of the auger's time. -/
def RunsBooked (t : Tick) (c : Control) : Prop :=
  Along (Phase.act t) (fun p c => losesRun t p c = false) (phases t) c

instance (t : Tick) (c : Control) : Decidable (CookGoesOn t c) :=
  inferInstanceAs (Decidable (Along _ _ _ _))

instance (t : Tick) (c : Control) : Decidable (RunsBooked t c) :=
  inferInstanceAs (Decidable (Along _ _ _ _))

/-! ## The feed -/

section Feed

variable (t : Tick) (c : Control)

theorem augerBooked_congr {c' : Control} {now : ℚ} (core : relayOf c' = relayOf c)
    (total : c'.augerTotalOnS = c.augerTotalOnS) : augerBooked now c' = augerBooked now c := by
  apply Meter.shows_congr (m := augerMeter)
  · exact congrArg Relay.auger core
  · exact total
  · exact congrArg Relay.augerOnSince core

theorem augerBooked_bookAuger {now : ℚ} (on : c.outputs.auger = true) :
    augerBooked now (bookAuger t c) = augerBooked t.now c := by
  have off : (bookAuger t c).outputs.auger = false := rfl
  have booked : (bookAuger t c).augerTotalOnS = c.augerTotalOnS + (t.now - c.augerOnSince) := rfl
  simp [augerBooked, Meter.shows, augerMeter, off, on, booked]

theorem augerBooked_followCycle :
    augerBooked t.now (followCycle t c) = augerBooked t.now c := by
  unfold followCycle
  split
  · extract_lets want
    split
    · next wanted =>
        have off : c.outputs.auger = false := wanted.2.1
        have total : augerBooked t.now c = c.augerTotalOnS := Meter.shows_off (m := augerMeter) off
        rw [total]
        change c.augerTotalOnS + (t.now - t.now) = _
        rw [sub_self, add_zero]
    · split
      · next isOver => exact augerBooked_bookAuger t c isOver.2
      · rfl
  · rfl

theorem augerBooked_restAuger : augerBooked t.now (restAuger t c) = augerBooked t.now c := by
  unfold restAuger
  split
  · next resting => exact augerBooked_bookAuger t c resting.2
  · rfl

theorem augerBooked_capAuger : augerBooked t.now (capAuger t c) = augerBooked t.now c := by
  unfold capAuger
  split
  · next tripped => exact augerBooked_bookAuger t c tripped.1
  · rfl

theorem augerBooked_driveCycle :
    augerBooked t.now (driveCycle t c) =
      if endsUnbooked t .feed c then c.augerTotalOnS else augerBooked t.now c := by
  simp only [endsUnbooked, phaseEntry, Option.isSome_none, Bool.false_or]
  by_cases runs : cycleRuns c = true
  · have began : augerBooked t.now (nextCycle t c) = augerBooked t.now c :=
      augerBooked_congr c (relayOf_nextCycle t c) (nextCycle_augerTotalOnS t c)
    rw [driveCycle, if_pos runs, augerBooked_followCycle, began]
    simp [runs]
  · rw [driveCycle, if_neg runs]
    unfold parkAuger
    by_cases on : c.outputs.auger = true
    · by_cases parks : c.mode ≠ .manual ∧ c.manualUntil.auger ≤ t.now
      · rw [if_pos ⟨parks.1, on, parks.2⟩, if_pos (by simp [runs, parks])]
        exact Meter.shows_off (m := augerMeter) rfl
      · rw [if_neg fun parked => parks ⟨parked.1, parked.2.2⟩, if_neg]
        simpa [runs] using parks
    · have off : c.outputs.auger = false := by simpa using on
      have total : augerBooked t.now c = c.augerTotalOnS := Meter.shows_off (m := augerMeter) off
      rw [if_neg fun parked => on parked.2.1, total, ite_self]

theorem augerBooked_feedAuger :
    augerBooked t.now (feedAuger t c) =
      if endsUnbooked t .feed c then c.augerTotalOnS else augerBooked t.now c := by
  rw [feedAuger, augerBooked_capAuger, augerBooked_restAuger, augerBooked_driveCycle]

end Feed

/-! ## The lid -/

section Lid

variable (t : Tick) (c : Control)

theorem relayOf_lidToggle_eq :
    relayOf (lidToggle t c) =
      if c.mode = .hold ∧ c.lidOpen = false then { relayOf c with auger := false }
      else relayOf c := by
  unfold lidToggle
  by_cases holding : c.mode = .hold
  · rw [if_pos holding]
    cases opened : c.lidOpen with
    | true =>
        rw [if_pos rfl, relayOf_fanOn, if_neg (by simp)]
        rfl
    | false =>
        have parked : relayOf (fanOn c.dutyCycle (setOutput .auger false { c with
            lidOpen := true, lidOpenUntil := t.now + c.cfg.lidPauseS, lidLowC := c.pitC })) =
            { relayOf c with auger := false } := by
          rw [relayOf_fanOn, relayOf_setOutput_auger]
          rfl
        rw [if_neg (by simp), if_pos ⟨holding, rfl⟩, ← parked]
        rfl
  · rw [if_neg holding, if_neg fun both => holding both.1]

theorem lidOpens_eq {c arrived : Control}
    (arrives : arrived = { c with
      targetReached := c.targetReached || (c.mode == .hold && readsAtLeast c.pitC c.setpointC) })
    (running : c.mode.isRunning = true) :
    lidOpens (lidWatch t arrived).2
        (trackLidEvent t (lidWatch t arrived).2 (lidWatch t arrived).1) = lidPauses t c := by
  have tracks (dropped : Bool) (c : Control) :
      lidOpens dropped (trackLidEvent t dropped c) = lidOpens dropped c := by
    unfold trackLidEvent
    extract_lets begun recovered
    have same : lidOpens dropped begun = lidOpens dropped c := by
      unfold begun
      split <;> rfl
    split
    · exact same
    · exact same
  have sampled (dropped : Bool) (c : Control) :
      lidOpens dropped (lidWatch t c).1 = lidOpens dropped c := by
    unfold lidWatch
    split
    · rfl
    · simp only [sampleLid]
      split <;> rfl
  have watched : (lidWatch t arrived).2 = (lidWatch t c).2 := by
    have pit : arrived.validPit = c.validPit := by
      rw [arrives]
      rfl
    simp only [lidWatch, pit]
    cases c.validPit with
    | none => rfl
    | some pit =>
        simp only [sampleLid, arrives]
        split <;> rfl
  rw [tracks, sampled, watched, arrives, lidPauses, running, Bool.true_and]
  rfl

theorem relayOf_watchLid_eq :
    relayOf (watchLid t c) =
      if lidPauses t c then { relayOf c with auger := false } else relayOf c := by
  unfold watchLid
  by_cases running : c.mode.isRunning = true
  · rw [if_pos running]
    extract_lets arrived watched tracked
    have arrives : arrived = { c with
        targetReached :=
          c.targetReached || (c.mode == .hold && readsAtLeast c.pitC c.setpointC) } := by
      unfold arrived
      split
      · next reached => simp [reached.1, reached.2]
      · next short =>
          have stays : (c.mode == .hold && readsAtLeast c.pitC c.setpointC) = false := by
            simpa using short
          rw [stays, Bool.or_false]
    have kept : relayOf tracked = relayOf c := by
      have left : withoutPause tracked = withoutPause c := by
        unfold tracked
        rw [withoutPause_trackLidEvent, withoutPause_lidWatch, arrives]
        rfl
      have same := congrArg relayOf left
      exact same
    have closed (c : Control) : relayOf (closeLid t c) = relayOf c := by
      have same := congrArg relayOf (withoutPause_closeLid t c)
      exact same
    have opened (c : Control) : relayOf (openLid t c) = { relayOf c with auger := false } := by
      have off := congrArg relayOf (withoutPause_openLid t c)
      exact off
    have opens : lidOpens watched.2 tracked = lidPauses t c := lidOpens_eq t arrives running
    rw [closed, opens]
    by_cases pauses : lidPauses t c = true
    · rw [if_pos pauses, if_pos pauses, opened, kept]
    · rw [if_neg pauses, if_neg pauses, kept]
  · have still : lidPauses t c = false := by simp [lidPauses, running]
    rw [if_neg running, still]
    rfl

end Lid

/-! ## One phase -/

section Phases

variable {t : Tick} {p : Phase} {c c' : Control}

theorem booked_same {r : Relay} (core : relayOf c' = r) (auger : r.auger = c.outputs.auger)
    (stamp : r.augerOnSince = c.augerOnSince) (total : c'.augerTotalOnS = c.augerTotalOnS) :
    augerBooked t.now c' = augerBooked t.now c := by
  apply Meter.shows_congr (m := augerMeter)
  · exact (congrArg Relay.auger core).trans auger
  · exact total
  · exact (congrArg Relay.augerOnSince core).trans stamp

theorem booked_total {r : Relay} (core : relayOf c' = r)
    (restarts : r.auger = true → r.augerOnSince = t.now)
    (total : c'.augerTotalOnS = c.augerTotalOnS) : augerBooked t.now c' = c.augerTotalOnS := by
  cases on : c'.outputs.auger with
  | false => exact (Meter.shows_off (m := augerMeter) on).trans total
  | true =>
      have fed : r.auger = true := (congrArg Relay.auger core).symm.trans on
      have stamp : c'.augerOnSince = t.now :=
        (congrArg Relay.augerOnSince core).trans (restarts fed)
      have shown : augerBooked t.now c' = c'.augerTotalOnS + (t.now - c'.augerOnSince) := by
        simp [augerBooked, Meter.shows, augerMeter, on]
      rw [shown, total, stamp, sub_self, add_zero]

theorem booked_enter {e : Entry} (entered : phaseEntry t p c = some e)
    (total : (p.act t c).augerTotalOnS = c.augerTotalOnS) :
    augerBooked t.now (p.act t c) = c.augerTotalOnS := by
  have moved := effect_act t p c
  generalize core : relayOf (p.act t c) = r at moved
  refine booked_total core ?_ total
  intro on
  cases moved with
  | enter => rfl
  | read => cases entered
  | limits loads =>
      rcases loads with rfl | rfl
      all_goals cases entered
  | byHand => cases entered
  | lower _ _ _ _ stays =>
      rw [stays] at entered
      cases entered
  | judge quiet =>
      rw [phaseEntry, quiet] at entered
      cases entered
  | feed => cases entered

theorem booked_command {cmd : Cmd} (stays : cmdEntry t c cmd = none)
    (total : (handleCmd t c cmd).augerTotalOnS = c.augerTotalOnS) :
    augerBooked t.now (handleCmd t c cmd) =
      if endsUnbooked t (.command cmd) c then c.augerTotalOnS else augerBooked t.now c := by
  by_cases direct : cmd.isDirect = true
  · cases cmd with
    | manualOutput str on num =>
        have core := relayOf_manualOutput t c str on num
        simp only [endsUnbooked, phaseEntry, stays, Option.isSome_none, Bool.false_or]
        cases named : namedOutput str with
        | none =>
            rw [named] at core
            exact booked_same core rfl rfl total
        | some o =>
            simp only [named] at core
            by_cases accepted : acceptsManual c = true
            · rw [if_pos accepted] at core
              cases o with
              | auger =>
                  rw [accepted]
                  refine booked_total core ?_ total
                  intro fed
                  replace fed : on = true := fed
                  simp [Relay.byHand, fed]
              | power | fan | igniter => exact booked_same core rfl rfl total
            · rw [if_neg accepted] at core
              simp only [accepted]
              rw [Bool.and_false]
              exact booked_same core rfl rfl total
    | lidToggle =>
        have core := relayOf_lidToggle_eq t c
        simp only [endsUnbooked, phaseEntry, stays, Option.isSome_none, Bool.false_or]
        by_cases opens : c.mode = .hold ∧ c.lidOpen = false
        · rw [if_pos opens] at core
          rw [if_pos (by simp [opens])]
          exact booked_total core (fun on => by cases on) total
        · rw [if_neg opens] at core
          rw [if_neg (by simpa using opens)]
          exact booked_same core rfl rfl total
    | settingsChanged =>
        refine booked_same rfl ?_ ?_ total
        · simp only [handleCmd, controlReloadSettings, apply_ite relayOf]
          split <;> rfl
        · simp only [handleCmd, controlReloadSettings, apply_ite relayOf]
          split <;> rfl
    | controllerChanged => exact booked_same rfl rfl rfl total
    | _ => cases direct
  · have core := relayOf_handleCmd t c cmd (by simpa using direct)
    rw [stays, Relay.enterIf_none] at core
    have keeps : endsUnbooked t (.command cmd) c = false := by
      cases cmd <;> first | (exact absurd rfl direct) | simp [endsUnbooked, phaseEntry, stays]
    rw [keeps]
    exact booked_same core rfl rfl total

theorem act_booked (dark : (relayOf c).dark)
    (goesOn : (phaseEntry t p c).any (·.mode == .startup) = false) :
    augerBooked t.now (p.act t c) =
      if endsUnbooked t p c then c.augerTotalOnS else augerBooked t.now c := by
  by_cases feeds : p = .feed
  · rw [feeds]
    exact augerBooked_feedAuger t c
  have total : (p.act t c).augerTotalOnS = c.augerTotalOnS := by
    rw [act_augerTotalOnS t c feeds, totalAfter, goesOn]
    rfl
  cases entered : phaseEntry t p c with
  | some e =>
      have ends : endsUnbooked t p c = true := by simp [endsUnbooked, entered]
      rw [ends]
      exact booked_enter entered total
  | none =>
      by_cases follows : p.follows = true ∧ ∀ cmd, p ≠ .command cmd
      · have core := relayOf_follows t c follows.1
        rw [entered, Relay.enterIf_none] at core
        have keeps : endsUnbooked t p c = false := by
          cases p <;> simp_all [endsUnbooked, Phase.follows]
        rw [keeps]
        exact booked_same core rfl rfl total
      · cases p with
        | command cmd => exact booked_command entered total
        | read =>
            have moved := effect_act t .read c
            generalize core : relayOf (Phase.act t .read c) = r at moved
            cases moved with
            | enter entered => cases entered
            | read => exact booked_same core rfl rfl total
            | lower _ _ _ plain => cases plain
        | supervise =>
            obtain ⟨igniter, judged, -⟩ := relayOf_supervise_quiet t c entered
            obtain ⟨lit, since, locked, capped⟩ := Relay.capIgniter_eq t.now (relayOf c)
            rw [capped] at judged
            have keeps : endsUnbooked t .supervise c = false := by
              simp [endsUnbooked, entered]
            rw [keeps]
            exact booked_same judged rfl rfl total
        | lid =>
            have core := relayOf_watchLid_eq t c
            have ends : endsUnbooked t .lid c = lidPauses t c := rfl
            rw [ends]
            by_cases pauses : lidPauses t c = true
            · rw [if_pos pauses] at core ⊢
              exact booked_total core (fun on => by cases on) total
            · rw [if_neg pauses] at core ⊢
              exact booked_same core rfl rfl total
        | timed =>
            have keeps : endsUnbooked t .timed c = false := by simp [endsUnbooked, entered]
            rw [keeps]
            by_cases faulted : c.mode = .error
            · have off : c.outputs.auger = false := (dark faulted).1
              have core := relayOf_timedTransition_error t c faulted
              rcases relayOf_errorFan t c with same | stopped
              · exact booked_same (core.trans same) rfl rfl total
              · exact booked_same (core.trans stopped) off.symm rfl total
            · have core := (passes_timedTransition t c faulted).core
              rw [show timedEntry t c = none from entered, Relay.enterIf_none] at core
              exact booked_same core rfl rfl total
        | feed => exact absurd rfl feeds
        | begin | request | idleHeat | clampSp | notify | recipe | aftercare | fan | expire
          | input | checkpoint | close => exact absurd ⟨rfl, by simp⟩ follows

end Phases

/-! ## A step, and a run of steps -/

section Steps

variable {t : Tick} {c : Control}

/-- The clock and the dark Error, where a step finds them. -/
def BooksSound (t : Tick) (c : Control) : Prop :=
  c.augerOnSince ≤ t.now ∧ (relayOf c).dark

theorem BooksSound.act {p : Phase} (sound : BooksSound t c) : BooksSound t (p.act t c) :=
  ⟨effect_augerOnSince_le sound.1 (effect_act t p c), effect_dark sound.2 (effect_act t p c)⟩

theorem BooksSound.step (sound : BooksSound t c) : BooksSound t (controlStep t c) :=
  controlStep_invariant (BooksSound t) (fun _ _ sound => sound.act) sound

theorem total_le_augerBooked (sound : BooksSound t c) :
    c.augerTotalOnS ≤ augerBooked t.now c := by
  unfold augerBooked Meter.shows
  split
  · exact le_add_of_nonneg_right (sub_nonneg.mpr sound.1)
  · exact (add_zero _).ge

theorem total_eq_augerBooked_iff (sound : BooksSound t c) :
    c.augerTotalOnS = augerBooked t.now c ↔
      ¬(c.outputs.auger = true ∧ c.augerOnSince < t.now) := by
  cases on : c.outputs.auger with
  | false =>
      have total : augerBooked t.now c = c.augerTotalOnS := Meter.shows_off (m := augerMeter) on
      simp [total]
  | true =>
      have shown : augerBooked t.now c = c.augerTotalOnS + (t.now - c.augerOnSince) := by
        simp [augerBooked, Meter.shows, augerMeter, on]
      rw [shown, left_eq_add, sub_eq_zero]
      constructor
      · rintro same ⟨-, before⟩
        exact absurd same before.ne'
      · intro still
        exact le_antisymm (not_lt.mp fun before => still ⟨rfl, before⟩) sound.1

/-- A phase loses some of the auger's time exactly when it ends a run that has lasted
without booking it. -/
theorem act_keeps_iff {p : Phase} (sound : BooksSound t c)
    (goesOn : (phaseEntry t p c).any (·.mode == .startup) = false) :
    augerBooked t.now (p.act t c) ≤ augerBooked t.now c ∧
      (augerBooked t.now (p.act t c) = augerBooked t.now c ↔ losesRun t p c = false) := by
  rw [act_booked sound.2 goesOn]
  cases ends : endsUnbooked t p c with
  | false => simp [losesRun, ends]
  | true =>
      refine ⟨total_le_augerBooked sound, ?_⟩
      rw [if_pos rfl, total_eq_augerBooked_iff sound]
      simp [losesRun, ends]

theorem step_keeps_iff (sound : BooksSound t c) (goesOn : CookGoesOn t c) :
    augerBooked t.now (controlStep t c) ≤ augerBooked t.now c ∧
      (augerMeter.Keeps Tick.now controlStep t c ↔ RunsBooked t c) := by
  have admissible : Along (Phase.act t)
      (fun p c => BooksSound t c ∧ (phaseEntry t p c).any (·.mode == .startup) = false)
      (phases t) c := by
    apply Along.strengthen (BooksSound t) _ _ sound goesOn
    · exact fun _ _ sound _ => sound.act
    · exact fun _ _ sound goesOn => ⟨sound, goesOn⟩
  rw [Meter.Keeps, controlStep_eq_run]
  apply run_eq_iff_along _ _ admissible
  · exact fun _ _ ok => (act_keeps_iff ok.1 ok.2).1
  · exact fun _ _ ok => (act_keeps_iff ok.1 ok.2).2

theorem along_booksSound {time : ℚ} {ticks : List Tick}
    (rising : (time :: ticks.map Tick.now).IsChain (· ≤ ·)) (past : c.augerOnSince ≤ time)
    (dark : (relayOf c).dark) : Along controlStep BooksSound ticks c := by
  induction ticks generalizing time c with
  | nil => trivial
  | cons t ticks ih =>
      obtain ⟨later, rest⟩ := List.isChain_cons_cons.mp rising
      have sound : BooksSound t c := ⟨past.trans later, dark⟩
      exact ⟨sound, ih rest sound.step.1 sound.step.2⟩

end Steps

/-- In a stretch of steps of one cook, from any reachable state and with a clock that
does not go back, the books gain the time the auger was on exactly when no phase ends a
run of it unbooked; and so the total does in a stretch that begins and ends with the
auger off. -/
theorem auger_time_booked_iff {time : ℚ} {c : Control} (reached : Reachable time c)
    (ticks : List Tick) (rising : (time :: ticks.map Tick.now).IsChain (· ≤ ·))
    (goesOn : Along controlStep CookGoesOn ticks c) :
    (augerBooked (endTime Tick.now time ticks) (run controlStep ticks c) =
        augerBooked time c + augerOnTime time ticks c ↔ Along controlStep RunsBooked ticks c) ∧
      (c.outputs.auger = false → (run controlStep ticks c).outputs.auger = false →
        ((run controlStep ticks c).augerTotalOnS = c.augerTotalOnS + augerOnTime time ticks c ↔
          Along controlStep RunsBooked ticks c)) := by
  have sound := along_booksSound rising reached.augerOnSince_le reached.dark
  have admissible := sound.and goesOn
  have booked : augerBooked (endTime Tick.now time ticks) (run controlStep ticks c) =
      augerBooked time c + augerOnTime time ticks c ↔ Along controlStep RunsBooked ticks c := by
    have metered := (Meter.shows_run_iff (m := augerMeter)
      (fun _ _ ok => (step_keeps_iff ok.1 ok.2).1) admissible time).2
    refine metered.trans ?_
    constructor
    · intro keeps
      exact (keeps.and admissible).mono fun _ _ _ ok => (step_keeps_iff ok.2.1 ok.2.2).2.mp ok.1
    · intro keeps
      exact (keeps.and admissible).mono fun _ _ _ ok => (step_keeps_iff ok.2.1 ok.2.2).2.mpr ok.1
  refine ⟨booked, ?_⟩
  intro beganOff endsOff
  rw [← booked, augerBooked, augerBooked, Meter.shows_off (m := augerMeter) beganOff,
    Meter.shows_off (m := augerMeter) endsOff]
  rfl

/-- A cook on the bench, lit at 1 and past its first run of the auger. -/
def benchBetween : Control :=
  run controlStep
    [benchTick [] 1 (some 20) [.mode .startup 0 false], benchTick [] 10 (some 20) []] benchInit

theorem reachable_benchBetween : Reachable 10 benchBetween :=
  (reachable_benchInit.move (.step (benchTick [] 1 (some 20) [.mode .startup 0 false]))
    (by decide) (by decide)).move (.step (benchTick [] 10 (some 20) []))
    (by decide) (by decide)

/-- Left to its cycle, the auger runs for five seconds, and they are booked. -/
theorem auger_time_booked_on_bench :
    (run controlStep [benchTick [] 30 (some 20) [], benchTick [] 35 (some 20) []]
        benchBetween).augerTotalOnS = benchBetween.augerTotalOnS +
      augerOnTime 10 [benchTick [] 30 (some 20) [], benchTick [] 35 (some 20) []] benchBetween :=
  ((auger_time_booked_iff reachable_benchBetween
    [benchTick [] 30 (some 20) [], benchTick [] 35 (some 20) []] (by decide)
    (by decide +kernel)).2 (by decide +kernel) (by decide +kernel)).mpr (by decide +kernel)

/-- A shutdown in the middle of a run of the auger loses what it has run. -/
theorem auger_time_lost :
    ¬∀ (time : ℚ) (c : Control), Reachable time c → ∀ ticks : List Tick,
      (time :: ticks.map Tick.now).IsChain (· ≤ ·) → Along controlStep CookGoesOn ticks c →
      c.outputs.auger = false → (run controlStep ticks c).outputs.auger = false →
        (run controlStep ticks c).augerTotalOnS = c.augerTotalOnS + augerOnTime time ticks c := by
  intro always
  have booked := always 10 benchBetween reachable_benchBetween
    [benchTick [] 30 (some 20) [], benchTick [] 32 (some 20) [.mode .shutdown 0 false]]
    (by decide +kernel) (by decide +kernel) (by decide +kernel) (by decide +kernel)
  exact absurd booked (by decide +kernel)

end PiFire
