import PiFire.Tuning.Limits

/-!
# How a tuning run ends

Every run is over in time. Where it is stopped, or comes to its end, a Shutdown is on the
queue if the grill is firing; where a phase runs out of time, there is none.
-/

namespace PiFire.Tuning

open Transition

variable {formulas : RelayFormulas} {tick range finish : ℚ} {w : Course} {b : Beat}

/-- A run that is going is in its phase within the limit of that, and ends in time; before
its first tick it has not begun to be timed. -/
structure Clocked (tick range finish : ℚ) (w : Course) : Prop where
  placed : w.tuner.Placed range
  timed :
    w.tuner.phaseStart = 0 ∧ w.tuner.ph = .starting ∧
        w.clock + tick + 1800 + Tuner.pointsLimit tick range w.tuner.pointsC.length ≤ finish ∨
      w.tuner.phaseStart ≠ 0 ∧ (Tuner.stages tick range).InTime w.clock w.tuner ∧
        (Tuner.stages tick range).deadline w.tuner ≤ finish

namespace Tuner

theorem note_ph (g : Tuner) (t : Look) : (g.note t).ph = g.ph := rfl

theorem note_phaseStart {g : Tuner} {t : Look} (positive : 0 < t.now) :
    (g.note t).phaseStart ≠ 0 := by
  change (if g.phaseStart = 0 then t.now else g.phaseStart) ≠ 0
  split
  · exact positive.ne'
  · assumption

theorem Placed.note {g : Tuner} (placed : g.Placed range) (t : Look) :
    (g.note t).Placed range :=
  ⟨placed.phase, placed.first, placed.place, placed.tries, placed.warm⟩

theorem Placed.leftAfter_nonneg {g : Tuner} (placed : g.Placed range) (tick_nonneg : 0 ≤ tick)
    (nonneg : 0 ≤ range) : 0 ≤ leftAfter tick range g := by
  have attempt := attemptLimit_nonneg tick_nonneg nonneg
  have few : (0 : ℚ) ≤ 2 - g.tries := by
    have casted : (g.tries : ℚ) ≤ 2 := by exact_mod_cast placed.tries
    linarith
  have attempts := mul_nonneg few attempt
  have rest (going : g.ph ≠ .finishing) :
      0 ≤ pointsLimit tick range (g.pointsC.length - g.step - 1) := by
    apply pointsLimit_nonneg tick_nonneg nonneg
    have inside := placed.place.resolve_left going
    have casted : (g.step : ℚ) + 1 ≤ g.pointsC.length := by exact_mod_cast inside
    linarith
  rw [leftAfter]
  cases ph : g.ph with
  | starting => exact pointsLimit_nonneg tick_nonneg nonneg (Nat.cast_nonneg _)
  | settling | testing | verifying | next =>
    have rest := rest (by rw [ph]; decide)
    dsimp only
    linarith
  | finishing | idle | done | failed => exact le_rfl

end Tuner

theorem Clocked.note (clocked : Clocked tick range finish w) {t : Look}
    (later : w.clock ≤ t.now) (soon : t.now ≤ w.clock + tick) :
    ∃ before, (Tuner.stages tick range).InTime before (w.tuner.note t) ∧ t.now ≤ before + tick ∧
      (Tuner.stages tick range).deadline (w.tuner.note t) ≤ finish := by
  rcases clocked.timed with ⟨unset, starting, due⟩ | ⟨set, inTime, due⟩
  · have begins : (w.tuner.note t).phaseStart = t.now := if_pos unset
    refine ⟨t.now, ?_, by linarith, ?_⟩
    · change t.now ≤ (w.tuner.note t).phaseStart + Tuner.phaseLimit range (w.tuner.note t).ph
      rw [begins, Tuner.note_ph, starting, Tuner.phaseLimit]
      linarith
    · change (w.tuner.note t).phaseStart + Tuner.phaseLimit range (w.tuner.note t).ph +
        Tuner.leftAfter tick range (w.tuner.note t) ≤ finish
      have left : Tuner.leftAfter tick range (w.tuner.note t) =
          Tuner.pointsLimit tick range w.tuner.pointsC.length := by
        rw [Tuner.leftAfter, Tuner.note_ph, starting]
        rfl
      rw [begins, Tuner.note_ph, starting, Tuner.phaseLimit, left]
      linarith
  · have kept : (w.tuner.note t).phaseStart = w.tuner.phaseStart := if_neg set
    refine ⟨w.clock, ?_, soon, ?_⟩
    · change w.clock ≤ (w.tuner.note t).phaseStart + Tuner.phaseLimit range w.tuner.ph
      rw [kept]
      exact inTime
    · change (w.tuner.note t).phaseStart + Tuner.phaseLimit range w.tuner.ph +
        Tuner.leftAfter tick range w.tuner ≤ finish
      rw [kept]
      exact due

theorem Clocked.ticked (clocked : Clocked tick range finish w) (running : w.tuner.running = true)
    (tick_nonneg : 0 ≤ tick) (nonneg : 0 ≤ range) {t : Look}
    (timely : Timely tick range (.tick t) w) :
    (w.step formulas (.tick t)).tuner.running = false ∨
      Clocked tick range finish (w.step formulas (.tick t)) := by
  obtain ⟨positive, later, soon, shown, read⟩ := timely t rfl
  obtain ⟨before, inTime, soon, due⟩ := clocked.note later soon
  have ticked := Tuner.ticked_tick formulas running w.desk.learning t
  rcases ticked.goes (clocked.placed.note t) tick_nonneg nonneg shown read with
    isOver | ⟨goes, placed, points⟩
  · exact Or.inl isOver
  · refine Or.inr ⟨placed, Or.inr ⟨?_, goes.inTime, (goes.deadline_le inTime soon).trans due⟩⟩
    cases goes with
    | stays since _ _ _ => exact since.trans_ne (Tuner.note_phaseStart positive)
    | moves since _ _ => exact since.trans_ne positive.ne'

theorem running_before (running : (w.step formulas b).tuner.running = true) :
    w.tuner.running = true := by
  by_contra isOver
  change (Desk.step formulas b w.desk).tuner.running = true at running
  change ¬w.desk.tuner.running = true at isOver
  cases b with
  | tick t => simp [Desk.step, Tuner.tick, isOver] at running
  | skip i skip => simp [Desk.step, Tuner.chooseSkip, isOver] at running
  | stop now => simp [Desk.step, Tuner.stop, isOver] at running
  | capture | fopdt | result => exact isOver running

/-- Any beat but a tick ends a run that is going, or only chooses what is to be skipped. -/
theorem step_quiet (other : ∀ t, b ≠ .tick t) (still : (w.step formulas b).tuner.running = true) :
    (w.step formulas b).tuner =
        { w.tuner with skipVerify := (w.step formulas b).tuner.skipVerify } ∧
      (w.step formulas b).clock = w.clock ∧ (w.step formulas b).queued = w.queued := by
  have running := running_before still
  cases b with
  | tick t => exact absurd rfl (other t)
  | skip i skip =>
    refine ⟨?_, rfl, List.append_nil _⟩
    change (w.tuner.chooseSkip i skip).1 =
      { w.tuner with skipVerify := (w.tuner.chooseSkip i skip).1.skipVerify }
    rw [Tuner.chooseSkip]
    split <;> rfl
  | stop now =>
    change (w.tuner.stop now).1.running = true at still
    rw [Tuner.stop, if_pos running] at still
    cases still
  | capture | fopdt | result => exact ⟨rfl, rfl, List.append_nil _⟩

theorem clocked_step (tick_nonneg : 0 ≤ tick) (nonneg : 0 ≤ range) (b : Beat) (w : Course)
    (clocked : w.tuner.running = true → Clocked tick range finish w)
    (timely : Timely tick range b w) :
    (w.step formulas b).tuner.running = true →
      Clocked tick range finish (w.step formulas b) := by
  intro still
  have running := running_before still
  obtain ⟨⟨phase, first, place, tries, warm⟩, timed⟩ := clocked running
  cases b with
  | tick t =>
    rcases (clocked running).ticked running tick_nonneg nonneg timely with isOver | goes
    · rw [still] at isOver
      cases isOver
    · exact goes
  | capture | fopdt | result | skip | stop =>
    obtain ⟨same, clock, _⟩ := step_quiet (fun _ equal => by cases equal) still
    constructor
    · rw [same]
      exact ⟨phase, first, place, tries, warm⟩
    · rw [same, clock]
      exact timed

/-- Every run is over in time, from any start. -/
theorem ends_in_time (formulas : RelayFormulas) (l : Learning) (points : Points)
    (full fromScratch : Bool) (u : Units) (now : ℚ) (beats : List Beat) :
    EndsInTime formulas beats (Course.begin (beginRun l points full fromScratch u) now) := by
  intro tick range tick_nonneg nonneg timely running
  have length : 0 < points.list.length := List.length_pos_iff.mpr points.nonempty
  have begins : Clocked tick range (now + runLimit tick range points.list.length)
      (Course.begin (beginRun l points full fromScratch u) now) := by
    constructor
    · refine ⟨List.mem_cons_self, fun _ => ⟨rfl, rfl⟩, Or.inr length, Nat.zero_le _, ?_⟩
      rintro from_ ⟨⟩
    · refine Or.inl ⟨rfl, rfl, le_of_eq ?_⟩
      change now + tick + 1800 + Tuner.pointsLimit tick range points.list.length = _
      rw [runLimit, Tuner.pointsLimit]
      ring
  have clocked := run_preserves (Timely tick range) _ (clocked_step tick_nonneg nonneg)
    (fun _ => begins) timely running
  change _ ≤ now + runLimit tick range points.list.length
  generalize run (Course.step formulas) beats _ = w at clocked ⊢
  have rest := clocked.placed.leftAfter_nonneg tick_nonneg nonneg
  rcases clocked.timed with ⟨_, _, due⟩ | ⟨_, inTime, due⟩
  · have points_left := Tuner.pointsLimit_nonneg tick_nonneg nonneg
      (Nat.cast_nonneg w.tuner.pointsC.length)
    linarith
  · exact (inTime.le_deadline rest).trans due

namespace Tuner

variable {g : Tuner} {l : Learning} {t : Look} {turn : Turn}

/-- Nothing that ends a run from outside leaves the grill firing. -/
theorem not_firing_of_endedBy (ended : g.endedBy t = true) : t.mode.isFiring = false := by
  rw [endedBy, decide_eq_true_eq] at ended
  rcases ended with error | ⟨stop | monitor, _⟩
  · rw [error]
    rfl
  · rw [stop]
    rfl
  · rw [monitor]
    rfl

theorem Lasts.not_timesOut (lasts : g.Lasts t) : ¬g.TimesOut t := by
  rw [TimesOut]
  rw [Lasts] at lasts
  cases ph : g.ph with
  | starting | settling | testing =>
    rw [ph] at lasts
    exact fun out => absurd out.2 (not_lt.mpr lasts)
  | idle | verifying | next | finishing | done | failed => exact id

theorem TimesOut.not_finishing (out : g.TimesOut t) : g.ph ≠ .finishing := by
  intro finishing
  rw [TimesOut, finishing] at out
  exact out

theorem Follows.not_finishing {p : TunePhase} {step tries : ℕ} (follows : g.Follows p step tries) :
    g.ph ≠ .finishing := by
  cases follows with
  | settle from_ | test from_ | verify from_ | again from_ | skip from_ | verified from_
  | next from_ | finish from_ =>
    rw [from_]
    decide

end Tuner

/-- A run that is going has ordered a Shutdown where it has come to its end, and only there. -/
def Ordered (w : Course) : Prop :=
  w.tuner.running = true → (w.tuner.ph = .finishing ↔ shutsDown w.queued)

/-- A tick does not find that a phase has run out of time while the grill is firing. -/
def Spared (b : Beat) (w : Course) : Prop :=
  w.tuner.running = true → ∀ t, b = .tick t → t.mode.isFiring = true →
    ¬(w.tuner.note t).TimesOut t

theorem shutsDown_append {before pushed : List Cmd} :
    shutsDown (before ++ pushed) ↔ shutsDown before ∨ shutsDown pushed := List.mem_append

theorem ordered_step (formulas : RelayFormulas) (b : Beat) (w : Course) (ordered : Ordered w) :
    Ordered (w.step formulas b) := by
  intro still
  have running := running_before still
  have ordered := ordered running
  cases b with
  | tick t =>
    change (w.tuner.tick formulas w.desk.learning t).tuner.running = true at still
    change (w.tuner.tick formulas w.desk.learning t).tuner.ph = .finishing ↔
      shutsDown (w.queued ++ (w.tuner.tick formulas w.desk.learning t).orders)
    rw [shutsDown_append]
    cases Tuner.ticked_tick formulas running w.desk.learning t with
    | ended isOver _ _ =>
      rw [still] at isOver
      cases isOver
    | stays same _ _ no_orders => rw [same.ph, Tuner.note_ph, ordered, or_iff_left no_orders]
    | moves follows _ _ ph _ _ _ _ _ orders =>
      have nothing_yet : ¬shutsDown w.queued := fun down => follows.not_finishing (ordered.mpr down)
      rw [ph, orders, or_iff_right nothing_yet]
  | capture | fopdt | result | skip | stop =>
    obtain ⟨same, _, queued⟩ := step_quiet (fun _ equal => by cases equal) still
    rw [same, queued]
    exact ordered

/-- A tick ends a run safely exactly where no phase has run out of time while the grill is
firing. -/
theorem endsSafely_tick (formulas : RelayFormulas) (t : Look) (running : w.tuner.running = true)
    (ordered : w.tuner.ph = .finishing ↔ shutsDown w.queued) :
    EndsSafely formulas (.tick t) w ↔ (t.mode.isFiring = true → ¬(w.tuner.note t).TimesOut t) := by
  have meaning : EndsSafely formulas (.tick t) w ↔
      ((w.tuner.tick formulas w.desk.learning t).tuner.running = false → t.mode.isFiring = true →
        shutsDown w.queued ∨ shutsDown (w.tuner.tick formulas w.desk.learning t).orders) := by
    rw [← shutsDown_append]
    exact ⟨fun safe => safe running, fun safe _ => safe⟩
  rw [meaning]
  cases Tuner.ticked_tick formulas running w.desk.learning t with
  | ended isOver no_orders why =>
    rw [or_iff_left no_orders, ← ordered]
    rcases why with outside | ⟨_, out | finishing⟩
    · have idle := Tuner.not_firing_of_endedBy outside
      exact iff_of_true (fun _ firing => absurd firing (by rw [idle]; decide))
        (fun firing => absurd firing (by rw [idle]; decide))
    · constructor
      · intro safe firing
        exact absurd (safe isOver firing) out.not_finishing
      · intro spared _ firing
        exact absurd out (spared firing)
    · exact iff_of_true (fun _ _ => finishing) (fun _ out => out.not_finishing finishing)
  | stays same within _ _ =>
    refine iff_of_true (fun isOver => ?_) (fun _ => within.not_timesOut)
    rw [same.running] at isOver
    exact absurd (running.symm.trans isOver) (by decide)
  | moves _ in_time still _ _ _ _ _ _ _ =>
    refine iff_of_true (fun isOver => ?_) (fun _ => in_time)
    rw [still] at isOver
    exact absurd (running.symm.trans isOver) (by decide)

/-- A beat ends a run safely exactly where the run is spared by it. -/
theorem endsSafely_iff (formulas : RelayFormulas) (b : Beat) (w : Course) (ordered : Ordered w) :
    EndsSafely formulas b w ↔ Spared b w := by
  cases b with
  | tick t =>
    by_cases running : w.tuner.running = true
    · rw [endsSafely_tick formulas t running (ordered running)]
      constructor
      · rintro safe _ _ ⟨rfl⟩
        exact safe
      · exact fun spared => spared running t rfl
    · exact iff_of_true (fun going => absurd going running) (fun going => absurd going running)
  | stop now =>
    refine iff_of_true (fun running _ _ => ?_) (fun _ _ same => by cases same)
    change shutsDown (w.queued ++ (w.tuner.stop now).2)
    rw [shutsDown_append, Tuner.stop, if_pos running]
    exact Or.inr (by simp [shutsDown])
  | skip i skip =>
    refine iff_of_true (fun running isOver => ?_) (fun _ _ same => by cases same)
    have kept : (w.tuner.chooseSkip i skip).1.running = w.tuner.running := by
      rw [Tuner.chooseSkip]
      split <;> rfl
    exact absurd (running.symm.trans (kept.symm.trans isOver)) (by decide)
  | capture | fopdt | result =>
    refine iff_of_true (fun running isOver => ?_) (fun _ _ same => by cases same)
    exact absurd (running.symm.trans isOver) (by decide)

/-- A run over one set point, with nothing learned. -/
def onePoint : Turn :=
  beginRun ⟨Library.empty, none, none, Learning.noResult, 0⟩ ⟨[107], by decide, by decide⟩ false
    false .c

end PiFire.Tuning
