import Mathlib.Tactic.Positivity
import PiFire.Tuning.Begin

/-!
# How long a tuning run may take

A tick ends the run, stays in its phase within the limit of that, or begins another
phase. From this the run is over in time, and it is known which ticks end it.
-/

namespace PiFire.Tuning

open Transition

namespace Tuner

/-- Since when the pit is near the set point, with this look. -/
def closeSince (g : Tuner) (t : Look) : ℚ :=
  let band : ℚ := if t.units = .c then 8 else 15
  let close : Bool := t.pit.any fun pit => 0 < t.setpoint ∧ |pit - t.setpoint| ≤ band
  if close then if g.stableSince = 0 then t.now else g.stableSince else 0

/-- The pit has been near the set point for long enough. -/
def settled (g : Tuner) (t : Look) : Prop :=
  g.closeSince t > 0 ∧ t.now - g.closeSince t ≥ 300

instance (g : Tuner) (t : Look) : Decidable (g.settled t) :=
  inferInstanceAs (Decidable (_ ∧ _))

/-- The tuner as it goes on waiting for the pit to settle. -/
def wait (g : Tuner) (t : Look) : Tuner :=
  { g with stableSince := g.closeSince t, settleFromC := g.settleFromC.or t.pit }

/-- A phase has come to the end of its time: the start, a settling or a test. -/
def TimesOut (g : Tuner) (t : Look) : Prop :=
  match g.ph with
  | .starting => t.mode ≠ .hold ∧ t.now - g.phaseStart > 1800
  | .settling => ¬g.settled t ∧ t.now - g.phaseStart > (g.wait t).allowance t
  | .testing => t.atActive = true ∧ t.now - g.phaseStart > 9000
  | _ => False

/-- A phase that goes on after this look is still within its time. -/
def Lasts (g : Tuner) (t : Look) : Prop :=
  match g.ph with
  | .starting => t.now - g.phaseStart ≤ 1800
  | .settling => t.now - g.phaseStart ≤ (g.wait t).allowance t
  | .testing => t.now - g.phaseStart ≤ 9000
  | .verifying => t.now - g.phaseStart ≤ 1500
  | .finishing => t.now - g.phaseStart ≤ 900
  | .next => False
  | _ => True

/-- Where a run is, for its time. -/
structure SamePlace (g g' : Tuner) : Prop where
  running : g'.running = g.running
  ph : g'.ph = g.ph
  phaseStart : g'.phaseStart = g.phaseStart
  pointsC : g'.pointsC = g.pointsC
  step : g'.step = g.step
  tries : g'.tries = g.tries

/-- Another phase begins, at the same set point, again, or at the next. -/
inductive Follows (g : Tuner) : TunePhase → ℕ → ℕ → Prop
  | settle (from_ : g.ph = .starting) : Follows g .settling g.step g.tries
  | test (from_ : g.ph = .settling) : Follows g .testing g.step g.tries
  | verify (from_ : g.ph = .testing) : Follows g .verifying g.step g.tries
  | again (from_ : g.ph = .testing) (few : g.tries < 2) : Follows g .settling g.step (g.tries + 1)
  | skip (from_ : g.ph = .testing) : Follows g .next g.step g.tries
  | verified (from_ : g.ph = .verifying) : Follows g .next g.step g.tries
  | next (from_ : g.ph = .next) (more : g.step + 1 < g.pointsC.length) :
      Follows g .settling (g.step + 1) 0
  | finish (from_ : g.ph = .next) : Follows g .finishing (g.step + 1) g.tries

/-- What a tick does that finds the run going; `g` has noted the look. -/
inductive Ticked (g : Tuner) (t : Look) : Turn → Prop
  | ended {turn : Turn} (isOver : turn.tuner.running = false) (no_orders : ¬shutsDown turn.orders)
      (why : g.endedBy t = true ∨ g.endedBy t = false ∧ (g.TimesOut t ∨ g.ph = .finishing)) :
      Ticked g t turn
  | stays {turn : Turn} (same : g.SamePlace turn.tuner) (within : g.Lasts t)
      (settle : turn.tuner.settleFromC = g.settleFromC ∨
        turn.tuner.settleFromC = g.settleFromC.or t.pit)
      (no_orders : ¬shutsDown turn.orders) : Ticked g t turn
  | moves {turn : Turn} {p : TunePhase} {step tries : ℕ} (follows : g.Follows p step tries)
      (in_time : ¬g.TimesOut t) (running : turn.tuner.running = g.running)
      (ph : turn.tuner.ph = p) (begins : turn.tuner.phaseStart = t.now) (pointsC : turn.tuner.pointsC = g.pointsC)
      (at_step : turn.tuner.step = step) (at_tries : turn.tuner.tries = tries)
      (settle : turn.tuner.settleFromC = none)
      (orders : shutsDown turn.orders ↔ p = .finishing) : Ticked g t turn

theorem finish_orders (g : Tuner) (ok : Bool) (now : ℚ) : ¬shutsDown (g.finish ok now).2 := by
  rw [finish, shutsDown]
  split <;> simp

variable {formulas : RelayFormulas} {g : Tuner} {l : Learning} {t : Look}

theorem ticked_finish (ok : Bool)
    (why : g.endedBy t = true ∨ g.endedBy t = false ∧ (g.TimesOut t ∨ g.ph = .finishing)) :
    Ticked g t ⟨(g.finish ok t.now).1, l, (g.finish ok t.now).2⟩ :=
  .ended rfl (g.finish_orders ok t.now) why

theorem settle_eq (g : Tuner) (l : Learning) (t : Look) : g.settle l t =
    if g.settled t then
      ⟨{ { g with stableSince := g.closeSince t }.setPhase .testing t.now with
          atGen := l.autotuneGen, prevResult := l.autotune }, l, [.autotuneStart]⟩
    else if t.now - g.phaseStart > (g.wait t).allowance t then
      ⟨((g.wait t).finish false t.now).1, l, ((g.wait t).finish false t.now).2⟩
    else ⟨g.wait t, l, []⟩ := rfl

theorem not_shutsDown_nil : ¬shutsDown [] := List.not_mem_nil

theorem not_shutsDown_singleton {c : Cmd} (other : c ≠ .mode .shutdown 0 false) :
    ¬shutsDown [c] := by
  rw [shutsDown, List.mem_singleton]
  exact Ne.symm other

theorem ticked_same (within : g.Lasts t) : Ticked g t ⟨g, l, []⟩ :=
  .stays ⟨rfl, rfl, rfl, rfl, rfl, rfl⟩ within (Or.inl rfl) not_shutsDown_nil

theorem ticked_settle (going : g.endedBy t = false) (settling : g.ph = .settling) :
    Ticked g t (g.settle l t) := by
  rw [settle_eq]
  split
  · rename_i settled
    have in_time : ¬g.TimesOut t := by
      rw [TimesOut, settling]
      exact fun out => out.1 settled
    apply Ticked.moves (.test settling) in_time rfl rfl rfl rfl rfl rfl rfl
    exact iff_of_false (not_shutsDown_singleton (by decide)) (by decide)
  · rename_i unsettled
    split
    · rename_i isOver
      have out : g.TimesOut t := by
        rw [TimesOut, settling]
        exact ⟨unsettled, isOver⟩
      exact .ended rfl ((g.wait t).finish_orders false t.now) (Or.inr ⟨going, Or.inl out⟩)
    · rename_i within
      refine Ticked.stays ⟨rfl, rfl, rfl, rfl, rfl, rfl⟩ ?_ (Or.inr rfl) not_shutsDown_nil
      rw [Lasts, settling]
      exact not_lt.mp within

theorem ticked_test (going : g.endedBy t = false) (testing : g.ph = .testing) :
    Ticked g t (g.test formulas l t) := by
  rw [test]
  dsimp only
  split
  · rename_i active
    split
    · rename_i isOver
      have out : g.TimesOut t := by
        rw [TimesOut, testing]
        exact ⟨active, isOver⟩
      exact ticked_finish false (Or.inr ⟨going, Or.inl out⟩)
    · rename_i within
      apply ticked_same
      rw [Lasts, testing]
      exact not_lt.mp within
  · rename_i inactive
    have in_time : ¬g.TimesOut t := by
      rw [TimesOut, testing]
      exact fun out => inactive out.1
    split
    · rename_i early
      apply ticked_same
      rw [Lasts, testing]
      linarith
    · split
      · apply Ticked.moves (.verify testing) in_time rfl rfl rfl rfl rfl rfl rfl
        exact iff_of_false not_shutsDown_nil (by decide)
      · split
        · rename_i again
          apply Ticked.moves (.again testing again.2) in_time rfl rfl rfl rfl rfl rfl rfl
          exact iff_of_false not_shutsDown_nil (by decide)
        · apply Ticked.moves (.skip testing) in_time rfl rfl rfl rfl rfl rfl rfl
          exact iff_of_false not_shutsDown_nil (by decide)

theorem samePlace_watchHold (g : Tuner) (t : Look) :
    g.SamePlace (g.watchHold t) ∧ (g.watchHold t).settleFromC = g.settleFromC := by
  rw [watchHold]
  split
  · split <;> exact ⟨⟨rfl, rfl, rfl, rfl, rfl, rfl⟩, rfl⟩
  · exact ⟨⟨rfl, rfl, rfl, rfl, rfl, rfl⟩, rfl⟩

theorem ticked_verify (verifying : g.ph = .verifying) : Ticked g t (g.verify l t) := by
  obtain ⟨same, settle⟩ := g.samePlace_watchHold t
  have moved (turn : Turn) (tuner : turn.tuner = (g.watchHold t).setPhase .next t.now)
      (orders : ¬shutsDown turn.orders) : Ticked g t turn := by
    apply Ticked.moves (.verified verifying)
    · rw [TimesOut, verifying]
      exact id
    · rw [tuner]
      exact same.running
    · rw [tuner]
      rfl
    · rw [tuner]
      rfl
    · rw [tuner]
      exact same.pointsC
    · rw [tuner]
      exact same.step
    · rw [tuner]
      exact same.tries
    · rw [tuner]
      rfl
    · exact iff_of_false orders (by decide)
  rw [verify]
  split
  · exact moved _ rfl not_shutsDown_nil
  · split
    · rename_i early
      rw [same.phaseStart] at early
      refine Ticked.stays same ?_ (Or.inl settle) not_shutsDown_nil
      rw [Lasts, verifying]
      exact early.le
    · split
      · exact moved _ rfl not_shutsDown_nil
      · exact moved _ rfl (not_shutsDown_singleton (by decide))

theorem ticked_advance (next : g.ph = .next) : Ticked g t (g.advance l t) := by
  have in_time : ¬g.TimesOut t := by
    rw [TimesOut, next]
    exact id
  rw [advance]
  split
  · apply Ticked.moves (.finish next) in_time rfl rfl rfl rfl rfl rfl rfl
    exact iff_of_true List.mem_cons_self rfl
  · rename_i more
    apply Ticked.moves (.next next (not_le.mp more)) in_time rfl rfl rfl rfl rfl rfl rfl
    exact iff_of_false (not_shutsDown_singleton nofun) (by decide)

theorem ticked_tick (formulas : RelayFormulas) (running : g.running = true) (l : Learning)
    (t : Look) : Ticked (g.note t) t (g.tick formulas l t) := by
  rw [tick, if_pos running]
  dsimp only
  split
  · rename_i ended
    exact ticked_finish false (Or.inl ended)
  · rename_i not_ended
    have going : (g.note t).endedBy t = false := by simpa using not_ended
    cases ph : (g.note t).ph with
    | starting =>
      dsimp only
      split
      · rename_i hold
        have in_time : ¬(g.note t).TimesOut t := by
          rw [TimesOut, ph]
          exact fun out => out.1 hold
        apply Ticked.moves (.settle ph) in_time rfl rfl rfl rfl rfl rfl rfl
        exact iff_of_false not_shutsDown_nil (by decide)
      · rename_i not_hold
        split
        · rename_i isOver
          have out : (g.note t).TimesOut t := by
            rw [TimesOut, ph]
            exact ⟨not_hold, isOver⟩
          exact ticked_finish false (Or.inr ⟨going, Or.inl out⟩)
        · rename_i within
          apply ticked_same
          rw [Lasts, ph]
          exact not_lt.mp within
    | settling => exact ticked_settle going ph
    | testing => exact ticked_test going ph
    | verifying => exact ticked_verify ph
    | next => exact ticked_advance ph
    | finishing =>
      dsimp only
      split
      · exact ticked_finish _ (Or.inr ⟨going, Or.inr ph⟩)
      · rename_i not_over
        apply ticked_same
        rw [Lasts, ph]
        by_contra isOver
        exact not_over (Or.inr (not_le.mp isOver))
    | idle | done | failed =>
      apply ticked_same
      rw [Lasts, ph]
      trivial

/-! ### Time -/

/-- How long a phase may last. -/
def phaseLimit (range : ℚ) : TunePhase → ℚ
  | .starting => 1800
  | .settling => settleLimit range
  | .testing => 9000
  | .verifying => 1500
  | .finishing => 900
  | _ => 0

/-- How long it may take to settle and be tested. -/
def attemptLimit (tick range : ℚ) : ℚ := tick + settleLimit range + (tick + 9000)

/-- How long so many set points may take, and the end of the run. -/
def pointsLimit (tick range points : ℚ) : ℚ := points * pointLimit tick range + (tick + 900)

/-- How long all that comes after a phase may take. -/
def leftAfter (tick range : ℚ) (g : Tuner) : ℚ :=
  match g.ph with
  | .starting => pointsLimit tick range g.pointsC.length
  | .settling =>
    tick + 9000 + (2 - g.tries) * attemptLimit tick range + (tick + 1500 + tick) +
      pointsLimit tick range (g.pointsC.length - g.step - 1)
  | .testing =>
    (2 - g.tries) * attemptLimit tick range + (tick + 1500 + tick) +
      pointsLimit tick range (g.pointsC.length - g.step - 1)
  | .verifying => tick + pointsLimit tick range (g.pointsC.length - g.step - 1)
  | .next => pointsLimit tick range (g.pointsC.length - g.step - 1)
  | _ => 0

/-- The phases of a run as stages. -/
def stages (tick range : ℚ) : Stages Tuner ℚ :=
  { since := phaseStart, limit := fun g => phaseLimit range g.ph, left := leftAfter tick range }

/-- A run that is going is in a phase of a run, at one of its set points. -/
structure Placed (range : ℚ) (g : Tuner) : Prop where
  phase : g.ph ∈ [TunePhase.starting, .settling, .testing, .verifying, .next, .finishing]
  first : g.ph = .starting → g.step = 0 ∧ g.tries = 0
  place : g.ph = .finishing ∨ g.step < g.pointsC.length
  tries : g.tries ≤ 2
  warm : ∀ from_, g.settleFromC = some from_ → |from_| ≤ range

variable {tick range : ℚ} {g' : Tuner} {turn : Turn}

theorem allowance_le (warm : ∀ from_, g.settleFromC = some from_ → |from_| ≤ range)
    (nonneg : 0 ≤ range) (shown : |t.setpoint| ≤ range) :
    g.allowance t ≤ settleLimit range := by
  rw [allowance, settleLimit]
  split
  · rename_i from_ here
    split
    · have apart : |(from_ - t.setpoint) * 9 / 5| ≤ 2 * range * (9 / 5) := by
        rw [mul_div_assoc, abs_mul, abs_of_pos (by norm_num : (0 : ℚ) < 9 / 5)]
        have both := abs_sub from_ t.setpoint
        have far := warm from_ here
        gcongr
        linarith
      have slow : |(from_ - t.setpoint) * 9 / 5| / (if from_ > t.setpoint then 3 / 2 else 5) ≤
          2 * range * (9 / 5) / (3 / 2) := by
        split
        · gcongr
        · calc
            |(from_ - t.setpoint) * 9 / 5| / 5 ≤ |(from_ - t.setpoint) * 9 / 5| / (3 / 2) := by
              gcongr
              norm_num
            _ ≤ 2 * range * (9 / 5) / (3 / 2) := by gcongr
      linarith
    · linarith
  · linarith

theorem Lasts.inTime (lasts : g.Lasts t) (placed : Placed range g) (nonneg : 0 ≤ range)
    (shown : |t.setpoint| ≤ range) (read : ∀ pit, t.pit = some pit → |pit| ≤ range) :
    (stages tick range).InTime t.now g := by
  rw [Stages.InTime]
  change t.now ≤ g.phaseStart + phaseLimit range g.ph
  have phase := placed.phase
  rw [Lasts] at lasts
  cases ph : g.ph with
  | settling =>
    rw [ph] at lasts
    dsimp only at lasts
    have warm : ∀ from_, (g.wait t).settleFromC = some from_ → |from_| ≤ range := by
      intro from_ here
      rcases Option.or_eq_some_iff.mp here with before | ⟨_, now⟩
      · exact placed.warm from_ before
      · exact read from_ now
    have allowed := allowance_le (t := t) warm nonneg shown
    rw [phaseLimit]
    linarith
  | starting | testing | verifying | finishing =>
    rw [ph] at lasts
    dsimp only at lasts
    rw [phaseLimit]
    linarith
  | next =>
    rw [ph] at lasts
    exact lasts.elim
  | idle | done | failed =>
    rw [ph] at phase
    simp at phase

theorem attemptLimit_nonneg (tick_nonneg : 0 ≤ tick) (nonneg : 0 ≤ range) :
    0 ≤ attemptLimit tick range := by
  rw [attemptLimit, settleLimit]
  linarith

theorem pointLimit_eq (tick range : ℚ) :
    pointLimit tick range = 3 * attemptLimit tick range + (tick + 1500 + tick) := by
  rw [pointLimit, attemptLimit]
  ring

theorem pointsLimit_nonneg (tick_nonneg : 0 ≤ tick) (nonneg : 0 ≤ range) {points : ℚ}
    (some_left : 0 ≤ points) : 0 ≤ pointsLimit tick range points := by
  have attempt := attemptLimit_nonneg tick_nonneg nonneg
  have point : 0 ≤ pointLimit tick range := by
    rw [pointLimit_eq]
    linarith
  rw [pointsLimit]
  have all := mul_nonneg some_left point
  linarith

theorem phaseLimit_nonneg (nonneg : 0 ≤ range) (p : TunePhase) : 0 ≤ phaseLimit range p := by
  cases p with
  | settling =>
    rw [phaseLimit, settleLimit]
    linarith
  | starting | testing | verifying | finishing =>
    rw [phaseLimit]
    norm_num
  | idle | next | done | failed => exact le_rfl

/-- A phase that is followed by another had time set aside for it. -/
theorem Follows.left {p : TunePhase} {step tries : ℕ} (follows : g.Follows p step tries)
    (placed : Placed range g) (tick_nonneg : 0 ≤ tick) (nonneg : 0 ≤ range) (ph : g'.ph = p)
    (pointsC : g'.pointsC = g.pointsC) (at_step : g'.step = step) (at_tries : g'.tries = tries) :
    tick + phaseLimit range g'.ph + leftAfter tick range g' ≤ leftAfter tick range g := by
  have attempt := attemptLimit_nonneg tick_nonneg nonneg
  have few : (0 : ℚ) ≤ 2 - g.tries := by
    rw [sub_nonneg]
    exact_mod_cast placed.tries
  have spare := mul_nonneg few attempt
  have point := pointLimit_eq tick range
  cases follows with
  | settle from_ =>
    obtain ⟨step, tries⟩ := placed.first from_
    simp only [leftAfter, phaseLimit, ph, from_, pointsC, at_step, at_tries, step, tries]
    rw [pointsLimit, pointsLimit, point, attemptLimit, Nat.cast_zero]
    linarith
  | test from_ =>
    simp only [leftAfter, phaseLimit, ph, from_, pointsC, at_step, at_tries]
    linarith
  | verify from_ =>
    simp only [leftAfter, phaseLimit, ph, from_, pointsC, at_step]
    linarith
  | again from_ more =>
    simp only [leftAfter, phaseLimit, ph, from_, pointsC, at_step, at_tries]
    rw [Nat.cast_succ, attemptLimit]
    linarith
  | skip from_ =>
    simp only [leftAfter, phaseLimit, ph, from_, pointsC, at_step]
    linarith
  | verified from_ =>
    simp only [leftAfter, phaseLimit, ph, from_, pointsC, at_step]
    linarith
  | next from_ more =>
    simp only [leftAfter, phaseLimit, ph, from_, pointsC, at_step, at_tries]
    rw [pointsLimit, pointsLimit, point, attemptLimit, Nat.cast_succ, Nat.cast_zero]
    linarith
  | finish from_ =>
    have inside : (0 : ℚ) ≤ g.pointsC.length - g.step - 1 := by
      rcases placed.place with finishing | inside
      · rw [from_] at finishing
        cases finishing
      · have casted : (g.step : ℚ) + 1 ≤ g.pointsC.length := by exact_mod_cast inside
        linarith
    have rest := mul_nonneg inside (by rw [point]; linarith : 0 ≤ pointLimit tick range)
    simp only [leftAfter, phaseLimit, ph, from_]
    rw [pointsLimit]
    linarith

theorem Follows.placed {p : TunePhase} {step tries : ℕ} (follows : g.Follows p step tries)
    (placed : Placed range g) (ph : g'.ph = p) (pointsC : g'.pointsC = g.pointsC)
    (at_step : g'.step = step) (at_tries : g'.tries = tries) (settle : g'.settleFromC = none) :
    Placed range g' := by
  have inside : g.ph ≠ .finishing → g.step < g.pointsC.length := fun going =>
    placed.place.resolve_left going
  have warm : ∀ from_, g'.settleFromC = some from_ → |from_| ≤ range := by
    rw [settle]
    rintro _ ⟨⟩
  cases follows with
  | settle from_ | test from_ | verify from_ | skip from_ | verified from_ =>
    refine ⟨by simp [ph], by simp [ph], Or.inr ?_, at_tries.trans_le placed.tries, warm⟩
    rw [at_step, pointsC]
    exact inside (by rw [from_]; decide)
  | again from_ few =>
    refine ⟨by simp [ph], by simp [ph], Or.inr ?_, at_tries.trans_le few, warm⟩
    rw [at_step, pointsC]
    exact inside (by rw [from_]; decide)
  | next from_ more =>
    refine ⟨by simp [ph], by simp [ph], Or.inr ?_, at_tries.trans_le (by decide), warm⟩
    rw [at_step, pointsC]
    exact more
  | finish from_ =>
    exact ⟨by simp [ph], by simp [ph], Or.inl ph, at_tries.trans_le placed.tries, warm⟩

theorem Ticked.goes (ticked : g.Ticked t turn) (placed : Placed range g)
    (tick_nonneg : 0 ≤ tick) (nonneg : 0 ≤ range) (shown : |t.setpoint| ≤ range) (read : ∀ pit, t.pit = some pit → |pit| ≤ range) :
    turn.tuner.running = false ∨
      (stages tick range).Goes tick t.now g turn.tuner ∧ Placed range turn.tuner ∧
        turn.tuner.pointsC = g.pointsC := by
  cases ticked with
  | ended isOver _ _ => exact Or.inl isOver
  | stays same within settle _ =>
    right
    have limit : phaseLimit range turn.tuner.ph = phaseLimit range g.ph := by rw [same.ph]
    have left : leftAfter tick range turn.tuner = leftAfter tick range g := by
      rw [leftAfter, leftAfter, same.ph, same.pointsC, same.step, same.tries]
    refine ⟨.stays same.phaseStart limit left ?_, ?_, same.pointsC⟩
    · have inTime : (stages tick range).InTime t.now g :=
        Lasts.inTime within placed nonneg shown read
      rw [Stages.InTime] at inTime ⊢
      change t.now ≤ turn.tuner.phaseStart + phaseLimit range turn.tuner.ph
      rw [same.phaseStart, same.ph]
      exact inTime
    · refine ⟨by rw [same.ph]; exact placed.phase, ?_, ?_, same.tries.trans_le placed.tries, ?_⟩
      · rw [same.ph, same.step, same.tries]
        exact placed.first
      · rw [same.ph, same.step, same.pointsC]
        exact placed.place
      · intro from_ here
        rcases settle with kept | joined
        · exact placed.warm from_ (kept ▸ here)
        · rw [joined, Option.or_eq_some_iff] at here
          rcases here with before | ⟨_, now⟩
          · exact placed.warm from_ before
          · exact read from_ now
  | moves follows _ _ ph begins pointsC at_step at_tries settle _ =>
    right
    refine ⟨.moves begins (phaseLimit_nonneg nonneg _) ?_, ?_, pointsC⟩
    · exact follows.left placed tick_nonneg nonneg ph pointsC at_step at_tries
    · exact follows.placed placed ph pointsC at_step at_tries settle

end Tuner

end PiFire.Tuning
