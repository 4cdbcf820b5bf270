import Mathlib.Algebra.Order.Archimedean.Basic
import PiFire.Swing.Sound
import PiFire.Transition.Timed

/-!
# How the relay test ends

A test is over after finitely many ticks, unless from some tick on it always finds the pit
to one side, without a crossing for longer than the limit, the centre at the edge of the
feed, and the last tick too long ago: then it waits, and does not come to its time limit.
-/

namespace PiFire.Swing

open Transition

namespace Test

variable {t : Look} {s s' : Test}

/-- Without a crossing for longer than the limit, the test waits for the pit. -/
def Stuck (t : Look) (s : Test) : Prop :=
  s.want t = s.phase ∧ t.now - s.lastCrossT > 1800 ∧ s.offCentre t = true ∧ s.atEdge t = true

/-- What is left to a test: moves of the centre, and crossings at this one. -/
def chances (s : Test) : ℕ := (8 - s.recentres) * atMax + (atMax - s.crossings)

/-- What a tick does to a test that runs. -/
inductive Goes (excused : Prop) (t : Look) (s s' : Test) : Prop
  | isOver (ended : s'.active = false)
  | takes (running : s'.active = true) (fewer : s'.chances < s.chances)
  | waits (running : s'.active = true) (same : s'.chances = s.chances)
      (kept : s'.lastCrossT = s.lastCrossT) (why : t.now ≤ s.lastCrossT + 1800 ∨ excused)

theorem Sound.ended (sound : s.Sound) (limits : s'.Limited)
    (corrected : s'.adjustAtCross = s.adjustAtCross) (crossings : s'.crossings = s.crossings)
    (ended : s'.active = false) : s'.Sound := by
  refine ⟨limits, corrected.trans_le sound.corrected, crossings.trans_le sound.crossings, ?_⟩
  rw [ended]
  rintro ⟨⟩

theorem chances_recentre (few : s.recentres < 8) (room : s.crossings < atMax) :
    (s.recentre t).chances < s.chances := by
  change (8 - (s.recentres + 1)) * atMax + (atMax - 0) <
    (8 - s.recentres) * atMax + (atMax - s.crossings)
  rw [atMax] at room ⊢
  omega

theorem goOn_goes (t : Look) (sound : s.Sound) (running : s.active = true) :
    (s.goOn t).test.Sound ∧
      Goes (s.offCentre t = true ∧ s.atEdge t = true) t s (s.goOn t).test := by
  obtain ⟨recentres, resizes, adjusts⟩ := sound.toLimited
  rw [goOn]
  split
  · rename_i off
    dsimp only
    split
    · rename_i edge
      exact ⟨⟨⟨recentres, resizes, adjusts⟩, sound.corrected, sound.crossings, sound.room⟩,
        .waits running rfl rfl (Or.inr ⟨off, edge⟩)⟩
    · have few : s.recentres < 8 := by
        rw [offCentre, decide_eq_true_eq] at off
        exact off.2.2
      constructor
      · exact ⟨⟨few, resizes, adjusts⟩, sound.corrected, Nat.zero_le _, fun _ => Nat.succ_pos _⟩
      · exact .takes running (chances_recentre few (sound.room running))
  · split
    · exact ⟨sound.ended ⟨recentres, resizes, adjusts⟩ rfl rfl rfl, .isOver rfl⟩
    · split
      · exact ⟨sound.ended ⟨recentres, resizes, adjusts⟩ rfl rfl rfl, .isOver rfl⟩
      · rename_i within
        exact ⟨sound, .waits running rfl rfl (Or.inl (by linarith))⟩

/-- Where there is no crossing, a tick ends the test, takes a move of the centre, or waits. -/
theorem goOn_quiet (t : Look) (sound : s.Sound) (running : s.active = true)
    (quiet : s.want t = s.phase) :
    ((s.trackPeaks t).goOn t).test.Sound ∧
      Goes (s.Stuck t) t s ((s.trackPeaks t).goOn t).test := by
  have tracked : (s.trackPeaks t).Sound :=
    ⟨⟨sound.recentres, sound.resizes, sound.adjusts⟩, sound.corrected, sound.crossings, sound.room⟩
  obtain ⟨after, goes⟩ := goOn_goes t tracked running
  refine ⟨after, ?_⟩
  cases goes with
  | isOver ended => exact .isOver ended
  | takes running fewer => exact .takes running fewer
  | waits running same kept why =>
    refine .waits running same kept ?_
    rcases why with within | ⟨off, edge⟩
    · exact Or.inl within
    · by_cases within : t.now ≤ s.lastCrossT + 1800
      · exact Or.inl within
      · exact Or.inr ⟨quiet, by linarith, off, edge⟩

theorem step_goes (t : Look) (sound : s.Sound) (running : s.active = true) :
    ∃ a, s.step t = some a ∧ a.test.Sound ∧ Goes (s.Stuck t) t s a.test := by
  rw [step]
  split
  · obtain ⟨crossed, cross_eq, active, count, recentres, resizes, adjusts, corrected, _⟩ :=
      exists_cross (s := s.trackPeaks t) t (sound.room running)
    have limited : crossed.Limited :=
      ⟨recentres.trans_le sound.recentres, resizes.trans_le sound.resizes,
        adjusts.trans_le sound.adjusts⟩
    obtain ⟨conditioned, condition_eq, after⟩ :=
      exists_condition t limited (corrected.trans_le sound.corrected)
    obtain ⟨complete, complete_eq, unfinished⟩ := exists_complete after.adjustAtCross
    have places : conditioned.crossings = s.crossings + 1 := after.crossings.trans count
    have moves : conditioned.recentres = s.recentres := after.recentres.trans recentres
    have here : conditioned.Limited :=
      ⟨moves.trans_le sound.recentres, after.resizes, after.adjusts⟩
    have inside : conditioned.crossings ≤ atMax := places.trans_le (sound.room running)
    have fewer : conditioned.chances < s.chances := by
      have room := sound.room running
      rw [chances, chances, places, moves]
      omega
    rw [cross_eq]
    dsimp only [bind, Option.bind]
    rw [condition_eq]
    dsimp only
    rw [complete_eq]
    cases complete with
    | true =>
      obtain ⟨outcome, read_eq⟩ := exists_read t conditioned
      dsimp only
      rw [if_pos rfl, read_eq]
      refine ⟨_, rfl, ⟨⟨here.recentres, here.resizes, here.adjusts⟩, after.adjustAtCross, inside,
        ?_⟩, .isOver rfl⟩
      rintro ⟨⟩
    | false =>
      dsimp only
      rw [if_neg (by decide)]
      have still : conditioned.active = true := after.active.trans (active.trans running)
      obtain ⟨sound_after, goes⟩ := goOn_goes t
        ⟨here, after.adjustAtCross, inside, fun _ => unfinished rfl⟩ still
      refine ⟨_, rfl, sound_after, ?_⟩
      cases goes with
      | isOver ended => exact .isOver ended
      | takes running less => exact .takes running (less.trans fewer)
      | waits running same _ _ => exact .takes running (same.trans_lt fewer)
  · rename_i quiet
    exact ⟨_, rfl, goOn_quiet t sound running (not_not.mp quiet)⟩

end Test

/-- A tick finds the test waiting: the cycle of Hold is not done, the lid is open, or the test
is stuck. -/
def Run.Waits (t : Look) (r : Run) : Prop :=
  r.test.active = true ∧ (cycleDone r.cycle t.now = true → t.lidOpen = true ∨ r.test.Stuck t)

namespace Test

variable {t : Look} {s s' : Test} {excused other : Prop}

theorem Sound.tally (sound : s.Sound) (uApplied : ℚ) : (s.tally t uApplied).Sound :=
  ⟨⟨sound.recentres, sound.resizes, sound.adjusts⟩, sound.corrected, sound.crossings, sound.room⟩

theorem Goes.tally (goes : Goes excused t s s') (uApplied : ℚ) :
    Goes excused t s (s'.tally t uApplied) := by
  cases goes with
  | isOver ended => exact .isOver ended
  | takes running fewer => exact .takes running fewer
  | waits running same kept why => exact .waits running same kept why

theorem Goes.imp (goes : Goes excused t s s') (implies : excused → other) :
    Goes other t s s' := by
  cases goes with
  | isOver ended => exact .isOver ended
  | takes running fewer => exact .takes running fewer
  | waits running same kept why => exact .waits running same kept (why.imp_right implies)

end Test

theorem Run.tick_over (t : Look) {r : Run} (isOver : r.test.active = false) : r.tick t = some r := by
  rw [Run.tick, if_neg]
  rintro ⟨running, _⟩
  exact absurd (running.symm.trans isOver) (by decide)

theorem Run.ask_goes (t : Look) {r : Run} (sound : r.test.Sound) (running : r.test.active = true) :
    ∃ a, r.ask t = some a ∧ a.test.Sound ∧ Test.Goes (r.Waits t) t r.test a.test := by
  rw [Run.ask]
  split
  · rename_i lid
    exact ⟨_, rfl, sound, .waits running rfl rfl (Or.inr ⟨running, fun _ => Or.inl lid⟩)⟩
  · obtain ⟨a, step_eq, after, goes⟩ := Test.step_goes t sound running
    exact ⟨a, step_eq, after, goes.imp fun stuck => ⟨running, fun _ => Or.inr stuck⟩⟩

theorem Run.tick_goes (t : Look) {r : Run} (sound : r.test.Sound) (running : r.test.active = true) :
    ∃ r', r.tick t = some r' ∧ r'.test.Sound ∧ Test.Goes (r.Waits t) t r.test r'.test := by
  rw [Run.tick]
  split
  · obtain ⟨a, asked_eq, after, goes⟩ := r.ask_goes t sound running
    rw [asked_eq]
    refine ⟨_, rfl, ?_⟩
    dsimp only
    split
    · exact ⟨after.tally _, goes.tally _⟩
    · exact ⟨after, goes⟩
  · rename_i idle
    refine ⟨r, rfl, sound, .waits running rfl rfl (Or.inr ⟨running, fun done => ?_⟩)⟩
    exact absurd ⟨running, done⟩ idle

section Runs

variable {ticks : ℕ → Look} {r : Run}

/-- Every tick of a run reads and writes inside, and every count is within its limit. -/
theorem exists_states (ticks : ℕ → Look) (sound : r.test.Sound) (n : ℕ) :
    ∃ r', states ticks r n = some r' ∧ r'.test.Sound := by
  induction n with
  | zero => exact ⟨r, rfl, sound⟩
  | succ n ih =>
      obtain ⟨r', state_eq, sound'⟩ := ih
      rw [states, state_eq]
      cases running : r'.test.active with
      | false => exact ⟨r', r'.tick_over (ticks n) running, sound'⟩
      | true =>
        obtain ⟨next, tick_eq, after, _⟩ := r'.tick_goes (ticks n) sound' running
        exact ⟨next, tick_eq, after⟩

theorem states_over {n : ℕ} {r' : Run} (state_eq : states ticks r n = some r')
    (isOver : r'.test.active = false) {m : ℕ} (later : n ≤ m) : states ticks r m = some r' := by
  induction m, later using Nat.le_induction with
  | base => exact state_eq
  | succ m later ih =>
      rw [states, ih]
      exact r'.tick_over (ticks m) isOver

/-- A run that is never over waits from some tick on. -/
theorem eventually_waits (sound : r.test.Sound)
    (passes : ∀ time, ∃ first, ∀ n, first ≤ n → time < (ticks n).now)
    (never : ∀ n r', states ticks r n = some r' → r'.test.active = true) :
    ∃ first, ∀ n, first ≤ n → ∀ r', states ticks r n = some r' → r'.Waits (ticks n) := by
  choose state state_eq sound' using exists_states ticks sound
  have watched (n : ℕ) : Watched 1800 (fun n => (ticks n).now)
      (fun n => (state n).test.lastCrossT) (fun n => (state n).test.chances)
      (fun n => (state n).Waits (ticks n)) n := by
    obtain ⟨next, tick_eq, _, goes⟩ :=
      (state n).tick_goes (ticks n) (sound' n) (never n _ (state_eq n))
    have next_eq : state (n + 1) = next := by
      have stepped := state_eq (n + 1)
      rw [states, state_eq n] at stepped
      exact Option.some.inj (stepped.symm.trans tick_eq)
    rw [← next_eq] at goes
    cases goes with
    | isOver ended => exact absurd ((never _ _ (state_eq (n + 1))).symm.trans ended) (by decide)
    | takes _ fewer => exact .takes fewer
    | waits _ same kept why => exact .waits same kept why
  obtain ⟨first, waits⟩ := Watched.eventually_excused watched passes
  refine ⟨first, fun n later r' here => ?_⟩
  rw [state_eq n, Option.some.injEq] at here
  rw [← here]
  exact waits n later

theorem clock_passes {ns : ℕ → ℕ} (increasing : StrictMono ns)
    (clock : ∀ n, (ticks n).now = ns n / 10 ^ 9) (time : ℚ) :
    ∃ first, ∀ n, first ≤ n → time < (ticks n).now := by
  obtain ⟨first, passed⟩ := exists_nat_gt (time * 10 ^ 9)
  refine ⟨first, fun n later => ?_⟩
  have far : (first : ℚ) ≤ ns n := by
    exact_mod_cast later.trans increasing.le_apply
  rw [clock, lt_div_iff₀ (by positivity)]
  linarith

theorem sound_start (t : Look) (centre : ℚ) (sigma : Option ℚ) (rate : ℚ) :
    (start t centre sigma rate).test.Sound := by
  exact ⟨⟨Nat.zero_le _, Nat.zero_le _, Nat.zero_le _⟩, Nat.zero_le _, Nat.zero_le _,
    fun _ => Nat.succ_pos _⟩

/-- Under any ticks on a clock that goes on, a test reads and writes inside its arrays and
keeps its limits, and it ends, exactly where it does not wait from some tick on. -/
theorem test_ends_iff (begun : Look) (centre : ℚ) (sigma : Option ℚ) (rate : ℚ)
    (ticks : ℕ → Look) (ns : ℕ → ℕ) (increasing : StrictMono ns)
    (clock : ∀ n, (ticks n).now = ns n / 10 ^ 9) :
    (∃ n r, states ticks (start begun centre sigma rate) n = some r ∧ r.test.active = false) ∧
        (∀ n, ∃ r, states ticks (start begun centre sigma rate) n = some r ∧ r.test.Limited) ↔
      ¬∃ first, ∀ n, first ≤ n → ∀ r,
        states ticks (start begun centre sigma rate) n = some r → r.Waits (ticks n) := by
  have sound := sound_start begun centre sigma rate
  generalize start begun centre sigma rate = r at sound ⊢
  constructor
  · rintro ⟨⟨n, r', state_eq, isOver⟩, _⟩ ⟨first, waits⟩
    have still := states_over state_eq isOver (le_max_left n first)
    obtain ⟨running, _⟩ := waits _ (le_max_right n first) r' still
    exact absurd (running.symm.trans isOver) (by decide)
  · intro goes_on
    refine ⟨?_, fun n => ?_⟩
    · by_contra never
      apply goes_on
      apply eventually_waits sound (clock_passes increasing clock)
      intro n r' state_eq
      by_contra isOver
      exact never ⟨n, r', state_eq, by simpa using isOver⟩
    · obtain ⟨r', state_eq, sound'⟩ := exists_states ticks sound n
      exact ⟨r', state_eq, sound'.toLimited⟩

end Runs

theorem Test.step_waits {t : Look} {s : Test} (quiet : s.want t = s.phase)
    (off : s.offCentre t = true) (edge : s.atEdge t = true) :
    s.step t = some ⟨(s.trackPeaks t).waitOn t, ((s.trackPeaks t).waitOn t).output, none⟩ := by
  have tracked_quiet : (s.trackPeaks t).want t = (s.trackPeaks t).phase := quiet
  have tracked_off : (s.trackPeaks t).offCentre t = true := off
  have tracked_edge : (s.trackPeaks t).atEdge t = true := edge
  rw [Test.step, if_neg (not_not.mpr tracked_quiet), Test.goOn, if_pos tracked_off,
    if_pos tracked_edge]

/-- A pit that is a hundred degrees too hot, in cycles of a length. -/
def hotLook (cycleS now : ℚ) : Look :=
  { now := now, pitC := 200, pitValid := true, setpointC := 100, lidOpen := false, uFf := 0
    uMin := 1 / 20, uMax := 9 / 10
    ccfg := { cycleS := cycleS, uMin := 1 / 20, uMax := 9 / 10, maxOnS := 60 } }

/-- A test that begins with the centre at the edge of the feed. -/
def hotStart (cycleS : ℚ) : Run := start { hotLook cycleS 0 with pitC := 105 } (1 / 10) none 0

/-- In cycles of a hundred seconds, a test that is stuck gives up. -/
theorem hot_test_ends :
    (∃ n r, states (fun n => hotLook 100 (2000 + 100 * n)) (hotStart 100) n = some r ∧
        r.test.active = false) ∧
      ∀ n, ∃ r, states (fun n => hotLook 100 (2000 + 100 * n)) (hotStart 100) n = some r ∧
        r.test.Limited := by
  apply (test_ends_iff _ (1 / 10) none 0 (fun n => hotLook 100 (2000 + 100 * n))
    (fun n => (2000 + 100 * n) * 10 ^ 9) ?_ ?_).mpr
  · rintro ⟨first, waits⟩
    have isOver : ∃ r, states (fun n => hotLook 100 (2000 + 100 * n)) (hotStart 100) 2 = some r ∧
        r.test.active = false := by
      obtain ⟨r, state_eq, _⟩ := exists_states (fun n => hotLook 100 (2000 + 100 * n))
        (sound_start { hotLook 100 0 with pitC := 105 } (1 / 10) none 0) 2
      have active : (states (fun n => hotLook 100 (2000 + 100 * n)) (hotStart 100) 2).map
          (fun r => r.test.active) = some false := by
        decide +kernel
      refine ⟨r, state_eq, ?_⟩
      rw [hotStart, state_eq] at active
      exact Option.some.inj active
    obtain ⟨r, state_eq, isOver⟩ := isOver
    have still := states_over state_eq isOver (le_max_left 2 first)
    obtain ⟨running, _⟩ := waits _ (le_max_right 2 first) r still
    exact absurd (running.symm.trans isOver) (by decide)
  · intro n m later
    dsimp only
    omega
  · intro n
    change (2000 + 100 * n : ℚ) = _
    push_cast
    ring

/-- The test as it waits at the edge of the feed, in cycles of four hundred seconds. -/
structure Parked (n : ℕ) (r : Run) : Prop where
  active : r.test.active = true
  phase : r.test.phase = -1
  hystC : r.test.hystC = 1
  uCenter : r.test.uCenter = 1 / 10
  recentres : r.test.recentres = 0
  moved : r.test.lastRecentreT ≤ 400 * n
  begun : r.cycle.start ≤ 400 * n
  length : r.cycle.cycleS = 400

theorem Parked.tick {n : ℕ} {r : Run} (parked : Parked n r) :
    ∃ r', r.tick (hotLook 400 (400 * (n + 1))) = some r' ∧ Parked (n + 1) r' := by
  obtain ⟨active, phase, hystC, uCenter, recentres, moved, begun, length⟩ := parked
  have due : cycleDone r.cycle (hotLook 400 (400 * (n + 1))).now = true := by
    rw [cycleDone, length, Bool.or_eq_true, decide_eq_true_eq]
    right
    change (400 : ℚ) ≤ 400 * (n + 1) - r.cycle.start
    linarith
  have error : (hotLook 400 (400 * (n + 1))).error = 100 := by
    rw [Look.error, hotLook]
    norm_num
  have quiet : r.test.want (hotLook 400 (400 * (n + 1))) = r.test.phase := by
    rw [Test.want, error, phase, hystC]
    norm_num
  have far : Test.ranAway (hotLook 400 (400 * (n + 1))) = true := by
    rw [Test.ranAway, error, deltaToC]
    norm_num
  have off : r.test.offCentre (hotLook 400 (400 * (n + 1))) = true := by
    rw [Test.offCentre, decide_eq_true_eq, recentres]
    refine ⟨Or.inl far, ?_, by decide⟩
    change (400 * (n + 1) : ℚ) - r.test.lastRecentreT > 300
    linarith
  have edge : r.test.atEdge (hotLook 400 (400 * (n + 1))) = true := by
    rw [Test.atEdge, Test.moved, uCenter, if_pos far, error, decide_eq_true_eq, hotLook, clamp]
    norm_num
  have next : (400 * (n + 1) : ℚ) = 400 * ((n + 1 : ℕ) : ℚ) := by
    push_cast
    ring
  have shut : ¬(hotLook 400 (400 * (n + 1))).lidOpen = true := Bool.false_ne_true
  rw [Run.tick, if_pos ⟨active, due⟩, Run.ask, if_neg shut, Test.step_waits quiet off edge]
  refine ⟨_, rfl, ?_⟩
  have still : ((r.test.trackPeaks (hotLook 400 (400 * (n + 1)))).waitOn
      (hotLook 400 (400 * (n + 1)))).active = true := active
  dsimp only
  rw [if_pos still]
  exact ⟨active, phase, hystC, uCenter, recentres, next.le, next.le, rfl⟩

/-- In cycles of four hundred seconds, a test whose pit stays too hot at the least feed goes
on for ever. -/
theorem hot_test_goes_on :
    (∀ n : ℕ, (hotLook 400 (400 * (n + 1))).now < (hotLook 400 (400 * (n + 1 + 1))).now) ∧
      ¬∃ n r, states (fun n => hotLook 400 (400 * (n + 1))) (hotStart 400) n = some r ∧
        r.test.active = false := by
  have begins : Parked 0 (hotStart 400) := by
    refine ⟨rfl, ?_, ?_, ?_, rfl, ?_, ?_, rfl⟩
    all_goals decide +kernel
  have parked (n : ℕ) : ∃ r,
      states (fun n => hotLook 400 (400 * (n + 1))) (hotStart 400) n = some r ∧ Parked n r := by
    induction n with
    | zero => exact ⟨_, rfl, begins⟩
    | succ n ih =>
        obtain ⟨r, state_eq, parked⟩ := ih
        rw [states, state_eq]
        exact parked.tick
  constructor
  · intro n
    change (400 * (n + 1) : ℚ) < 400 * (n + 1 + 1)
    linarith
  · rintro ⟨n, r, state_eq, isOver⟩
    obtain ⟨r', state_eq', parked⟩ := parked n
    rw [state_eq, Option.some.injEq] at state_eq'
    rw [← state_eq'] at parked
    exact absurd (parked.active.symm.trans isOver) (by decide)

end PiFire.Swing
