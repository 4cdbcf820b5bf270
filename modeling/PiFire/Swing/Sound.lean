import PiFire.Swing.Tick

/-!
# What a tick of the relay test does

No index is outside an array, and every count stays within its limit. A tick ends the test,
takes one of its chances, which are the crossings and the moves of the centre that are left,
or waits, within the time for a half or stuck at the edge of the feed.
-/

namespace PiFire.Swing

namespace Cells

theorem exists_read (a : Cells) {i : ℤ} (nonneg : 0 ≤ i) (inside : i < atMax) :
    ∃ x, a.read i = some x := by
  obtain ⟨k, rfl⟩ := Int.eq_ofNat_of_zero_le nonneg
  have bound : k < atMax := by exact_mod_cast inside
  exact ⟨a[k], Vector.getElem?_eq_getElem bound⟩

theorem exists_write (a : Cells) {i : ℕ} (inside : i < atMax) (x : ℚ) :
    ∃ b, a.write i x = some b :=
  ⟨a.set i x, dif_pos inside⟩

end Cells

namespace Test

variable {t : Look} {s s' : Test}

theorem exists_cycle (s : Test) {i : ℤ} (positive : 1 ≤ i) (inside : i < atMax) :
    ∃ c, s.cycle i = some c := by
  obtain ⟨hi, hi_eq⟩ := s.hiPeak.exists_read (by omega) inside
  obtain ⟨hi', hi'_eq⟩ := s.hiPeak.exists_read (i := i - 1) (by omega) (by omega)
  obtain ⟨lo, lo_eq⟩ := s.loPeak.exists_read (by omega) inside
  obtain ⟨lo', lo'_eq⟩ := s.loPeak.exists_read (i := i - 1) (by omega) (by omega)
  obtain ⟨half, half_eq⟩ := s.halves.exists_read (by omega) inside
  obtain ⟨half', half'_eq⟩ := s.halves.exists_read (i := i - 1) (by omega) (by omega)
  rw [cycle, hi_eq, hi'_eq, lo_eq, lo'_eq, half_eq, half'_eq]
  exact ⟨_, rfl⟩

theorem kept_le (s : Test) : s.kept ≤ atMax := min_le_right _ _

theorem exists_settled (s : Test) : ∃ b, s.settled = some b := by
  have most := s.kept_le
  rw [settled]
  split
  · exact ⟨_, rfl⟩
  · obtain ⟨last, last_eq⟩ := s.exists_cycle (i := s.kept - 1) (by omega) (by omega)
    obtain ⟨before, before_eq⟩ := s.exists_cycle (i := s.kept - 3) (by omega) (by omega)
    rw [last_eq, before_eq]
    dsimp only [bind, Option.bind]
    split <;> exact ⟨_, rfl⟩

theorem exists_lastCycles (s : Test) (k : ℕ) {i : ℤ} (inside : i < atMax) :
    ∃ cycles, s.lastCycles k i = some cycles := by
  induction k generalizing i with
  | zero => exact ⟨[], rfl⟩
  | succ k ih =>
      rw [lastCycles]
      split
      · obtain ⟨c, c_eq⟩ := s.exists_cycle (i := i) (by omega) inside
        obtain ⟨rest, rest_eq⟩ := ih (i := i - 1) (by omega)
        rw [c_eq, rest_eq]
        exact ⟨_, rfl⟩
      · exact ⟨[], rfl⟩

theorem exists_lastHalves (s : Test) (k : ℕ) {i : ℤ} (inside : i < atMax) :
    ∃ halves, s.lastHalves k i = some halves := by
  induction k generalizing i with
  | zero => exact ⟨[], rfl⟩
  | succ k ih =>
      rw [lastHalves]
      split
      · obtain ⟨a, a_eq⟩ := s.halves.exists_read (i := i) (by omega) inside
        obtain ⟨b, b_eq⟩ := s.halves.exists_read (i := i - 1) (by omega) (by omega)
        obtain ⟨rest, rest_eq⟩ := ih (i := i - 2) (by omega)
        rw [a_eq, b_eq, rest_eq]
        exact ⟨_, rfl⟩
      · exact ⟨[], rfl⟩

theorem exists_read (t : Look) (s : Test) : ∃ outcome, s.read t = some outcome := by
  have most := s.kept_le
  obtain ⟨cycles, cycles_eq⟩ := s.exists_lastCycles 3 (i := s.kept - 1) (by omega)
  obtain ⟨halves, halves_eq⟩ := s.exists_lastHalves 3 (i := s.kept - 1) (by omega)
  obtain ⟨settled, settled_eq⟩ := s.exists_settled
  rw [read, cycles_eq, settled_eq, halves_eq]
  dsimp only [bind, Option.bind]
  split_ifs <;> exact ⟨_, rfl⟩

theorem exists_whole (s : Test) (some_halves : 2 ≤ s.crossings) (inside : s.crossings ≤ atMax) :
    ∃ c, s.whole = some c := by
  obtain ⟨last, last_eq⟩ := s.halves.exists_read (i := s.crossings - 1) (by omega) (by omega)
  obtain ⟨before, before_eq⟩ := s.halves.exists_read (i := s.crossings - 2) (by omega) (by omega)
  obtain ⟨hi, hi_eq⟩ := s.hiPeak.exists_read (i := s.crossings - 1) (by omega) (by omega)
  obtain ⟨hi', hi'_eq⟩ := s.hiPeak.exists_read (i := s.crossings - 2) (by omega) (by omega)
  obtain ⟨lo, lo_eq⟩ := s.loPeak.exists_read (i := s.crossings - 1) (by omega) (by omega)
  obtain ⟨lo', lo'_eq⟩ := s.loPeak.exists_read (i := s.crossings - 2) (by omega) (by omega)
  rw [whole, last_eq, before_eq, hi_eq, hi'_eq, lo_eq, lo'_eq]
  exact ⟨_, rfl⟩

/-- The limits that a test keeps: on the moves of its centre, and on its corrections. -/
structure Limited (s : Test) : Prop where
  recentres : s.recentres ≤ 8
  resizes : s.resizes ≤ 2
  adjusts : s.adjusts ≤ 5

/-- A test that runs has room for the next half, and was last corrected at one of its
first. -/
structure Sound (s : Test) : Prop extends s.Limited where
  corrected : s.adjustAtCross ≤ 9
  crossings : s.crossings ≤ atMax
  room : s.active = true → s.crossings < atMax

/-- A correction, of a test that may be corrected. -/
structure Corrected (s s' : Test) : Prop where
  active : s'.active = s.active
  crossings : s'.crossings = s.crossings
  recentres : s'.recentres = s.recentres
  lastCrossT : s'.lastCrossT = s.lastCrossT
  resizes : s'.resizes ≤ 2
  adjusts : s'.adjusts ≤ 5
  adjustAtCross : s'.adjustAtCross ≤ 9

theorem resizes_of_resizable (resizable : s.resizable = true) : s.resizes < 2 := by
  rw [Test.resizable, decide_eq_true_eq] at resizable
  exact resizable.1

theorem newSwing_resizes {c : Whole} {h : ℚ} {wider : Bool}
    (resized : s.newSwing t c = some (h, wider)) : s.resizes < 2 := by
  rw [newSwing] at resized
  split at resized
  · rename_i fat
    rw [Test.fat, decide_eq_true_eq] at fat
    exact resizes_of_resizable fat.1.2.2
  · split at resized
    · rename_i thin
      rw [Test.thin, decide_eq_true_eq] at thin
      exact resizes_of_resizable thin.1.2.2
    · cases resized

theorem corrected_centre (limited : s.Limited) (last : s.adjustAtCross ≤ 9)
    (first : s.crossings ≤ 9) (load : ℚ) : s.Corrected (s.centre t load) := by
  rw [centre]
  dsimp only
  split
  · rename_i material
    exact ⟨rfl, rfl, rfl, rfl, limited.resizes, material.2.2, first⟩
  · split <;> exact ⟨rfl, rfl, rfl, rfl, limited.resizes, limited.adjusts, last⟩

theorem corrected_correct (limited : s.Limited) (last : s.adjustAtCross ≤ 9)
    (first : s.crossings ≤ 9) (c : Whole) : s.Corrected (s.correct t c) := by
  rw [correct]
  split
  · rename_i h wider resized
    have few : s.resizes < 2 := newSwing_resizes resized
    exact ⟨rfl, rfl, rfl, rfl, few, limited.adjusts, first⟩
  · have found : ({ s with lastLoad := s.cycleLoad t c } : Test).Limited :=
      ⟨limited.recentres, limited.resizes, limited.adjusts⟩
    have centred := corrected_centre (t := t) found last first (s.cycleLoad t c)
    exact ⟨centred.active, centred.crossings, centred.recentres, centred.lastCrossT,
      centred.resizes, centred.adjusts, centred.adjustAtCross⟩

/-- The conditioning reads whole cycles only, and keeps to its limits. -/
theorem exists_condition (t : Look) (limited : s.Limited) (last : s.adjustAtCross ≤ 9) :
    ∃ s', s.condition t = some s' ∧ s.Corrected s' := by
  rw [condition]
  split
  · rename_i early
    obtain ⟨c, whole_eq⟩ := s.exists_whole (by omega) (early.2.1.trans (by decide))
    rw [whole_eq]
    exact ⟨_, rfl, corrected_correct limited last early.2.1 c⟩
  · exact ⟨s, rfl, rfl, rfl, rfl, rfl, limited.resizes, limited.adjusts, last⟩

theorem exists_complete (last : s.adjustAtCross ≤ 9) :
    ∃ b, s.complete = some b ∧ (b = false → s.crossings < atMax) := by
  rw [complete]
  split
  · obtain ⟨settled, settled_eq⟩ := s.exists_settled
    rw [settled_eq]
    refine ⟨_, rfl, fun unfinished => ?_⟩
    rw [Bool.or_eq_false_iff, decide_eq_false_iff_not] at unfinished
    exact not_le.mp unfinished.2
  · rename_i early
    refine ⟨false, rfl, fun _ => ?_⟩
    by_contra full
    rw [not_lt, atMax] at full
    exact early ⟨by rw [ge_iff_le, atMinCross]; omega, by omega⟩

theorem exists_cross (t : Look) (room : s.crossings < atMax) :
    ∃ s', s.cross t = some s' ∧ s'.active = s.active ∧ s'.crossings = s.crossings + 1 ∧
      s'.recentres = s.recentres ∧ s'.resizes = s.resizes ∧ s'.adjusts = s.adjusts ∧
      s'.adjustAtCross = s.adjustAtCross ∧ s'.lastCrossT = t.now := by
  obtain ⟨halves, halves_eq⟩ := s.halves.exists_write room (t.now - s.lastCrossT)
  obtain ⟨hiPeak, hiPeak_eq⟩ := s.hiPeak.exists_write room s.peakMax
  obtain ⟨loPeak, loPeak_eq⟩ := s.loPeak.exists_write room s.peakMin
  rw [cross, if_pos room, halves_eq, hiPeak_eq, loPeak_eq]
  exact ⟨_, rfl, rfl, rfl, rfl, rfl, rfl, rfl, rfl⟩

end Test

end PiFire.Swing
