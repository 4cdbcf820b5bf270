import Mathlib.Algebra.Order.Field.Basic
import Mathlib.Order.Interval.Set.UnorderedInterval
import Mathlib.Tactic.Linarith
import Mathlib.Tactic.Ring
import Mathlib.Order.Interval.Set.Basic
import Mathlib.Data.List.Basic
import Mathlib.Data.Nat.ModEq

/-!
# Relaxing to a target

A state goes a fraction of its way to a target. As long as the fraction is one at most, it
stays between where it was and the target, and after fractions that add up to a total the
distance is no more than what it was divided by one more than the total.
-/

namespace Lag

universe u

variable {K : Type u} [Field K] [LinearOrder K] [IsStrictOrderedRing K]

/-- One step to a target, by a fraction of the way. -/
def relax (target fraction x : K) : K := x + (target - x) * fraction

variable {target fraction x : K}

omit [LinearOrder K] [IsStrictOrderedRing K] in
theorem target_sub_relax : target - relax target fraction x = (target - x) * (1 - fraction) := by
  rw [relax]
  ring

theorem relax_mem_uIcc (begun : 0 ≤ fraction) (whole : fraction ≤ 1) :
    relax target fraction x ∈ Set.uIcc x target := by
  rw [Set.mem_uIcc, relax]
  rcases le_total x target with below | above
  · left
    have way : 0 ≤ target - x := sub_nonneg.mpr below
    constructor
    · linarith [mul_nonneg way begun]
    · linarith [mul_le_of_le_one_right way whole]
  · right
    have way : 0 ≤ x - target := sub_nonneg.mpr above
    constructor
    · linarith [mul_le_of_le_one_right way whole]
    · linarith [mul_nonneg way begun]

theorem relax_mem_Icc {lo hi : K} (begun : 0 ≤ fraction) (whole : fraction ≤ 1)
    (inside : x ∈ Set.Icc lo hi) (aim : target ∈ Set.Icc lo hi) :
    relax target fraction x ∈ Set.Icc lo hi :=
  Set.uIcc_subset_Icc inside aim (relax_mem_uIcc begun whole)

omit [Field K] [IsStrictOrderedRing K] in
theorem mem_uIcc_trans {y z : K} (first : y ∈ Set.uIcc x target)
    (second : z ∈ Set.uIcc y target) : z ∈ Set.uIcc x target :=
  Set.uIcc_subset_uIcc first Set.right_mem_uIcc second

theorem abs_target_sub_le {y : K} (between : y ∈ Set.uIcc x target) :
    |target - y| ≤ |target - x| := by
  rcases Set.mem_uIcc.mp between with ⟨first, second⟩ | ⟨first, second⟩
  · rw [abs_of_nonneg (sub_nonneg.mpr second), abs_of_nonneg (sub_nonneg.mpr (first.trans second))]
    linarith
  · rw [abs_of_nonpos (sub_nonpos.mpr first), abs_of_nonpos (sub_nonpos.mpr (first.trans second))]
    linarith

theorem abs_target_sub_relax_le {total distance : K} (positive : 0 ≤ total) (begun : 0 ≤ fraction)
    (whole : fraction ≤ 1) (shrunk : |target - x| * (1 + total) ≤ distance) :
    |target - relax target fraction x| * (1 + (total + fraction)) ≤ distance := by
  have left : 0 ≤ 1 - fraction := sub_nonneg.mpr whole
  have factor : (1 - fraction) * (1 + (total + fraction)) ≤ 1 + total := by
    have square := mul_nonneg begun begun
    have product := mul_nonneg begun positive
    linarith
  calc
    |target - relax target fraction x| * (1 + (total + fraction)) =
        |target - x| * ((1 - fraction) * (1 + (total + fraction))) := by
      rw [target_sub_relax, abs_mul, abs_of_nonneg left, mul_assoc]
    _ ≤ |target - x| * (1 + total) := mul_le_mul_of_nonneg_left factor (abs_nonneg _)
    _ ≤ distance := shrunk

/-- Of states, the newest first, each was as near to the target as its total allows; the one
before it had up to one less. -/
def Settling (target distance : K) : K → List K → Prop
  | _, [] => True
  | total, y :: ys =>
      |target - y| * (1 + total) ≤ distance ∧ Settling target distance (total - 1) ys

theorem Settling.mono {distance : K} {ys : List K} {total less : K} (fewer : less ≤ total)
    (settling : Settling target distance total ys) : Settling target distance less ys := by
  induction ys generalizing total less with
  | nil => trivial
  | cons y ys ih =>
      constructor
      · have room : 1 + less ≤ 1 + total := add_le_add_right fewer 1
        exact (mul_le_mul_of_nonneg_left room (abs_nonneg _)).trans settling.1
      · exact ih (sub_le_sub_right fewer 1) settling.2

omit [IsStrictOrderedRing K] in
theorem Settling.take {distance total : K} {ys : List K} (n : ℕ)
    (settling : Settling target distance total ys) :
    Settling target distance total (ys.take n) := by
  induction ys generalizing total n with
  | nil => rw [List.take_nil]; trivial
  | cons y ys ih =>
      cases n with
      | zero => trivial
      | succ n => exact ⟨settling.1, ih n settling.2⟩

theorem Settling.all {distance total : K} {ys : List K} {n : ℕ} (few : ys.length ≤ n)
    (settling : Settling target distance total ys) :
    ∀ y ∈ ys, |target - y| * (1 + (total - n)) ≤ distance := by
  induction ys generalizing total n with
  | nil => simp
  | cons y ys ih =>
      obtain ⟨n, rfl⟩ : ∃ m, n = m + 1 := ⟨n - 1, by simp at few; omega⟩
      have later : total - ((n + 1 : ℕ) : K) = total - 1 - n := by
        push_cast
        ring
      intro z inside
      rcases List.mem_cons.mp inside with rfl | inside
      · refine le_trans (mul_le_mul_of_nonneg_left ?_ (abs_nonneg _)) settling.1
        have positive : (0 : K) ≤ ((n + 1 : ℕ) : K) := Nat.cast_nonneg _
        linarith
      · rw [later]
        exact ih (by simpa using few) settling.2 z inside

end Lag

/-!
# Reading back what a signal was

Samples of a signal with their times, the newest first. What it was at a time is read on the
line between the two samples that straddle the time; where the samples do not go back that
far, it is a value given for that.
-/

namespace Lag

universe u

variable {K : Type u} [Field K] [LinearOrder K]

/-- The value on the line from a sample to the next one. -/
def between (sample next : K × K) (time : K) : K :=
  sample.2 + (next.2 - sample.2) * (time - sample.1) / (next.1 - sample.1)

/-- The signal at a time that a sample does not come after, with the next sample. -/
def valueAt (time : K) (sample : K × K) : Option (K × K) → K
  | some next => if sample.1 < next.1 then between sample next time else sample.2
  | none => sample.2

/-- The signal at a time, with the sample before those that are left to look at. -/
def readBack (missing time : K) : List (K × K) → Option (K × K) → K
  | [], _ => missing
  | sample :: older, next =>
      if sample.1 ≤ time then valueAt time sample next
      else readBack missing time older (some sample)

/-- A value a signal had: one that is given, that of a sample, or one on the line between two
samples that straddle the time. -/
inductive Recalled (missing time : K) (samples : List (K × K)) : K → Prop
  | missing (none_ : ∀ sample ∈ samples, time < sample.1) : Recalled missing time samples missing
  | sample {sample : K × K} (inside : sample ∈ samples) (passed : sample.1 ≤ time) :
      Recalled missing time samples sample.2
  | line {sample next : K × K} {newer older : List (K × K)}
      (neighbours : samples = newer ++ next :: sample :: older) (passed : sample.1 ≤ time)
      (later : time < next.1) : Recalled missing time samples (between sample next time)

theorem recalled (missing time : K) (samples : List (K × K)) :
    Recalled missing time samples (readBack missing time samples none) := by
  suffices further : ∀ newer older next, samples = newer ++ older →
      (∀ sample ∈ newer, time < sample.1) → (∀ sample ∈ next, ∃ front, newer = front ++ [sample]) →
        Recalled missing time samples (readBack missing time older next) by
    exact further [] samples none rfl (List.forall_mem_nil _) (by simp)
  intro newer older next whole later last
  induction older generalizing newer next with
  | nil =>
      rw [List.append_nil] at whole
      exact Recalled.missing (whole ▸ later)
  | cons sample older ih =>
      rw [readBack]
      have inside : sample ∈ samples := by
        rw [whole]
        exact List.mem_append_right _ List.mem_cons_self
      by_cases passed : sample.1 ≤ time
      · rw [if_pos passed]
        cases next with
        | none => exact Recalled.sample inside passed
        | some next =>
            obtain ⟨front, spread⟩ := last next rfl
            rw [valueAt]
            split
            · have apart : samples = front ++ next :: sample :: older := by
                rw [whole, spread, List.append_assoc]
                rfl
              have after : time < next.1 := by
                apply later
                rw [spread]
                exact List.mem_append_right _ List.mem_cons_self
              exact Recalled.line apart passed after
            · exact Recalled.sample inside passed
      · rw [if_neg passed]
        apply ih (newer ++ [sample])
        · rw [whole, List.append_assoc]
          rfl
        · intro other inside
          rcases List.mem_append.mp inside with inside | inside
          · exact later other inside
          · rw [List.mem_singleton.mp inside]
            exact not_le.mp passed
        · rintro other ⟨⟩
          exact ⟨newer, rfl⟩

variable [IsStrictOrderedRing K]

theorem between_mem_Icc {lo hi time : K} {sample next : K × K} (passed : sample.1 ≤ time)
    (later : time < next.1) (inside : sample.2 ∈ Set.Icc lo hi) (beyond : next.2 ∈ Set.Icc lo hi) :
    between sample next time ∈ Set.Icc lo hi := by
  have length : 0 < next.1 - sample.1 := sub_pos.mpr (passed.trans_lt later)
  have begun : 0 ≤ (time - sample.1) / (next.1 - sample.1) :=
    div_nonneg (sub_nonneg.mpr passed) length.le
  have whole : (time - sample.1) / (next.1 - sample.1) ≤ 1 := by
    rw [div_le_one length]
    exact sub_le_sub_right later.le _
  have weighed : between sample next time =
      sample.2 * (1 - (time - sample.1) / (next.1 - sample.1)) +
        next.2 * ((time - sample.1) / (next.1 - sample.1)) := by
    rw [between]
    ring
  generalize (time - sample.1) / (next.1 - sample.1) = part at begun whole weighed
  rw [weighed]
  constructor
  · have first := mul_le_mul_of_nonneg_right inside.1 (sub_nonneg.mpr whole)
    have second := mul_le_mul_of_nonneg_right beyond.1 begun
    linarith
  · have first := mul_le_mul_of_nonneg_right inside.2 (sub_nonneg.mpr whole)
    have second := mul_le_mul_of_nonneg_right beyond.2 begun
    linarith

theorem Recalled.mem_Icc {lo hi missing time value : K} {samples : List (K × K)}
    (recalled : Recalled missing time samples value) (given : missing ∈ Set.Icc lo hi)
    (inside : ∀ sample ∈ samples, sample.2 ∈ Set.Icc lo hi) : value ∈ Set.Icc lo hi := by
  cases recalled with
  | missing _ => exact given
  | sample here _ => exact inside _ here
  | line neighbours passed later =>
      apply between_mem_Icc passed later
      · apply inside
        rw [neighbours]
        exact List.mem_append_right _ (List.mem_cons_of_mem _ List.mem_cons_self)
      · apply inside
        rw [neighbours]
        exact List.mem_append_right _ List.mem_cons_self

end Lag

/-!
# A ring that delays

A list of a fixed length, written at one place after the other and around again, and read a
number of places back from where the next value will go. Up to its length, it then holds what
was written that many values ago, or what it was filled with at first.
-/

namespace Lag

universe u

variable {α : Type u} {start : α} {written ring : List α} {n : ℕ}

/-- What a ring of this many places says of the last values written. -/
structure Delays (n : ℕ) (start : α) (written ring : List α) : Prop where
  length : ring.length = n
  reads : ∀ lag, 1 ≤ lag → lag ≤ n → ring[(written.length + n - lag) % n]? =
    if written.length < lag then some start else written[written.length - lag]?

theorem delays_replicate (n : ℕ) (start : α) : Delays n start [] (List.replicate n start) := by
  constructor
  · exact List.length_replicate
  · intro lag least most
    rw [List.length_nil, if_pos (Nat.lt_of_lt_of_le Nat.zero_lt_one least)]
    have inside : 0 + n - lag < n := by omega
    rw [Nat.mod_eq_of_lt inside, List.getElem?_replicate_of_lt inside]

theorem Delays.write (delays : Delays n start written ring) (positive : 0 < n) (value : α) :
    Delays n start (written ++ [value]) (ring.set (written.length % n) value) := by
  have slot : written.length % n < n := Nat.mod_lt _ positive
  constructor
  · rw [List.length_set]
    exact delays.length
  · intro lag least most
    rw [List.length_append, List.length_singleton]
    rcases Nat.eq_or_lt_of_le least with rfl | further
    · -- one place back is the value that was just written
      have here : written.length + 1 + n - 1 = written.length + n := by omega
      rw [here, Nat.add_mod_right, List.getElem?_set_self (by rwa [delays.length]),
        if_neg (by omega), Nat.add_sub_cancel, List.getElem?_concat_length]
    · have before := delays.reads (lag - 1) (by omega) (by omega)
      have same : written.length + 1 + n - lag = written.length + n - (lag - 1) := by omega
      have apart : written.length % n ≠ (written.length + n - (lag - 1)) % n := by
        intro equal
        have round : n ∣ written.length + n - (lag - 1) - written.length :=
          (Nat.modEq_iff_dvd' (by omega)).mp equal
        exact absurd (Nat.le_of_dvd (by omega) round) (by omega)
      rw [same, List.getElem?_set_ne apart, before]
      split_ifs with first second second
      · rfl
      · omega
      · omega
      · have place : written.length + 1 - lag = written.length - (lag - 1) := by omega
        rw [place, List.getElem?_append_left (by omega)]

end Lag
