import Mathlib.Algebra.Order.Field.Basic
import Mathlib.Data.Set.Finite.Lemmas
import Mathlib.Tactic.Linarith

/-!
# Weighted averages

A weighted average is read off two sums that are added up value by value: the weights, and
the weighted values. Whatever bounds the values bounds the average, also of values that count
for nothing, and also when one value counts from the start.
-/

namespace Averages

universe u v

/-- The weights and the weighted values, added up. -/
structure Tally (K : Type u) where
  weight : K
  sum : K
  deriving DecidableEq

namespace Tally

variable {K : Type u} [Field K]

def empty : Tally K := ⟨0, 0⟩

/-- One value counts from the start. -/
def single (weight value : K) : Tally K := ⟨weight, weight * value⟩

def take (t : Tally K) (weight value : K) : Tally K :=
  ⟨t.weight + weight, t.sum + weight * value⟩

/-- Every entry of a list is taken, in order. -/
def takeAll {α : Type v} (weight value : α → K) (entries : List α) (t : Tally K) : Tally K :=
  entries.foldl (fun t e => t.take (weight e) (value e)) t

def mean (t : Tally K) : K := t.sum / t.weight

variable [LinearOrder K] {lo hi : K} {t : Tally K}

/-- What was taken weighs something or nothing, and its values lie between the bounds. -/
structure Within (lo hi : K) (t : Tally K) : Prop where
  weight : 0 ≤ t.weight
  least : lo * t.weight ≤ t.sum
  most : t.sum ≤ hi * t.weight

theorem within_empty : Within lo hi (empty : Tally K) := by
  constructor <;> simp [empty]

variable [IsStrictOrderedRing K]

theorem within_single {weight value : K} (heavy : 0 ≤ weight) (above : lo ≤ value)
    (below : value ≤ hi) : Within lo hi (single weight value) := by
  constructor
  · exact heavy
  · change lo * weight ≤ weight * value
    rw [mul_comm lo]
    exact mul_le_mul_of_nonneg_left above heavy
  · change weight * value ≤ hi * weight
    rw [mul_comm hi]
    exact mul_le_mul_of_nonneg_left below heavy

theorem Within.take (within : Within lo hi t) {weight value : K} (heavy : 0 ≤ weight)
    (above : lo ≤ value) (below : value ≤ hi) : Within lo hi (t.take weight value) := by
  have single : Within lo hi (single weight value) := within_single heavy above below
  constructor
  · exact add_nonneg within.weight heavy
  · change lo * (t.weight + weight) ≤ t.sum + weight * value
    rw [mul_add]
    exact add_le_add within.least single.least
  · change t.sum + weight * value ≤ hi * (t.weight + weight)
    rw [mul_add]
    exact add_le_add within.most single.most

variable {α : Type v} {weight value : α → K} {entries : List α}

theorem Within.takeAll (within : Within lo hi t) (heavy : ∀ e ∈ entries, 0 ≤ weight e)
    (between : ∀ e ∈ entries, lo ≤ value e ∧ value e ≤ hi) :
    Within lo hi (t.takeAll weight value entries) := by
  induction entries generalizing t with
  | nil => exact within
  | cons e entries ih =>
      obtain ⟨heavy_e, heavy⟩ := List.forall_mem_cons.mp heavy
      obtain ⟨between_e, between⟩ := List.forall_mem_cons.mp between
      exact ih (within.take heavy_e between_e.1 between_e.2) heavy between

theorem weight_le_takeAll (value : α → K) (heavy : ∀ e ∈ entries, 0 ≤ weight e) (t : Tally K) :
    t.weight ≤ (t.takeAll weight value entries).weight := by
  induction entries generalizing t with
  | nil => exact le_refl t.weight
  | cons e entries ih =>
      obtain ⟨heavy_e, heavy⟩ := List.forall_mem_cons.mp heavy
      calc t.weight ≤ t.weight + weight e := le_add_of_nonneg_right heavy_e
        _ ≤ ((t.take (weight e) (value e)).takeAll weight value entries).weight :=
            ih heavy (t.take (weight e) (value e))

theorem takeAll_pos (heavy : ∀ e ∈ entries, 0 < weight e) (some_ : entries ≠ []) :
    0 < ((empty : Tally K).takeAll weight value entries).weight := by
  cases entries with
  | nil => exact absurd rfl some_
  | cons e entries =>
      have rest : ∀ e ∈ entries, 0 ≤ weight e := fun e inside =>
        (heavy e (List.mem_cons_of_mem _ inside)).le
      calc 0 < weight e := heavy e List.mem_cons_self
        _ = ((empty : Tally K).take (weight e) (value e)).weight := (zero_add (weight e)).symm
        _ ≤ _ := weight_le_takeAll _ rest _

theorem Within.le_mean (within : Within lo hi t) (some_ : 0 < t.weight) : lo ≤ t.mean :=
  (le_div_iff₀ some_).mpr within.least

theorem Within.mean_le (within : Within lo hi t) (some_ : 0 < t.weight) : t.mean ≤ hi :=
  (div_le_iff₀ some_).mpr within.most

end Tally

theorem exists_bounds {K : Type u} [LinearOrder K] {values : List K} (some_ : values ≠ []) :
    ∃ lo ∈ values, ∃ hi ∈ values, ∀ v ∈ values, lo ≤ v ∧ v ≤ hi := by
  obtain ⟨v, inside⟩ := List.exists_mem_of_ne_nil values some_
  have finite : {v | v ∈ values}.Finite := values.finite_toSet
  obtain ⟨lo, low, least⟩ := Set.exists_min_image _ id finite ⟨v, inside⟩
  obtain ⟨hi, high, most⟩ := Set.exists_max_image _ id finite ⟨v, inside⟩
  exact ⟨lo, low, hi, high, fun v inside => ⟨least v inside, most v inside⟩⟩

end Averages
