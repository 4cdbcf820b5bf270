import Mathlib.Algebra.Order.Field.Basic
import Mathlib.Data.List.Induction
import Mathlib.Data.List.Nodup
import Mathlib.Order.Interval.Set.UnorderedInterval
import Mathlib.Order.OrderDual
import Mathlib.Tactic.Ring

/-!
# Between two keys

A table of keys in no order, searched in one pass for the greatest key that is not
above a value and for the least one that is not below it. What the table says at the
value is interpolated between the two. Where no two keys are equal, the order of the
table does not matter.
-/

namespace Ranking

universe u v

section Floor

variable {α : Type u} {κ : Type v} [LinearOrder κ] (key : α → κ) (x : κ)

/-- A member takes the place of the one found before it. -/
def lift (best : Option α) (a : α) : Option α :=
  if key a ≤ x ∧ best.all fun b => key b < key a then some a else best

/-- The member with the greatest key that is not above the value, the first of equals. -/
def floor? (l : List α) : Option α := l.foldl (lift key x) none

/-- The member with the least key that is not below the value, the first of equals. -/
def ceil? (l : List α) : Option α :=
  floor? (fun a => OrderDual.toDual (key a)) (OrderDual.toDual x) l

/-- Where the best so far is below the value, so is what is found, and it is the greatest
of all that was seen. -/
def Best (seen : List α) (found : Option α) : Prop :=
  match found with
  | some a => a ∈ seen ∧ key a ≤ x ∧ ∀ b ∈ seen, key b ≤ x → key b ≤ key a
  | none => ∀ b ∈ seen, x < key b

variable {key x}

theorem Best.lift {seen : List α} {found : Option α} (best : Best key x seen found) (a : α) :
    Best key x (seen ++ [a]) (lift key x found a) := by
  unfold Ranking.lift
  cases found with
  | none =>
      simp only [Option.all_none, and_true]
      split_ifs with under
      · refine ⟨by simp, under, ?_⟩
        intro b inside below
        rcases List.mem_append.mp inside with before | last
        · exact absurd below (not_le.mpr (best b before))
        · rw [List.mem_singleton.mp last]
      · intro b inside
        rcases List.mem_append.mp inside with before | last
        · exact best b before
        · rw [List.mem_singleton.mp last]
          exact not_le.mp under
  | some c =>
      obtain ⟨member, under, greatest⟩ := best
      simp only [Option.all_some, decide_eq_true_eq]
      split_ifs with better
      · refine ⟨by simp, better.1, ?_⟩
        intro b inside below
        rcases List.mem_append.mp inside with before | last
        · exact (greatest b before below).trans better.2.le
        · rw [List.mem_singleton.mp last]
      · refine ⟨List.mem_append_left _ member, under, ?_⟩
        intro b inside below
        rcases List.mem_append.mp inside with before | last
        · exact greatest b before below
        · rw [List.mem_singleton.mp last] at below ⊢
          exact not_lt.mp fun above => better ⟨below, above⟩

theorem best_floor? (l : List α) : Best key x l (floor? key x l) := by
  induction l using List.reverseRecOn with
  | nil =>
      intro b inside
      cases inside
  | append_singleton l a ih =>
      rw [floor?, List.foldl_append]
      exact Best.lift ih a

theorem floor?_eq_none {l : List α} : floor? key x l = none ↔ ∀ a ∈ l, x < key a := by
  have best : Best key x l (floor? key x l) := best_floor? l
  constructor
  · intro none_
    rw [none_] at best
    exact best
  · intro above
    cases found : floor? key x l with
    | none => rfl
    | some a =>
        rw [found] at best
        exact absurd best.2.1 (not_le.mpr (above a best.1))

theorem floor?_eq_some {l : List α} (distinct : (l.map key).Nodup) {a : α} :
    floor? key x l = some a ↔ a ∈ l ∧ key a ≤ x ∧ ∀ b ∈ l, key b ≤ x → key b ≤ key a := by
  have best : Best key x l (floor? key x l) := best_floor? l
  constructor
  · intro found
    rw [found] at best
    exact best
  · rintro ⟨member, under, greatest⟩
    cases found : floor? key x l with
    | none =>
        rw [found] at best
        exact absurd under (not_le.mpr (best a member))
    | some b =>
        rw [found] at best
        have same : key b = key a :=
          le_antisymm (greatest b best.1 best.2.1) (best.2.2 a member under)
        rw [List.inj_on_of_nodup_map distinct best.1 member same]

theorem floor?_perm {l m : List α} (distinct : (l.map key).Nodup) (same : l.Perm m) :
    floor? key x m = floor? key x l := by
  have distinct' : (m.map key).Nodup := (same.map key).nodup_iff.mp distinct
  cases found : floor? key x l with
  | none =>
      rw [floor?_eq_none] at found ⊢
      intro a inside
      exact found a (same.mem_iff.mpr inside)
  | some a =>
      rw [floor?_eq_some distinct] at found
      rw [floor?_eq_some distinct']
      obtain ⟨member, under, greatest⟩ := found
      exact ⟨same.mem_iff.mp member, under, fun b inside => greatest b (same.mem_iff.mpr inside)⟩

theorem ceil?_eq_some {l : List α} (distinct : (l.map key).Nodup) {a : α} :
    ceil? key x l = some a ↔ a ∈ l ∧ x ≤ key a ∧ ∀ b ∈ l, x ≤ key b → key a ≤ key b :=
  @floor?_eq_some α κᵒᵈ _ (fun a => OrderDual.toDual (key a)) (OrderDual.toDual x) l distinct a

theorem ceil?_perm {l m : List α} (distinct : (l.map key).Nodup) (same : l.Perm m) :
    ceil? key x m = ceil? key x l :=
  @floor?_perm α κᵒᵈ _ (fun a => OrderDual.toDual (key a)) (OrderDual.toDual x) l m distinct same

end Floor

section Between

variable {𝕜 : Type u} [Field 𝕜] [LinearOrder 𝕜] [IsStrictOrderedRing 𝕜]

theorem part_mem_uIcc {f y z : 𝕜} (nonneg : 0 ≤ f) (part : f ≤ 1) :
    y + f * (z - y) ∈ Set.uIcc y z := by
  rcases le_total y z with up | down
  · rw [Set.uIcc_of_le up]
    have rise : 0 ≤ z - y := sub_nonneg.mpr up
    constructor
    · exact le_add_of_nonneg_right (mul_nonneg nonneg rise)
    · calc
        y + f * (z - y) ≤ y + 1 * (z - y) :=
          add_le_add_right (mul_le_mul_of_nonneg_right part rise) y
        _ = z := by ring
  · rw [Set.uIcc_of_ge down]
    have fall : 0 ≤ y - z := sub_nonneg.mpr down
    constructor
    · calc
        z = y - 1 * (y - z) := by ring
        _ ≤ y - f * (y - z) := sub_le_sub_left (mul_le_mul_of_nonneg_right part fall) y
        _ = y + f * (z - y) := by ring
    · calc
        y + f * (z - y) = y - f * (y - z) := by ring
        _ ≤ y := sub_le_self y (mul_nonneg nonneg fall)

theorem part_le_one {lo x hi : 𝕜} (under : lo ≤ x) (over_ : x ≤ hi) (apart : lo < hi) :
    0 ≤ (x - lo) / (hi - lo) ∧ (x - lo) / (hi - lo) ≤ 1 := by
  have width : 0 < hi - lo := sub_pos.mpr apart
  constructor
  · exact div_nonneg (sub_nonneg.mpr under) width.le
  · rw [div_le_one width]
    exact sub_le_sub_right over_ lo

end Between

end Ranking
