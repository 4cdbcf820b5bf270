import Mathlib.Data.List.Basic
import Mathlib.Order.Lattice

/-!
# Lists of different lengths in order

Two lists are compared place by place, the shorter one filled up with one value. The order of
the lists is as good as that of the values: where that is a total preorder, so is this one.
-/

namespace Ranking

universe u

variable {α : Type u} (cmp : α → α → Ordering) (fill : α)

/-- A list that is all filling against a list. -/
def fillings : List α → Ordering
  | [] => .eq
  | y :: ys => (cmp fill y).then (fillings ys)

/-- The order of two lists, the shorter one filled up. -/
def padded : List α → List α → Ordering
  | [], ys => fillings cmp fill ys
  | x :: xs, ys => (cmp x (ys.headD fill)).then (padded xs ys.tail)

variable {cmp fill}

theorem padded_eq [Std.ReflCmp cmp] (xs ys : List α) :
    padded cmp fill xs ys =
      (cmp (xs.headD fill) (ys.headD fill)).then (padded cmp fill xs.tail ys.tail) := by
  cases xs with
  | nil =>
      cases ys with
      | nil => simp [padded, fillings, Std.ReflCmp.compare_self]
      | cons y ys => simp [padded, fillings]
  | cons x xs => simp [padded]

/-- What holds of empty lists, and of lists if it does of the lists behind their first places,
holds of all lists. -/
theorem places_induction {motive : List α → List α → List α → Prop}
    (empty : motive [] [] [])
    (behind : ∀ xs ys zs, motive xs.tail ys.tail zs.tail → motive xs ys zs)
    (xs ys zs : List α) : motive xs ys zs := by
  generalize bound : xs.length + ys.length + zs.length = n
  induction n using Nat.strong_induction_on generalizing xs ys zs with
  | _ n ih =>
      by_cases none_ : n = 0
      · have lengths : xs.length = 0 ∧ ys.length = 0 ∧ zs.length = 0 := by omega
        rw [List.length_eq_zero_iff.mp lengths.1, List.length_eq_zero_iff.mp lengths.2.1,
          List.length_eq_zero_iff.mp lengths.2.2]
        exact empty
      · apply behind
        apply ih _ _ _ _ _ rfl
        simp only [List.length_tail]
        omega

theorem padded_swap [Std.OrientedCmp cmp] (xs ys : List α) :
    padded cmp fill xs ys = (padded cmp fill ys xs).swap := by
  refine places_induction (motive := fun xs ys _ =>
    padded cmp fill xs ys = (padded cmp fill ys xs).swap) rfl ?_ xs ys []
  intro xs ys _ behind
  rw [padded_eq xs, padded_eq ys, Ordering.swap_then, ← behind, ← Std.OrientedCmp.eq_swap]

theorem then_isLE_trans [Std.TransCmp cmp] {a b c : α} {ab bc ac : Ordering}
    (behind : ab.isLE → bc.isLE → ac.isLE) (first : ((cmp a b).then ab).isLE)
    (second : ((cmp b c).then bc).isLE) : ((cmp a c).then ac).isLE := by
  rw [Ordering.isLE_then_iff_or] at *
  rcases first with less | ⟨same, first⟩
  · left
    exact Std.TransCmp.lt_of_lt_of_isLE less (Ordering.isLE_left_of_isLE_then
      (Ordering.isLE_then_iff_or.mpr second))
  · rw [Std.TransCmp.congr_left same]
    rcases second with less | ⟨same, second⟩
    · exact Or.inl less
    · exact Or.inr ⟨same, behind first second⟩

theorem padded_isLE_trans [Std.TransCmp cmp] {xs ys zs : List α}
    (first : (padded cmp fill xs ys).isLE) (second : (padded cmp fill ys zs).isLE) :
    (padded cmp fill xs zs).isLE := by
  refine places_induction (motive := fun xs ys zs => (padded cmp fill xs ys).isLE →
    (padded cmp fill ys zs).isLE → (padded cmp fill xs zs).isLE) ?_ ?_ xs ys zs first second
  · intro _ _
    rfl
  · intro xs ys zs behind first second
    rw [padded_eq] at first second ⊢
    exact then_isLE_trans behind first second

instance [Std.OrientedCmp cmp] : Std.OrientedCmp (padded cmp fill) where
  eq_swap := padded_swap _ _

instance [Std.TransCmp cmp] : Std.TransCmp (padded cmp fill) where
  isLE_trans := padded_isLE_trans

end Ranking
