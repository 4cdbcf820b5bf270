import Mathlib.Data.List.Sort
import Mathlib.Data.List.Count
import Mathlib.Order.Lattice

/-!
# Ranks in a list

The rank of an element, under a key, is the number of members with a greater key.
A list sorted by key, greatest first, holds exactly the members of rank at least
`n` from its place `n` on. Two keys rank alike, one never above the other, only
where they put the members in one order.
-/

namespace Ranking

universe u v w

section

variable {α : Type u} {κ : Type v} {τ : Type w} [LinearOrder κ] [LinearOrder τ]

/-- The number of members whose key is greater than a value. -/
def above (key : α → κ) (l : List α) (value : κ) : ℕ :=
  l.countP fun x => value < key x

@[simp]
theorem above_cons (key : α → κ) (x : α) (l : List α) (value : κ) :
    above key (x :: l) value = above key l value + if value < key x then 1 else 0 := by
  simp [above, List.countP_cons]

theorem above_perm {key : α → κ} {l m : List α} (same : l.Perm m) (value : κ) :
    above key l value = above key m value :=
  same.countP_eq _

theorem above_le_length (key : α → κ) (l : List α) (value : κ) :
    above key l value ≤ l.length :=
  List.countP_le_length

theorem above_eq_zero {key : α → κ} {l : List α} {value : κ}
    (least : ∀ x ∈ l, key x ≤ value) : above key l value = 0 := by
  rw [above, List.countP_eq_zero]
  intro x member
  simpa using least x member

theorem lt_of_above_eq_length {key : α → κ} {l : List α} {value : κ}
    (full : l.length ≤ above key l value) : ∀ x ∈ l, value < key x := by
  intro x member
  have all := List.countP_eq_length.mp (Nat.le_antisymm (above_le_length key l value) full)
  simpa using all x member

theorem above_mono {key : α → κ} {time : α → τ} {l : List α} {x : α}
    (agree : ∀ y ∈ l, key x < key y → time x < time y) :
    above key l (key x) ≤ above time l (time x) := by
  apply List.countP_mono_left
  intro y member greater
  simpa using agree y member (by simpa using greater)

theorem exists_gt_of_above {key : α → κ} {l : List α} {value : κ}
    (some_above : 0 < above key l value) : ∃ x ∈ l, value < key x := by
  obtain ⟨x, member, greater⟩ := List.countP_pos_iff.mp some_above
  exact ⟨x, member, by simpa using greater⟩

theorem mem_drop_iff {key : α → κ} {l : List α} {x : α}
    (sorted : l.Pairwise fun a b => key b < key a) (n : ℕ) :
    x ∈ l.drop n ↔ x ∈ l ∧ n ≤ above key l (key x) := by
  induction l generalizing n with
  | nil => simp
  | cons y l ih =>
    obtain ⟨greatest, rest⟩ := List.pairwise_cons.mp sorted
    cases n with
    | zero => simp
    | succ n =>
      rw [List.drop_succ_cons, ih rest n, above_cons]
      constructor
      · rintro ⟨member, high⟩
        rw [if_pos (greatest x member)]
        exact ⟨List.mem_cons_of_mem y member, Nat.succ_le_succ high⟩
      · rintro ⟨member, high⟩
        rcases List.mem_cons.mp member with rfl | member
        · -- the greatest has rank zero
          have none_above := above_eq_zero fun z inside => (greatest z inside).le
          rw [none_above, if_neg (lt_irrefl _)] at high
          cases high
        · rw [if_pos (greatest x member)] at high
          exact ⟨member, Nat.le_of_succ_le_succ high⟩

theorem pairwise_of_above_le {key : α → κ} {time : α → τ} {l : List α}
    (sorted : l.Pairwise fun a b => key a < key b)
    (ranks : ∀ x ∈ l, above key l (key x) ≤ above time l (time x)) :
    l.Pairwise fun a b => time a < time b := by
  induction l with
  | nil => exact List.Pairwise.nil
  | cons y l ih =>
    obtain ⟨least, rest⟩ := List.pairwise_cons.mp sorted
    have full : above key l (key y) = l.length := by
      apply List.countP_eq_length.mpr
      intro x member
      simpa using least x member
    have older : ∀ x ∈ l, time y < time x := by
      have rank := ranks y List.mem_cons_self
      rw [above_cons, above_cons, full, if_neg (lt_irrefl _), if_neg (lt_irrefl _)] at rank
      exact lt_of_above_eq_length (by simpa using rank)
    apply List.pairwise_cons.mpr
    refine ⟨older, ih rest fun x member => ?_⟩
    have rank := ranks x (List.mem_cons_of_mem y member)
    rw [above_cons, above_cons, if_neg (least x member).asymm,
      if_neg (older x member).asymm] at rank
    simpa using rank

theorem forall_take_iff {key : α → κ} {l : List α} {x : α}
    (descending : l.Pairwise fun a b => key b ≤ key a) (member : x ∈ l) (n : ℕ) :
    (∀ y ∈ l.take n, key x < key y) ↔ n ≤ above key l (key x) := by
  induction l generalizing n with
  | nil => cases member
  | cons y l ih =>
    obtain ⟨greatest, rest⟩ := List.pairwise_cons.mp descending
    cases n with
    | zero => simp
    | succ n =>
      rw [List.take_succ_cons, List.forall_mem_cons, above_cons]
      by_cases below : key x < key y
      · have inside : x ∈ l := by
          rcases List.mem_cons.mp member with rfl | inside
          · exact absurd below (lt_irrefl _)
          · exact inside
        rw [if_pos below, ih rest inside]
        constructor
        · rintro ⟨_, rank⟩
          exact Nat.succ_le_succ rank
        · intro rank
          exact ⟨below, Nat.le_of_succ_le_succ rank⟩
      · have none_above : above key l (key x) = 0 :=
          above_eq_zero fun z inside => (greatest z inside).trans (not_lt.mp below)
        rw [none_above, if_neg below]
        constructor
        · rintro ⟨here, _⟩
          exact absurd here below
        · intro rank
          cases rank

theorem in_order_of_above_le {key : α → κ} {time : α → τ} {l : List α}
    (distinct : (l.map key).Nodup)
    (ranks : ∀ x ∈ l, above key l (key x) ≤ above time l (time x)) :
    ∀ a ∈ l, ∀ b ∈ l, key a < key b → time a < time b := by
  have same := List.perm_insertionSort (fun a b : α => key a ≤ key b) l
  have apart : (l.insertionSort fun a b => key a ≤ key b).Pairwise fun a b => key a ≠ key b :=
    List.pairwise_map.mp ((same.map key).nodup_iff.mpr distinct)
  have ascending : (l.insertionSort fun a b => key a ≤ key b).Pairwise
      fun a b => key a < key b :=
    ((List.pairwise_insertionSort _ l).and apart).imp fun ⟨le, ne⟩ => lt_of_le_of_ne le ne
  have in_order : (l.insertionSort fun a b => key a ≤ key b).Pairwise
      fun a b => time a < time b := by
    apply pairwise_of_above_le ascending
    intro x member
    rw [above_perm same, above_perm same]
    exact ranks x (same.mem_iff.mp member)
  intro a left b right
  apply List.Pairwise.forall_of_forall_of_flip
    (R := fun a b => key a < key b → time a < time b) ?_ ?_ ?_
    (same.mem_iff.mpr left) (same.mem_iff.mpr right)
  · intro x _ less
    exact absurd less (lt_irrefl _)
  · apply in_order.imp
    intro a b less _
    exact less
  · exact ascending.imp fun less greater => absurd greater less.asymm

end

end Ranking

/-!
# The middle of a list

What stands in a place of a sorted list lies between two bounds when enough members do: for
the middle of an odd number of members, more than half of them.
-/

namespace Ranking

universe u

variable {α : Type u} [LinearOrder α] {s : List α} {i : ℕ} {a b : α}

theorem le_getElem_of_countP (sorted : s.SortedLE) (inside : i < s.length)
    (many : s.length ≤ i + s.countP (a ≤ ·)) : a ≤ s[i] := by
  by_contra below
  have none_ : (s.take (i + 1)).countP (a ≤ ·) = 0 := by
    rw [List.countP_eq_zero]
    intro x member
    obtain ⟨j, early, rfl⟩ := List.mem_take_iff_getElem.mp member
    have le : s[j] ≤ s[i] := sorted.getElem_le_getElem_of_le (by omega)
    simpa using le.trans_lt (not_le.mp below)
  have split : s.countP (a ≤ ·) = (s.drop (i + 1)).countP (a ≤ ·) := by
    conv => lhs; rw [← List.take_append_drop (i + 1) s, List.countP_append, none_, Nat.zero_add]
  have rest := List.countP_le_length (p := (a ≤ ·)) (l := s.drop (i + 1))
  rw [List.length_drop] at rest
  omega

theorem getElem_le_of_countP (sorted : s.SortedLE) (inside : i < s.length)
    (many : i < s.countP (· ≤ b)) : s[i] ≤ b := by
  by_contra beyond
  have none_ : (s.drop i).countP (· ≤ b) = 0 := by
    rw [List.countP_eq_zero]
    intro x member
    obtain ⟨j, late, rfl⟩ := List.mem_drop_iff_getElem.mp member
    have le : s[i] ≤ s[i + j] := sorted.getElem_le_getElem_of_le (by omega)
    simpa using (not_le.mp beyond).trans_le le
  have split : s.countP (· ≤ b) = (s.take i).countP (· ≤ b) := by
    conv => lhs; rw [← List.take_append_drop i s, List.countP_append, none_, Nat.add_zero]
  have rest := List.countP_le_length (p := (· ≤ b)) (l := s.take i)
  rw [List.length_take] at rest
  omega

theorem middle_mem (sorted : s.SortedLE) {m : ℕ} (odd : s.length = 2 * m + 1)
    (many : m < s.countP fun x => a ≤ x ∧ x ≤ b) : a ≤ s[m] ∧ s[m] ≤ b := by
  have above : s.countP (fun x => a ≤ x ∧ x ≤ b) ≤ s.countP (a ≤ ·) := by
    apply List.countP_mono_left
    intro x _ both
    simpa using (of_decide_eq_true both).1
  have below : s.countP (fun x => a ≤ x ∧ x ≤ b) ≤ s.countP (· ≤ b) := by
    apply List.countP_mono_left
    intro x _ both
    simpa using (of_decide_eq_true both).2
  constructor
  · exact le_getElem_of_countP sorted (by omega) (by omega)
  · exact getElem_le_of_countP sorted (by omega) (by omega)

end Ranking
