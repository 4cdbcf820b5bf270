import PiFire.Ranking.Padded
import PiFire.Text.Scan

/-!
# Which version is newer

Two version strings are compared by a numeric core of up to four parts and then by the
identifiers behind it. The order is the same from both sides for all strings; the identifiers
alone are in a total preorder, whatever they are.
-/

namespace PiFire.Update

open Ranking

/-- The sign of `strcmp`. -/
def strcmp : List Char → List Char → Ordering
  | [], [] => .eq
  | [], _ :: _ => .lt
  | _ :: _, [] => .gt
  | c :: a, d :: b => (compare c d).then (strcmp a b)

/-- How much of an identifier is looked at in one go: `sizeof ta - 1`. -/
def idRoom : ℕ := 31

/-- The next identifier, and the text behind it and its point. -/
def nextId (text : List Char) : List Char × List Char :=
  let id := (text.takeWhile (· ≠ '.')).take idRoom
  let behind := text.drop id.length
  (id, if behind.head? = some '.' then behind.tail else behind)

/-- Whether an identifier is a number as a whole. -/
def isNumeric (id : List Char) : Bool := !id.isEmpty && (strtol id).2.isEmpty

/-- Two identifiers: numbers by their size, before texts, which are in the order of `strcmp`. -/
def cmpId (a b : List Char) : Ordering :=
  if isNumeric a && isNumeric b then compare (strtol a).1 (strtol b).1
  else if isNumeric a then .lt
  else if isNumeric b then .gt
  else strcmp a b

/-- The loop of `cmp_prerelease`, so many times at most. -/
def cmpIds : ℕ → List Char → List Char → Ordering
  | 0, _, _ => .eq
  | n + 1, a, b =>
      if a.isEmpty && b.isEmpty then .eq
      else (cmpId (nextId a).1 (nextId b).1).then (cmpIds n (nextId a).2 (nextId b).2)

def cmpPrerelease (a b : List Char) : Ordering :=
  if a.isEmpty && b.isEmpty then .eq
  else if a.isEmpty then .gt
  else if b.isEmpty then .lt
  else cmpIds (a.length + b.length) a b

/-- What is behind the dash. -/
def suffixOf (text : List Char) : List Char :=
  if text.head? = some '-' then text.tail else text

/-- The loop of `pf_version_compare`, with so many parts left to look at. -/
def cmpParts : ℕ → List Char → List Char → Ordering
  | 0, a, b => cmpPrerelease (suffixOf a) (suffixOf b)
  | n + 1, a, b =>
      let x := strtol a
      let y := strtol b
      if x.1 ≠ y.1 then compare x.1 y.1
      else if x.2.head? = some '.' ∧ y.2.head? = some '.' then cmpParts n x.2.tail y.2.tail
      else if x.2.head? = some '.' then cmpParts n x.2.tail y.2
      else if y.2.head? = some '.' then cmpParts n x.2 y.2.tail
      else cmpPrerelease (suffixOf x.2) (suffixOf y.2)

/-- What is behind the letter `v`. -/
def bareOf (text : List Char) : List Char :=
  if text.head? = some 'v' ∨ text.head? = some 'V' then text.tail else text

/-- `pf_version_compare`. -/
def versionCompare (a b : List Char) : Ordering := cmpParts 4 (bareOf a) (bareOf b)

theorem strcmp_swap (a b : List Char) : strcmp a b = (strcmp b a).swap := by
  induction a generalizing b with
  | nil => cases b <;> rfl
  | cons c a ih =>
      cases b with
      | nil => rfl
      | cons d b =>
          rw [strcmp, strcmp, Ordering.swap_then, ← ih,
            ← Std.OrientedCmp.eq_swap]

theorem strcmp_isLE_trans {a b c : List Char} (first : (strcmp a b).isLE)
    (second : (strcmp b c).isLE) : (strcmp a c).isLE := by
  induction a generalizing b c with
  | nil => cases c <;> rfl
  | cons x a ih =>
      cases b with
      | nil => exact Bool.noConfusion first
      | cons y b =>
          cases c with
          | nil => exact Bool.noConfusion second
          | cons z c => exact then_isLE_trans ih first second

theorem strcmp_eq_iff {a b : List Char} : strcmp a b = .eq ↔ a = b := by
  induction a generalizing b with
  | nil => cases b <;> simp [strcmp]
  | cons x a ih =>
      cases b with
      | nil => simp [strcmp]
      | cons y b => simp [strcmp, ih]

instance : Std.OrientedCmp strcmp where
  eq_swap := strcmp_swap _ _

instance : Std.TransCmp strcmp where
  isLE_trans := strcmp_isLE_trans

theorem cmpId_eq (a b : List Char) : cmpId a b =
    match isNumeric a, isNumeric b with
    | true, true => compare (strtol a).1 (strtol b).1
    | true, false => .lt
    | false, true => .gt
    | false, false => strcmp a b := by
  cases na : isNumeric a <;> cases nb : isNumeric b <;> simp [cmpId, na, nb]

instance : Std.OrientedCmp cmpId where
  eq_swap {a b} := by
    rw [cmpId_eq, cmpId_eq]
    cases isNumeric a <;> cases isNumeric b
    · exact strcmp_swap a b
    · rfl
    · rfl
    · exact Std.OrientedOrd.eq_swap

instance : Std.TransCmp cmpId where
  isLE_trans {a b c} first second := by
    rw [cmpId_eq] at *
    revert first second
    cases isNumeric a <;> cases isNumeric b <;> cases isNumeric c <;> intro first second
    all_goals first
      | exact strcmp_isLE_trans first second
      | exact Std.TransOrd.isLE_trans first second
      | exact Bool.noConfusion first
      | exact Bool.noConfusion second
      | rfl

/-- The identifiers of a text, so many at most. -/
def idsOf : ℕ → List Char → List (List Char)
  | 0, _ => []
  | n + 1, text => if text.isEmpty then [] else (nextId text).1 :: idsOf n (nextId text).2

theorem nextId_nil : nextId [] = ([], []) := rfl

theorem length_nextId {text : List Char} (given : text ≠ []) :
    (nextId text).2.length < text.length := by
  cases text with
  | nil => exact absurd rfl given
  | cons c text =>
      by_cases point : c = '.'
      · subst point
        simp [nextId]
      · have one : 1 ≤ (((c :: text).takeWhile (· ≠ '.')).take idRoom).length := by
          rw [List.takeWhile_cons_of_pos (by simpa using point)]
          simp [idRoom]
        rw [nextId]
        dsimp only
        split
        · simp only [List.length_tail, List.length_drop, List.length_cons]
          omega
        · simp only [List.length_drop, List.length_cons]
          omega

theorem length_nextId_le (text : List Char) : (nextId text).2.length ≤ text.length - 1 := by
  by_cases empty : text = []
  · rw [empty]
    rfl
  · have shorter := length_nextId empty
    omega

theorem idsOf_nil (n : ℕ) : idsOf n [] = [] := by cases n <;> rfl

theorem idsOf_parts {m : ℕ} {text : List Char} (enough : text.length ≤ m) :
    (idsOf m text).headD [] = (nextId text).1 ∧
      (idsOf m text).tail = idsOf (m - 1) (nextId text).2 := by
  cases text with
  | nil => rw [idsOf_nil, nextId_nil, idsOf_nil]; exact ⟨rfl, rfl⟩
  | cons c text =>
      obtain ⟨m, rfl⟩ : ∃ k, m = k + 1 := ⟨m - 1, by simp at enough; omega⟩
      exact ⟨rfl, rfl⟩

/-- The loop compares the identifiers place by place; where one text has none left, its place
is filled with an empty one. -/
theorem cmpIds_eq {n m k : ℕ} {a b : List Char} (enough : a.length + b.length ≤ n)
    (enoughA : a.length ≤ m) (enoughB : b.length ≤ k) :
    cmpIds n a b = padded cmpId [] (idsOf m a) (idsOf k b) := by
  induction n generalizing m k a b with
  | zero =>
      obtain rfl : a = [] := List.length_eq_zero_iff.mp (by omega)
      obtain rfl : b = [] := List.length_eq_zero_iff.mp (by omega)
      rw [idsOf_nil, idsOf_nil]
      rfl
  | succ n ih =>
      by_cases empty : a = [] ∧ b = []
      · rw [empty.1, empty.2, idsOf_nil, idsOf_nil]
        rfl
      · have some_ : (a.isEmpty && b.isEmpty) = false := by
          rw [Bool.eq_false_iff, ne_eq, Bool.and_eq_true, List.isEmpty_iff, List.isEmpty_iff]
          exact empty
        have lengths : ¬(a.length = 0 ∧ b.length = 0) := by
          simpa only [List.length_eq_zero_iff] using empty
        have shorterA := length_nextId_le a
        have shorterB := length_nextId_le b
        obtain ⟨headA, tailA⟩ := idsOf_parts enoughA
        obtain ⟨headB, tailB⟩ := idsOf_parts enoughB
        rw [cmpIds, some_, padded_eq, headA, headB, tailA, tailB]
        rw [if_neg Bool.false_ne_true, ih (m := m - 1) (k := k - 1)]
        all_goals omega

/-- The identifiers of a text. -/
def ids (text : List Char) : List (List Char) := idsOf text.length text

/-- What is behind the core: nothing comes after everything, else the identifiers decide. -/
theorem cmpPrerelease_eq (a b : List Char) : cmpPrerelease a b =
    (compare a.isEmpty b.isEmpty).then (padded cmpId [] (ids a) (ids b)) := by
  cases a with
  | nil => cases b <;> rfl
  | cons c a =>
      cases b with
      | nil => rfl
      | cons d b => exact cmpIds_eq le_rfl le_rfl le_rfl

instance : Std.OrientedCmp cmpPrerelease where
  eq_swap {a b} := by
    rw [cmpPrerelease_eq, cmpPrerelease_eq, Ordering.swap_then, ← Std.OrientedCmp.eq_swap,
      ← Std.OrientedCmp.eq_swap]

/-- The order of what is behind the core is a total preorder. -/
instance : Std.TransCmp cmpPrerelease where
  isLE_trans {a b c} first second := by
    rw [cmpPrerelease_eq] at *
    exact then_isLE_trans padded_isLE_trans first second

theorem cmpParts_swap (n : ℕ) (a b : List Char) : cmpParts n a b = (cmpParts n b a).swap := by
  induction n generalizing a b with
  | zero =>
      rw [cmpParts, cmpParts]
      exact Std.OrientedCmp.eq_swap
  | succ n ih =>
      rw [cmpParts, cmpParts]
      by_cases same : (strtol a).1 = (strtol b).1
      · rw [if_neg (not_not.mpr same), if_neg (not_not.mpr same.symm)]
        by_cases moreA : (strtol a).2.head? = some '.' <;>
          by_cases moreB : (strtol b).2.head? = some '.'
        all_goals
          simp only [moreA, moreB, and_self, and_true, and_false, if_true, if_false]
          first
            | exact ih _ _
            | exact Std.OrientedCmp.eq_swap
      · rw [if_pos same, if_pos (Ne.symm same)]
        exact Std.OrientedOrd.eq_swap

theorem versionCompare_swap (a b : List Char) :
    versionCompare a b = (versionCompare b a).swap := cmpParts_swap 4 _ _

theorem versionCompare_self (a : List Char) : versionCompare a a = .eq := by
  have same := versionCompare_swap a a
  cases order : versionCompare a a with
  | eq => rfl
  | lt => rw [order] at same; exact Ordering.noConfusion same
  | gt => rw [order] at same; exact Ordering.noConfusion same

end PiFire.Update
