import Mathlib.Logic.Function.Basic
import Mathlib.Data.Nat.ModEq
import Mathlib.Data.List.Basic

/-!
# Ring buffers

A queue of bounded length in a fixed number of slots: the oldest entry is at the
head, and the slots wrap around. What it holds, oldest first, is a list; a push
appends to the list while there is room and leaves a full ring as it is, and a
pop takes the list's first entry.
-/

namespace Transition

universe u

/-- A ring of `n` slots, of which `len` from the head on are filled. -/
structure Ring (α : Type u) (n : ℕ) where
  slots : ℕ → α
  head : ℕ
  len : ℕ
  head_lt : head < n
  len_le : len ≤ n

namespace Ring

variable {α : Type u} {n : ℕ}

/-- The slot of the entry `i` places behind the head. -/
def index (r : Ring α n) (i : ℕ) : ℕ :=
  (r.head + i) % n

/-- What the ring holds, oldest first. -/
def toList (r : Ring α n) : List α :=
  (List.range r.len).map fun i => r.slots (r.index i)

/-- A ring that holds nothing. -/
def empty [Inhabited α] (positive : 0 < n) : Ring α n :=
  { slots := fun _ => default
    head := 0
    len := 0
    head_lt := positive
    len_le := Nat.zero_le n }

/-- Add an entry behind the others. The flag says whether there was room. -/
def push (x : α) (r : Ring α n) : Ring α n × Bool :=
  if room : r.len < n then
    ({ r with
       slots := Function.update r.slots (r.index r.len) x
       len := r.len + 1
       len_le := room }, true)
  else (r, false)

/-- Take the oldest entry. -/
def pop (r : Ring α n) : Option (α × Ring α n) :=
  if r.len = 0 then none
  else
    some (r.slots r.head,
      { r with
        head := (r.head + 1) % n
        len := r.len - 1
        head_lt := Nat.mod_lt _ (Nat.zero_lt_of_lt r.head_lt)
        len_le := (Nat.sub_le _ _).trans r.len_le })

/-- Take entries until there are none, at most `fuel` of them. -/
def popAll : ℕ → Ring α n → List α × Ring α n
  | 0, r => ([], r)
  | fuel + 1, r =>
      match r.pop with
      | none => ([], r)
      | some (x, rest) => (x :: (popAll fuel rest).1, (popAll fuel rest).2)

/-- Add entries one after the other. -/
def pushAll (xs : List α) (r : Ring α n) : Ring α n :=
  xs.foldl (fun r x => (r.push x).1) r

section Contents

variable (r : Ring α n)

@[simp]
theorem length_toList : r.toList.length = r.len := by
  simp [toList]

@[simp]
theorem toList_empty [Inhabited α] (positive : 0 < n) :
    (empty positive : Ring α n).toList = [] := rfl

theorem index_injOn {i j : ℕ} (first : i < n) (second : j < n) (same : r.index i = r.index j) :
    i = j := by
  have congruent : r.head + i ≡ r.head + j [MOD n] := same
  have cancelled := Nat.ModEq.add_left_cancel' r.head congruent
  exact Nat.ModEq.eq_of_lt_of_lt cancelled first second

end Contents

variable {r : Ring α n} {x : α}

theorem push_room (room : r.len < n) : (r.push x).2 = true := by
  simp [push, room]

theorem toList_push (room : r.len < n) : (r.push x).1.toList = r.toList ++ [x] := by
  have kept : ∀ i ∈ List.range r.len,
      Function.update r.slots (r.index r.len) x (r.index i) = r.slots (r.index i) := by
    intro i inside
    have lower : i < r.len := List.mem_range.mp inside
    apply Function.update_of_ne
    intro same
    exact lower.ne (r.index_injOn (lower.trans room) room same)
  have index (i : ℕ) : (r.push x).1.index i = r.index i := by
    simp only [push, room, dif_pos]
    rfl
  have slots : (r.push x).1.slots = Function.update r.slots (r.index r.len) x := by
    simp [push, room]
  have len : (r.push x).1.len = r.len + 1 := by
    simp [push, room]
  simp only [toList, index, slots, len]
  rw [List.range_succ, List.map_append, List.map_congr_left kept]
  simp

theorem push_full (full : ¬r.len < n) : r.push x = (r, false) := by
  simp [push, full]

theorem toList_pushAll (xs : List α) (r : Ring α n) :
    (r.pushAll xs).toList = r.toList ++ xs.take (n - r.len) := by
  induction xs generalizing r with
  | nil => simp [pushAll]
  | cons x xs ih =>
      have unfolded : r.pushAll (x :: xs) = (r.push x).1.pushAll xs := rfl
      rw [unfolded, ih]
      by_cases room : r.len < n
      · have len : (r.push x).1.len = r.len + 1 := by simp [push, room]
        have left : n - r.len = (n - (r.len + 1)) + 1 := by omega
        rw [toList_push room, len, left, List.take_succ_cons, List.append_assoc]
        rfl
      · have none : n - r.len = 0 := by omega
        rw [push_full room, none, List.take_zero, List.take_zero]

end Ring

end Transition

/-!
# Bounded stacks

A stack holds at most so many entries. A push onto a full one takes the place of
its top, so the stack never grows past its bound and no push fails.
-/

namespace Transition

universe u

/-- A stack of at most `n` entries, the top first. -/
@[ext]
structure Stack (α : Type u) (n : ℕ) where
  entries : List α
  length_le : entries.length ≤ n

namespace Stack

variable {α : Type u} {n : ℕ}

/-- The stack without entries. -/
def empty : Stack α n := ⟨[], Nat.zero_le n⟩

/-- What a push onto a full stack leaves under its entry. -/
def makeRoom (s : Stack α n) : List α :=
  if s.entries.length ≥ n then s.entries.tail else s.entries

/-- Push an entry. -/
def push (s : Stack α (n + 1)) (entry : α) : Stack α (n + 1) where
  entries := entry :: s.makeRoom
  length_le := by
    have bound := s.length_le
    unfold makeRoom
    split
    · rw [List.length_cons, List.length_tail]
      omega
    · rw [List.length_cons]
      omega

/-- Remove the top. -/
def pop (s : Stack α n) : Stack α n where
  entries := s.entries.tail
  length_le := by
    have bound := s.length_le
    rw [List.length_tail]
    omega

/-- Change the top. -/
def onTop (s : Stack α n) (f : α → α) : Stack α n where
  entries := s.entries.modifyHead f
  length_le := by
    rw [List.length_modifyHead]
    exact s.length_le

def top? (s : Stack α n) : Option α := s.entries.head?

@[simp] theorem top?_onTop (s : Stack α n) (f : α → α) : (s.onTop f).top? = s.top?.map f := by
  obtain ⟨entries, _⟩ := s
  cases entries <;> rfl

@[simp] theorem tail_onTop (s : Stack α n) (f : α → α) :
    (s.onTop f).entries.tail = s.entries.tail := by
  obtain ⟨entries, _⟩ := s
  cases entries <;> rfl

/-- Every entry has the property. -/
def All (p : α → Prop) (s : Stack α n) : Prop := ∀ entry ∈ s.entries, p entry

variable {p : α → Prop}

theorem all_empty : (empty : Stack α n).All p := by
  intro entry inside
  cases inside

theorem makeRoom_subset (s : Stack α n) : s.makeRoom ⊆ s.entries := by
  unfold makeRoom
  split
  · exact (List.tail_sublist _).subset
  · exact List.Subset.refl _

theorem All.push {s : Stack α (n + 1)} (all : s.All p) {entry : α} (has : p entry) :
    (s.push entry).All p := by
  intro other inside
  rcases List.mem_cons.mp inside with same | below
  · exact same ▸ has
  · exact all other (s.makeRoom_subset below)

theorem All.pop_push {s : Stack α (n + 1)} (all : s.All p) (entry : α) :
    (s.push entry).pop.All p := by
  intro other inside
  exact all other (s.makeRoom_subset inside)

theorem All.pop {s : Stack α n} (all : s.All p) : s.pop.All p := by
  intro entry inside
  exact all entry (List.mem_of_mem_tail inside)

theorem All.onTop {s : Stack α n} (all : s.All p) {f : α → α}
    (keeps : ∀ entry, p entry → p (f entry)) : (s.onTop f).All p := by
  obtain ⟨entries, _⟩ := s
  cases entries with
  | nil => exact all
  | cons first rest =>
      intro entry inside
      rcases List.mem_cons.mp inside with same | below
      · rw [same]
        exact keeps first (all first List.mem_cons_self)
      · exact all entry (List.mem_cons_of_mem first below)

theorem All.top {s : Stack α n} (all : s.All p) {entry : α} (top : s.top? = some entry) : p entry :=
  all entry (List.mem_of_head? top)

end Stack

end Transition
