import Mathlib.Data.List.Perm.Basic
import Mathlib.Data.List.Basic
import Mathlib.Data.Multiset.ZeroCons
import Mathlib.Data.List.Induction

/-!
# Tables of slots

A table has a fixed number of slots, each holding an entry or nothing. This file
has what is in a slot, what is in the table, and how both change when one slot
is written: which entries are left, and when a relation between any two of them
is kept.
-/

namespace Transition

universe u

/-- A table; a slot that is not used is `none`. -/
abbrev Slots (α : Type u) := List (Option α)

namespace Slots

variable {α : Type u} {t : Slots α} {i j : ℕ} {a b : α}

/-- The entry in a slot. -/
def at? (t : Slots α) (i : ℕ) : Option α := t[i]?.join

/-- The entries of a table, in the order of their slots. -/
def entries (t : Slots α) : List α := t.filterMap id

/-- The first slot whose entry passes a test. -/
def first? (t : Slots α) (test : α → Bool) : Option ℕ := t.findIdx? fun slot => slot.any test

/-- The first slot that is not used. -/
def free? (t : Slots α) : Option ℕ := t.findIdx? Option.isNone

/-- Any two entries in different slots are related. -/
def Apart (r : α → α → Prop) (t : Slots α) : Prop :=
  ∀ i j a b, t.at? i = some a → t.at? j = some b → i ≠ j → r a b

theorem lt_of_at? (here : t.at? i = some a) : i < t.length := by
  by_contra outside
  rw [at?, List.getElem?_eq_none (Nat.le_of_not_lt outside)] at here
  cases here

theorem getElem?_of_at? (here : t.at? i = some a) : t[i]? = some (some a) :=
  Option.join_eq_some_iff.mp here

theorem mem_entries : a ∈ t.entries ↔ ∃ i, t.at? i = some a := by
  rw [entries, List.mem_filterMap]
  constructor
  · rintro ⟨slot, member, same⟩
    obtain ⟨i, here⟩ := List.getElem?_of_mem member
    refine ⟨i, ?_⟩
    rw [at?, here]
    exact same
  · rintro ⟨i, here⟩
    exact ⟨some a, List.mem_of_getElem? (getElem?_of_at? here), rfl⟩

theorem at?_set_self {slot : Option α} (inside : i < t.length) : at? (t.set i slot) i = slot := by
  rw [at?, List.getElem?_set_self inside]
  rfl

theorem at?_set_ne {slot : Option α} (apart : i ≠ j) : at? (t.set i slot) j = t.at? j := by
  rw [at?, at?, List.getElem?_set_ne apart]

theorem at?_set_eq_some {slot : Option α} (found : at? (t.set i slot) j = some a) :
    i = j ∧ slot = some a ∨ i ≠ j ∧ t.at? j = some a := by
  by_cases same : i = j
  · subst same
    have inside := lt_of_at? found
    rw [List.length_set] at inside
    rw [at?_set_self inside] at found
    exact Or.inl ⟨rfl, found⟩
  · rw [at?_set_ne same] at found
    exact Or.inr ⟨same, found⟩

theorem set_self (here : t.at? i = some a) : t.set i (some a) = t := by
  apply List.ext_getElem?
  intro k
  by_cases same : i = k
  · subst same
    rw [List.getElem?_set_self (lt_of_at? here), getElem?_of_at? here]
  · rw [List.getElem?_set_ne same]

theorem set_none (inside : i < t.length) (unused : t.at? i = none) : t.set i none = t := by
  apply List.ext_getElem?
  intro k
  by_cases same : i = k
  · subst same
    rw [List.getElem?_set_self inside, List.getElem?_eq_getElem inside]
    rw [at?, List.getElem?_eq_getElem inside] at unused
    exact congrArg some (Eq.symm unused)
  · rw [List.getElem?_set_ne same]

theorem first?_eq_some {test : α → Bool} (found : t.first? test = some i) :
    ∃ a, t.at? i = some a ∧ test a = true ∧
      ∀ j b, j < i → t.at? j = some b → test b = false := by
  obtain ⟨inside, passes, before⟩ := List.findIdx?_eq_some_iff_getElem.mp found
  obtain ⟨a, same, passed⟩ := (Option.any_eq_true _ _).mp passes
  refine ⟨a, ?_, passed, ?_⟩
  · rw [at?, List.getElem?_eq_getElem inside, same]
    rfl
  · intro j b earlier there
    have slot := List.getElem?_eq_some_iff.mp (getElem?_of_at? there)
    have fails := before j earlier
    rw [slot.2] at fails
    simpa using fails

theorem first?_eq_none {test : α → Bool} :
    t.first? test = none ↔ ∀ i a, t.at? i = some a → test a = false := by
  rw [first?, List.findIdx?_eq_none_iff]
  constructor
  · intro none_ i a here
    simpa using none_ _ (List.mem_of_getElem? (getElem?_of_at? here))
  · intro none_ slot member
    cases slot with
    | none => rfl
    | some a =>
        obtain ⟨i, here⟩ := List.getElem?_of_mem member
        simpa using none_ i a (by rw [at?, here]; rfl)

theorem first?_eq {test : α → Bool} (here : t.at? i = some a) (passes : test a = true)
    (before : ∀ j b, j < i → t.at? j = some b → test b = false) : t.first? test = some i := by
  cases found : t.first? test with
  | none =>
      rw [first?_eq_none.mp found i a here] at passes
      cases passes
  | some k =>
      obtain ⟨b, there, passed, earlier⟩ := first?_eq_some found
      rcases Nat.lt_trichotomy k i with less | same | more
      · rw [before k b less there] at passed
        cases passed
      · rw [same]
      · rw [earlier i a more here] at passes
        cases passes

theorem free?_eq_some (found : t.free? = some i) : i < t.length ∧ t.at? i = none := by
  obtain ⟨inside, unused, -⟩ := List.findIdx?_eq_some_iff_getElem.mp found
  refine ⟨inside, ?_⟩
  rw [at?, List.getElem?_eq_getElem inside, Option.isNone_iff_eq_none.mp unused]
  rfl

theorem free?_eq_none : t.free? = none ↔ ∀ i < t.length, ∃ a, t.at? i = some a := by
  rw [free?, List.findIdx?_eq_none_iff]
  constructor
  · intro full i inside
    have used := full _ (List.getElem_mem inside)
    obtain ⟨a, same⟩ := Option.isSome_iff_exists.mp (by simpa using used)
    refine ⟨a, ?_⟩
    rw [at?, List.getElem?_eq_getElem inside, same]
    rfl
  · intro full slot member
    obtain ⟨i, here⟩ := List.getElem?_of_mem member
    obtain ⟨inside, same⟩ := List.getElem?_eq_some_iff.mp here
    obtain ⟨a, used⟩ := full i inside
    rw [at?, here] at used
    change slot = some a at used
    rw [used]
    rfl

theorem entries_set (inside : i < t.length) :
    (entries (t.set i (some b))).Perm (b :: entries (t.set i none)) := by
  induction t generalizing i with
  | nil => simp at inside
  | cons slot rest ih =>
      cases i with
      | zero => simp [entries]
      | succ i =>
          have later := ih (Nat.lt_of_succ_lt_succ inside)
          cases slot with
          | none => simpa [entries] using later
          | some a =>
              have swapped := (later.cons a).trans (List.Perm.swap b a _)
              simpa [entries] using swapped

theorem entries_at (here : t.at? i = some a) :
    t.entries.Perm (a :: entries (t.set i none)) := by
  have written := entries_set (b := a) (lt_of_at? here)
  rwa [set_self here] at written

/-- A relation between any two entries is kept by writing an entry that is so
related to the others. -/
theorem Apart.set {r : α → α → Prop} (apart : Apart r t)
    (others : ∀ j a, i ≠ j → t.at? j = some a → r a b ∧ r b a) : Apart r (t.set i (some b)) := by
  intro j k a c first second different
  rcases at?_set_eq_some first with ⟨rfl, same⟩ | ⟨elsewhere, before⟩
  · cases same
    rcases at?_set_eq_some second with ⟨rfl, -⟩ | ⟨elsewhere, before⟩
    · exact absurd rfl different
    · exact (others k c elsewhere before).2
  · rcases at?_set_eq_some second with ⟨rfl, same⟩ | ⟨-, after⟩
    · cases same
      exact (others j a elsewhere before).1
    · exact apart j k a c before after different

theorem Apart.erase {r : α → α → Prop} (apart : Apart r t) (i : ℕ) :
    Apart r (t.set i none) := by
  intro j k a c first second different
  rcases at?_set_eq_some first with ⟨-, same⟩ | ⟨-, before⟩
  · cases same
  · rcases at?_set_eq_some second with ⟨-, same⟩ | ⟨-, after⟩
    · cases same
    · exact apart j k a c before after different

theorem entries_set_perm_iff (here : t.at? i = some a) :
    t.entries.Perm (entries (t.set i (some b))) ↔ a = b := by
  constructor
  · intro same
    have kept := ((entries_at here).symm.trans same).trans (entries_set (lt_of_at? here))
    rw [← Multiset.coe_eq_coe, ← Multiset.cons_coe, ← Multiset.cons_coe] at kept
    exact (Multiset.cons_inj_left _).mp kept
  · rintro rfl
    rw [set_self here]

theorem entries_set_free (inside : i < t.length) (unused : t.at? i = none) :
    (entries (t.set i (some b))).Perm (b :: t.entries) := by
  have written := entries_set (b := b) inside
  rwa [set_none inside unused] at written

theorem not_perm_set_none (here : t.at? i = some a) :
    ¬t.entries.Perm (entries (t.set i none)) := by
  intro same
  have lengths := same.length_eq
  rw [(entries_at here).length_eq, List.length_cons] at lengths
  omega

/-- An entry that was written over in favour of others is missed. -/
theorem not_perm_set_set {c d : α} (different : i ≠ j) (first : t.at? i = some a)
    (second : t.at? j = some b) (notFirst : b ≠ c) (notSecond : b ≠ d) :
    ¬t.entries.Perm (entries ((t.set i (some c)).set j (some d))) := by
  classical
  intro same
  have elsewhere : at? (t.set j none) i = some a := by rwa [at?_set_ne (Ne.symm different)]
  have before := (entries_at second).trans ((entries_at elsewhere).cons b)
  have inside : j < (t.set i (some c)).length := by
    rw [List.length_set]
    exact lt_of_at? second
  have swapped : (t.set i (some c)).set j none = (t.set j none).set i (some c) :=
    List.set_comm _ _ different
  have written := entries_set (b := d) inside
  rw [swapped] at written
  have after := written.trans ((entries_set (b := c) (lt_of_at? elsewhere)).cons d)
  have counts := ((before.symm.trans same).trans after).count_eq b
  rw [List.count_cons_self, List.count_cons_of_ne notSecond.symm,
    List.count_cons_of_ne notFirst.symm] at counts
  have more := List.count_le_count_cons (a := b) (b := a)
    (l := entries ((t.set j none).set i none))
  omega

section Map

variable {β : Type u} (f : α → β)

/-- Every entry seen through a function. -/
def view (t : Slots α) : Slots β := t.map (Option.map f)

theorem length_view : (t.view f).length = t.length := List.length_map _

theorem at?_view : (t.view f).at? i = (t.at? i).map f := by
  rw [at?, at?, view, List.getElem?_map]
  cases t[i]? with
  | none => rfl
  | some slot => rfl

theorem view_set (slot : Option α) : view f (t.set i slot) = (t.view f).set i (slot.map f) :=
  List.map_set

theorem first?_view (test : β → Bool) :
    (t.view f).first? test = t.first? fun a => test (f a) := by
  rw [first?, view, List.findIdx?_map, first?]
  congr 1
  funext slot
  cases slot <;> rfl

theorem free?_view : (t.view f).free? = t.free? := by
  rw [free?, view, List.findIdx?_map, free?]
  congr 1
  funext slot
  cases slot <;> rfl

end Map

end Slots

end Transition

/-!
# Filling a table

An entry takes the place of the first that is like it, else the first slot that is free. A
fresh table that is filled from a list holds exactly that list, where no two of it are
alike; it holds fewer entries where two are.
-/

namespace Transition

namespace Slots

universe u

variable {α : Type u} (alike : α → α → Bool) {t : Slots α} {l : List α} {a : α} {n : ℕ}

/-- An entry is put in its place; a full table without one is left as it is. -/
def place (t : Slots α) (a : α) : Slots α :=
  match t.first? (alike a) with
  | some i => t.set i (some a)
  | none =>
      match t.free? with
      | some i => t.set i (some a)
      | none => t

/-- A table filled from a list, up to its end. -/
def filled (l : List α) (n : ℕ) : Slots α := l.map some ++ List.replicate (n - l.length) none

variable {alike}

@[simp]
theorem entries_filled (l : List α) (n : ℕ) : entries (filled l n) = l := by
  rw [entries, filled, List.filterMap_append, List.filterMap_map,
    List.filterMap_replicate_of_none rfl, List.append_nil]
  exact List.filterMap_some

theorem free?_filled (room : l.length < n) : (filled l n).free? = some l.length := by
  have split : n - l.length = n - l.length - 1 + 1 := by omega
  rw [free?, filled, split, List.replicate_succ, List.findIdx?_append, List.findIdx?_cons]
  have used : (l.map some).findIdx? Option.isNone = none := by
    rw [List.findIdx?_eq_none_iff]
    intro slot member
    obtain ⟨a, _, rfl⟩ := List.mem_map.mp member
    rfl
  rw [used]
  simp

theorem set_filled (room : l.length < n) (a : α) :
    (filled l n).set l.length (some a) = filled (l ++ [a]) n := by
  have split : n - l.length = n - (l ++ [a]).length + 1 := by
    rw [List.length_append, List.length_singleton]
    omega
  rw [filled, filled, split, List.replicate_succ,
    List.set_append_right _ _ (List.length_map some).le, List.length_map, Nat.sub_self,
    List.set_cons_zero, List.map_append, List.append_assoc]
  rfl

/-- An entry that is like none of the list goes to its end. -/
theorem place_filled (room : l.length < n) (apart : ∀ b ∈ l, alike a b = false) :
    place alike (filled l n) a = filled (l ++ [a]) n := by
  have missing : (filled l n).first? (alike a) = none := by
    rw [first?_eq_none]
    intro i b here
    apply apart
    rw [← entries_filled l n]
    exact mem_entries.mpr ⟨i, here⟩
  rw [place, missing, free?_filled room]
  exact set_filled room a

/-- A fresh table holds a list no two of which are alike. -/
theorem foldl_place (few : l.length ≤ n) (apart : l.Pairwise fun a b => alike b a = false) :
    l.foldl (place alike) (List.replicate n none) = filled l n := by
  induction l using List.reverseRecOn with
  | nil => rfl
  | append_singleton l a ih =>
      rw [List.length_append, List.length_singleton] at few
      obtain ⟨before, _, last⟩ := List.pairwise_append.mp apart
      rw [List.foldl_append, ih (by omega) before]
      exact place_filled (by omega) fun b member => last b member a List.mem_cons_self

theorem length_place (t : Slots α) (a : α) : (place alike t a).length = t.length := by
  rw [place]
  split
  · exact List.length_set
  · split
    · exact List.length_set
    · rfl

theorem length_foldl_place (t : Slots α) (l : List α) :
    (l.foldl (place alike) t).length = t.length := by
  induction l generalizing t with
  | nil => rfl
  | cons a l ih =>
      rw [List.foldl_cons, ih, length_place]

/-- Put in the place of another, an entry makes no more of them. -/
theorem length_entries_replace {i : ℕ} (found : t.first? (alike a) = some i) :
    (entries (place alike t a)).length = t.entries.length := by
  obtain ⟨b, here, _⟩ := first?_eq_some found
  rw [place, found]
  dsimp only
  rw [(entries_set (lt_of_at? here)).length_eq, (entries_at here).length_eq, List.length_cons,
    List.length_cons]

theorem length_entries_place_le (t : Slots α) (a : α) :
    (entries (place alike t a)).length ≤ t.entries.length + 1 := by
  cases found : t.first? (alike a) with
  | some i => exact (length_entries_replace found).trans_le (Nat.le_succ _)
  | none =>
      rw [place, found]
      dsimp only
      split
      · rename_i i free
        obtain ⟨inside, unused⟩ := free?_eq_some free
        rw [(entries_set_free inside unused).length_eq, List.length_cons]
      · exact Nat.le_succ _

theorem length_entries_foldl_place_le (l : List α) :
    (entries (l.foldl (place alike) (List.replicate n none))).length ≤ l.length := by
  induction l using List.reverseRecOn with
  | nil => simp [entries, List.filterMap_replicate_of_none]
  | append_singleton l a ih =>
      rw [List.foldl_append, List.length_append]
      exact (length_entries_place_le _ a).trans (Nat.succ_le_succ ih)

/-- Where a fresh table holds as many entries as were put in it, no two of them are alike. -/
theorem pairwise_of_foldl_place
    (all : (entries (l.foldl (place alike) (List.replicate n none))).length = l.length) :
    l.length ≤ n ∧ l.Pairwise fun a b => alike b a = false := by
  have few : l.length ≤ n := by
    rw [← all]
    refine (List.length_filterMap_le _ _).trans_eq ?_
    rw [length_foldl_place, List.length_replicate]
  refine ⟨few, ?_⟩
  induction l using List.reverseRecOn with
  | nil => exact List.Pairwise.nil
  | append_singleton l a ih =>
      rw [List.length_append, List.length_singleton] at all few
      rw [List.foldl_append] at all
      have most : (entries (l.foldl (place alike) (List.replicate n none))).length ≤ l.length :=
        length_entries_foldl_place_le l
      have one : (entries (place alike (l.foldl (place alike) (List.replicate n none)) a)).length ≤
          (entries (l.foldl (place alike) (List.replicate n none))).length + 1 :=
        length_entries_place_le _ a
      have before := ih (Nat.le_antisymm most (by
        rw [List.foldl_cons, List.foldl_nil] at all
        omega)) (by omega)
      rw [List.pairwise_append]
      refine ⟨before, List.pairwise_singleton _ _, ?_⟩
      intro b member c last
      rw [List.mem_singleton.mp last]
      rw [foldl_place (by omega) before] at all
      cases found : (filled l n).first? (alike a) with
      | some i =>
          rw [List.foldl_cons, List.foldl_nil, length_entries_replace found, entries_filled] at all
          omega
      | none =>
          obtain ⟨i, here⟩ := mem_entries.mp (by rwa [entries_filled] : b ∈ (filled l n).entries)
          exact first?_eq_none.mp found i b here

end Slots

end Transition
