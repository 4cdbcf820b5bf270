import PiFire.Transition.Slots

/-!
# Tables with a key

A table of slots whose entries have a key, at most one entry for each. This file has
the two ways such a table is edited: an entry takes the slot of the one with its key,
or a free one; and all entries with a key are taken out.
-/

namespace Transition.Slots

universe u v

variable {α : Type u} {κ : Type v} (key : α → κ)
variable {t t' : Slots α} {i : ℕ} {a b : α} {k : κ}

/-- No two slots have entries with one key. -/
def Keyed (t : Slots α) : Prop := Apart (fun a b => key a ≠ key b) t

variable {key}

theorem keyed_iff_nodup : Keyed key t ↔ (t.entries.map key).Nodup := by
  induction t with
  | nil =>
    constructor
    · intro _
      exact List.nodup_nil
    · rintro _ i j a b here
      cases here
  | cons slot rest ih =>
    have later : Keyed key (slot :: rest) → Keyed key rest := by
      intro keyed i j a b first second different
      exact keyed (i + 1) (j + 1) a b first second (by omega)
    cases slot with
    | none =>
      refine Iff.trans ⟨later, ?_⟩ ih
      rintro keyed (_ | i) (_ | j) a b first second different
      · exact absurd rfl different
      · cases first
      · cases second
      · exact keyed i j a b first second (by omega)
    | some c =>
      have shown : entries (some c :: rest) = c :: entries rest := rfl
      rw [shown, List.map_cons, List.nodup_cons, ← ih]
      constructor
      · intro keyed
        refine ⟨?_, later keyed⟩
        intro member
        obtain ⟨a, there, same⟩ := List.mem_map.mp member
        obtain ⟨j, here⟩ := mem_entries.mp there
        exact keyed 0 (j + 1) c a rfl here (by omega) same.symm
      · rintro ⟨new, keyed⟩ (_ | i) (_ | j) a b first second different
        · exact absurd rfl different
        · cases first
          intro same
          exact new (List.mem_map.mpr ⟨b, mem_entries.mpr ⟨j, second⟩, same.symm⟩)
        · cases second
          intro same
          exact new (List.mem_map.mpr ⟨a, mem_entries.mpr ⟨i, first⟩, same⟩)
        · exact keyed i j a b first second (by omega)

theorem length_entries_le (t : Slots α) : t.entries.length ≤ t.length :=
  List.length_filterMap_le id t

/-- A table without a free slot has as many entries as slots. -/
theorem free?_eq_none_iff : t.free? = none ↔ t.entries.length = t.length := by
  rw [free?, List.findIdx?_eq_none_iff]
  induction t with
  | nil => simp [entries]
  | cons slot rest ih =>
    rw [List.forall_mem_cons, ih]
    have fewer := length_entries_le rest
    cases slot with
    | none =>
      have shown : entries (none :: rest) = entries rest := rfl
      rw [shown, List.length_cons]
      simp only [Option.isNone_none, Bool.true_eq_false, false_and, false_iff]
      omega
    | some c =>
      have shown : entries (some c :: rest) = c :: entries rest := rfl
      simp [shown]

/-- A table of a size with the entries of a list in its first slots. -/
def ofList (size : ℕ) (l : List α) : Slots α :=
  l.map some ++ List.replicate (size - l.length) none

theorem entries_ofList (size : ℕ) (l : List α) : (ofList size l).entries = l := by
  simp [ofList, entries, List.filterMap_append, List.filterMap_map]

theorem length_ofList {size : ℕ} {l : List α} (fits : l.length ≤ size) :
    (ofList size l).length = size := by
  simp [ofList, fits]

section Edits

variable [DecidableEq κ] (key)

/-- The slot for an entry with this key. -/
def slotFor? (t : Slots α) (k : κ) : Option ℕ :=
  (t.first? fun a => key a = k).or t.free?

/-- The table without the entries that have this key. -/
def without (t : Slots α) (k : κ) : Slots α :=
  t.map fun slot => slot.filter fun a => key a ≠ k

end Edits

variable [DecidableEq κ]

theorem slotFor?_eq_some (found : t.slotFor? key k = some i) :
    i < t.length ∧ (∀ a, t.at? i = some a → key a = k) ∧
      (t.at? i = none → ∀ a ∈ t.entries, key a ≠ k) := by
  rw [slotFor?, Option.or_eq_some_iff] at found
  rcases found with known | ⟨unknown, free⟩
  · obtain ⟨a, here, same, _⟩ := first?_eq_some known
    refine ⟨lt_of_at? here, ?_, ?_⟩
    · intro b there
      rw [here] at there
      cases there
      exact of_decide_eq_true same
    · intro empty
      rw [here] at empty
      cases empty
  · obtain ⟨inside, empty⟩ := free?_eq_some free
    refine ⟨inside, ?_, ?_⟩
    · intro a here
      rw [empty] at here
      cases here
    · intro _ a member
      obtain ⟨j, here⟩ := mem_entries.mp member
      exact of_decide_eq_false (first?_eq_none.mp unknown j a here)

theorem mem_put (keyed : Keyed key t) (found : t.slotFor? key (key a) = some i) :
    b ∈ entries (t.set i (some a)) ↔ b = a ∨ b ∈ t.entries ∧ key b ≠ key a := by
  obtain ⟨inside, mine, none_else⟩ := slotFor?_eq_some found
  constructor
  · intro member
    obtain ⟨j, here⟩ := mem_entries.mp member
    rcases at?_set_eq_some here with ⟨rfl, same⟩ | ⟨apart, before⟩
    · exact Or.inl (Option.some.inj same).symm
    · right
      refine ⟨mem_entries.mpr ⟨j, before⟩, ?_⟩
      cases at_slot : t.at? i with
      | none => exact none_else at_slot b (mem_entries.mpr ⟨j, before⟩)
      | some c =>
        rw [← mine c at_slot]
        exact keyed j i b c before at_slot (Ne.symm apart)
  · rintro (rfl | ⟨member, other⟩)
    · exact mem_entries.mpr ⟨i, at?_set_self inside⟩
    · obtain ⟨j, here⟩ := mem_entries.mp member
      refine mem_entries.mpr ⟨j, ?_⟩
      rw [at?_set_ne]
      · exact here
      · rintro rfl
        exact other (mine b here)

theorem Keyed.put (keyed : Keyed key t) (found : t.slotFor? key (key a) = some i) :
    Keyed key (t.set i (some a)) := by
  obtain ⟨_, mine, none_else⟩ := slotFor?_eq_some found
  apply Apart.set keyed
  intro j b apart here
  have other : key b ≠ key a := by
    cases at_slot : t.at? i with
    | none => exact none_else at_slot b (mem_entries.mpr ⟨j, here⟩)
    | some c =>
      rw [← mine c at_slot]
      exact keyed j i b c here at_slot (Ne.symm apart)
  exact ⟨other, Ne.symm other⟩

/-- There is no slot for a key just when the table is full of others. -/
theorem slotFor?_eq_none :
    t.slotFor? key k = none ↔ (∀ a ∈ t.entries, key a ≠ k) ∧ t.entries.length = t.length := by
  rw [slotFor?, Option.or_eq_none_iff, first?_eq_none, free?_eq_none_iff]
  refine and_congr_left fun _ => ?_
  constructor
  · intro none_has a member
    obtain ⟨i, here⟩ := mem_entries.mp member
    exact of_decide_eq_false (none_has i a here)
  · intro none_has i a here
    exact decide_eq_false (none_has a (mem_entries.mpr ⟨i, here⟩))

theorem length_without : (t.without key k).length = t.length := List.length_map _

theorem at?_without : (t.without key k).at? i = some a ↔ t.at? i = some a ∧ key a ≠ k := by
  rw [at?, at?, without, List.getElem?_map]
  cases t[i]? with
  | none => simp
  | some slot => simp [Option.filter_eq_some_iff]

theorem mem_without : a ∈ (t.without key k).entries ↔ a ∈ t.entries ∧ key a ≠ k := by
  simp only [mem_entries, at?_without, exists_and_right]

theorem Keyed.without (keyed : Keyed key t) (k : κ) : Keyed key (t.without key k) := by
  intro i j a b first second
  exact keyed i j a b (at?_without.mp first).1 (at?_without.mp second).1

end Transition.Slots
