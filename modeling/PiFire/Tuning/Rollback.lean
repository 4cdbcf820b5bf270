import PiFire.Tuning.Outline
import PiFire.Tuning.Tuner
import PiFire.Transition.Run

/-!
# Taking a tuning back

A tuning that does not hold is taken back: what its set point had before is put
back, or the entry is removed where it had nothing. The store it undoes may have
done more than that, and a run that is stopped undoes nothing. This file has
exactly when the library is afterwards what it was before the store.
-/

namespace PiFire.Tuning

open Transition

/-- The library in outline. -/
abbrev outlines (l : Learning) : Slots Outline := l.library.slots.view TuneAnchor.outline

/-- An outline within the match distance of a set point. -/
def Outline.matches (s : ℚ) (o : Outline) : Bool := |o.setpointC - s| < 5

/-- Two libraries hold the same entries, with the same set points and tunings. -/
def Same (l l' : Learning) : Prop := (outlines l).entries.Perm (outlines l').entries

instance (l l' : Learning) : Decidable (Same l l') :=
  inferInstanceAs (Decidable (List.Perm _ _))

/-- What putting back or removing does to the outlines. -/
def takeBack (prev : Option Outline) (s : ℚ) (t : Slots Outline) : Slots Outline :=
  match prev with
  | some p =>
      if 0 < p.gains.PBc ∧ 0 < p.gains.Ti then
        match t.first? (Outline.matches p.setpointC) with
        | some i => t.set i (some p)
        | none =>
            match t.free? with
            | some i => t.set i (some p)
            | none => t
      else t
  | none =>
      match t.first? (Outline.matches s) with
      | some i => t.set i none
      | none => t

theorem takeBack_found {t : Slots Outline} {p : Outline} {i : ℕ} (s : ℚ)
    (fit : 0 < p.gains.PBc ∧ 0 < p.gains.Ti)
    (found : t.first? (Outline.matches p.setpointC) = some i) :
    takeBack (some p) s t = t.set i (some p) := by
  simp only [takeBack, if_pos fit, found]

theorem takeBack_unfit {t : Slots Outline} {p : Outline} (s : ℚ)
    (unfit : ¬(0 < p.gains.PBc ∧ 0 < p.gains.Ti)) : takeBack (some p) s t = t := by
  simp only [takeBack, if_neg unfit]

theorem first?_outlines (l : Learning) (s : ℚ) :
    (outlines l).first? (Outline.matches s) = l.library.slots.first? (near s) :=
  Slots.first?_view TuneAnchor.outline (Outline.matches s)

theorem outlines_removeAnchor (l : Learning) (s : ℚ) :
    outlines (l.removeAnchor s) = takeBack none s (outlines l) := by
  simp only [takeBack, first?_outlines, Learning.removeAnchor]
  cases l.library.slots.first? (near s) with
  | some i => exact Slots.view_set TuneAnchor.outline none
  | none => rfl

theorem outlines_putAnchor (l : Learning) (a : TuneAnchor) (s : ℚ) :
    outlines (l.putAnchor a) = takeBack (some a.outline) s (outlines l) := by
  simp only [takeBack, Learning.putAnchor]
  by_cases useless : a.PBc ≤ 0 ∨ a.Ti ≤ 0
  · have unfit : ¬(0 < a.outline.gains.PBc ∧ 0 < a.outline.gains.Ti) := by
      rintro ⟨band, integral⟩
      rcases useless with none_ | none_
      · exact absurd band (not_lt.mpr none_)
      · exact absurd integral (not_lt.mpr none_)
    rw [if_pos useless, if_neg unfit]
  · have fit : 0 < a.outline.gains.PBc ∧ 0 < a.outline.gains.Ti := by
      rw [not_or, not_le, not_le] at useless
      exact useless
    have place := first?_outlines l a.setpointC
    have free : (outlines l).free? = l.library.slots.free? := Slots.free?_view TuneAnchor.outline
    rw [if_neg useless, if_pos fit]
    change _ = match (outlines l).first? (Outline.matches a.setpointC) with
      | some i => _
      | none => _
    rw [place, free]
    cases l.library.slots.first? (near a.setpointC) with
    | some i => exact Slots.view_set TuneAnchor.outline (some a)
    | none =>
        cases l.library.slots.free? with
        | some i => exact Slots.view_set TuneAnchor.outline (some a)
        | none => rfl

theorem outlines_rollBack (g : Tuner) (l : Learning) (wall : ℚ) :
    outlines (g.rollBack l wall) =
      takeBack (g.prevAnchor.map TuneAnchor.outline) g.point (outlines l) := by
  have result (l : Learning) : outlines (if g.prevResult.valid then
      l.storeAutotune g.prevResult wall else l) = outlines l := by
    split <;> rfl
  unfold Tuner.rollBack
  rw [result]
  cases g.prevAnchor with
  | some prev => exact outlines_putAnchor l prev g.point
  | none => exact outlines_removeAnchor l g.point

theorem outlines_storeAnchorPlant (l : Learning) (s K tau theta : ℚ) :
    outlines (l.storeAnchorPlant s K tau theta) = outlines l := by
  rcases l.storeAnchorPlant_slots s K tau theta with same | ⟨i, a, b, here, drawn, written⟩
  · rw [outlines, same]
  · rw [outlines, written, Slots.view_set, Option.map_some, drawn]
    apply Slots.set_self
    rw [Slots.at?_view, here]
    rfl

theorem outlines_storeFopdt (l : Learning) (K tau theta wall : ℚ) :
    outlines (l.storeFopdt K tau theta wall) = outlines l := by
  unfold Learning.storeFopdt
  split
  · split <;> rfl
  · rfl

/-- The measurement says again what the first entry that matches says. -/
def Repeats (t : Slots Outline) (s : ℚ) (gains : Gains) : Prop :=
  ∃ i, t.first? (Outline.matches s) = some i ∧ t.at? i = some ⟨s, gains⟩

theorem matches_self (o : Outline) : o.matches o.setpointC = true := by
  simp [Outline.matches]

theorem outlines_storeAnchor (formulas : RelayFormulas) (l : Learning) (s : ℚ)
    (r : AutotuneResult) (ambient : Option ℚ) (wind wall : ℚ) (usable : Learning.Usable r) :
    let slot := storeSlot l.library.slots s
    let old := l.library.slots.at? slot
    outlines (l.storeAnchor formulas s r ambient wind wall) =
      (outlines l).set slot (some
        ⟨s, (old.getD TuneAnchor.blank).gains.mix r.gains (TuneAnchor.weight old s)⟩) := by
  obtain ⟨a, written, drawn⟩ := Learning.storeAnchor_spec formulas l s r ambient wind wall usable
  dsimp only
  rw [outlines, written, Slots.view_set, Option.map_some, drawn]

/-- A usable measurement leaves the entries as they were exactly when it says
again what the first entry that matches says. -/
theorem same_store_iff (formulas : RelayFormulas) (l : Learning) (s : ℚ)
    (r : AutotuneResult) (ambient : Option ℚ) (wind wall : ℚ) (usable : Learning.Usable r) :
    Same l (l.storeAnchor formulas s r ambient wind wall) ↔ Repeats (outlines l) s r.gains := by
  have inside := storeSlot_lt l.library.room s
  rw [Same, outlines_storeAnchor formulas l s r ambient wind wall usable, Repeats,
    first?_outlines]
  rcases storeSlot_cases l.library.slots s with matching | ⟨none_, free⟩ | ⟨none_, full, -⟩
  · obtain ⟨a, here, -⟩ := Slots.first?_eq_some matching
    have drawn : (outlines l).at? (storeSlot l.library.slots s) = some a.outline := by
      rw [Slots.at?_view, here]
      rfl
    have moves : 0 < TuneAnchor.weight (some a) s :=
      lt_of_lt_of_le (by norm_num) (weight_ge (some a) s)
    rw [Slots.entries_set_perm_iff drawn, matching, here]
    constructor
    · intro same
      have gains : a.gains = _ := congrArg Outline.gains same
      rw [eq_comm, Option.getD_some, Gains.mix_eq_self moves] at gains
      refine ⟨_, rfl, ?_⟩
      rw [drawn, gains]
      exact congrArg some (congrArg (Outline.mk · a.gains) (congrArg Outline.setpointC same))
    · rintro ⟨i, found, said⟩
      rw [← Option.some.inj found, drawn, Option.some.injEq] at said
      have gains : a.gains = r.gains := congrArg Outline.gains said
      rw [Option.getD_some, gains, said, (Gains.mix_eq_self moves).mpr rfl]
  · rw [none_]
    refine iff_of_false ?_ ?_
    · intro same
      have more := Slots.entries_set_free (t := outlines l)
        (b := ⟨s, ((l.library.slots.at? (storeSlot l.library.slots s)).getD
          TuneAnchor.blank).gains.mix r.gains
            (TuneAnchor.weight (l.library.slots.at? (storeSlot l.library.slots s)) s)⟩)
        (by rwa [Slots.length_view]) (by rw [Slots.at?_view, (Slots.free?_eq_some free).2]; rfl)
      have lengths := (same.trans more).length_eq
      rw [List.length_cons] at lengths
      omega
    · rintro ⟨i, found, -⟩
      cases found
  · rw [none_]
    obtain ⟨a, here⟩ := Slots.free?_eq_none.mp full _ inside
    have drawn : (outlines l).at? (storeSlot l.library.slots s) = some a.outline := by
      rw [Slots.at?_view, here]
      rfl
    rw [Slots.entries_set_perm_iff drawn]
    refine iff_of_false ?_ ?_
    · intro same
      have place : a.setpointC = s := congrArg Outline.setpointC same
      have far := Slots.first?_eq_none.mp none_ _ a here
      rw [near, place] at far
      simp at far
    · rintro ⟨i, found, -⟩
      cases found

theorem not_matches_ne {o : Outline} {s : ℚ} {gains : Gains} (far : o.matches s = false) :
    o ≠ ⟨s, gains⟩ := by
  rintro rfl
  rw [matches_self ⟨s, gains⟩] at far
  cases far

theorem takeBack_none {t : Slots Outline} {i : ℕ} {s : ℚ} {gains : Gains} (inside : i < t.length)
    (none_ : t.first? (Outline.matches s) = none) :
    takeBack none s (t.set i (some ⟨s, gains⟩)) = t.set i none := by
  have found : Slots.first? (t.set i (some ⟨s, gains⟩)) (Outline.matches s) = some i := by
    apply Slots.first?_eq (Slots.at?_set_self inside) (matches_self _)
    intro j o earlier there
    rw [Slots.at?_set_ne (by omega)] at there
    exact Slots.first?_eq_none.mp none_ j o there
  simp only [takeBack, found, List.set_set]

/-- Taking back to an entry that the measurement went on top of: the entries are
as they were exactly when the first one that matches says the same, and nothing
before it is in reach. -/
theorem takeBack_some {t : Slots Outline} {i : ℕ} {s : ℚ} {gains : Gains} {o p : Outline}
    (first : t.first? (Outline.matches s) = some i) (here : t.at? i = some o)
    (close : p.matches s = true) (fit : 0 < p.gains.PBc ∧ 0 < p.gains.Ti) :
    t.entries.Perm (takeBack (some p) s (t.set i (some ⟨s, gains⟩))).entries ↔
      t.first? (Outline.matches p.setpointC) = some i ∧ o = p := by
  have inside := Slots.lt_of_at? here
  have written : Slots.at? (t.set i (some (⟨s, gains⟩ : Outline))) i = some ⟨s, gains⟩ :=
    Slots.at?_set_self inside
  have reach : Outline.matches p.setpointC ⟨s, gains⟩ = true := by
    rw [Outline.matches, decide_eq_true_iff] at close ⊢
    rwa [abs_sub_comm]
  obtain ⟨-, -, -, before⟩ := Slots.first?_eq_some first
  cases found : Slots.first? (t.set i (some (⟨s, gains⟩ : Outline)))
      (Outline.matches p.setpointC) with
  | none =>
      rw [Slots.first?_eq_none.mp found i _ written] at reach
      cases reach
  | some j =>
      obtain ⟨b, there, matching, earlier⟩ := Slots.first?_eq_some found
      rw [takeBack_found s fit found]
      rcases Nat.lt_trichotomy j i with less | same | more
      · -- an earlier entry in reach takes what was meant for the measured one
        have elsewhere : i ≠ j := by omega
        rw [Slots.at?_set_ne elsewhere] at there
        have far := before j b less there
        refine iff_of_false ?_ ?_
        · apply Slots.not_perm_set_set elsewhere here there (not_matches_ne far)
          rintro rfl
          rw [close] at far
          cases far
        · rintro ⟨firstReach, -⟩
          obtain ⟨-, -, -, none_⟩ := Slots.first?_eq_some firstReach
          rw [none_ j b less there] at matching
          cases matching
      · subst same
        rw [List.set_set, Slots.entries_set_perm_iff here]
        constructor
        · rintro rfl
          refine ⟨Slots.first?_eq here (matches_self o) ?_, rfl⟩
          intro k c less there
          exact earlier k c less (by rwa [Slots.at?_set_ne (by omega)])
        · exact And.right
      · rw [earlier i _ more written] at reach
        cases reach

end PiFire.Tuning
