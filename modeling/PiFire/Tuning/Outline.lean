import PiFire.Tuning.Anchors
import Mathlib.Tactic.Linarith

/-!
# What an entry is known by

An entry is known by its set point and its tuning; its plant and the conditions
of the last measurement are beside the point here. Filing a plant leaves the
outline alone, and a measurement's outline is mixed from what the entry had and
what the relay found.
-/

namespace PiFire.Tuning

open Transition

/-- The numbers a controller is tuned with. -/
structure Gains where
  Ku : ℚ
  Pu : ℚ
  PBc : ℚ
  Ti : ℚ
  Td : ℚ
  deriving DecidableEq

/-- What an entry is known by. -/
structure Outline where
  setpointC : ℚ
  gains : Gains
  deriving DecidableEq

/-- A step from one tuning towards another. -/
def Gains.mix (old new : Gains) (w : ℚ) : Gains where
  Ku := old.Ku + (new.Ku - old.Ku) * w
  Pu := old.Pu + (new.Pu - old.Pu) * w
  PBc := old.PBc + (new.PBc - old.PBc) * w
  Ti := old.Ti + (new.Ti - old.Ti) * w
  Td := old.Td + (new.Td - old.Td) * w

def TuneAnchor.gains (a : TuneAnchor) : Gains := ⟨a.Ku, a.Pu, a.PBc, a.Ti, a.Td⟩

def TuneAnchor.outline (a : TuneAnchor) : Outline := ⟨a.setpointC, a.gains⟩

def AutotuneResult.gains (r : AutotuneResult) : Gains := ⟨r.Ku, r.Pu, r.PBc, r.Ti, r.Td⟩

/-- A band and an integral time that a controller can run on. -/
def Gains.Positive (g : Gains) : Prop := 0 < g.PBc ∧ 0 < g.Ti

@[simp]
theorem Gains.mix_one (old new : Gains) : old.mix new 1 = new := by
  simp [Gains.mix]

theorem Gains.mix_eq_self {old new : Gains} {w : ℚ} (moves : 0 < w) :
    old.mix new w = old ↔ new = old := by
  constructor
  · intro same
    have still {x y : ℚ} (stays : x + (y - x) * w = x) : y = x := by
      have zero : (y - x) * w = 0 := by linarith
      rcases mul_eq_zero.mp zero with none_ | none_ <;> linarith
    cases old
    cases new
    simp only [Gains.mix, Gains.mk.injEq] at same ⊢
    obtain ⟨first, second, third, fourth, fifth⟩ := same
    exact ⟨still first, still second, still third, still fourth, still fifth⟩
  · rintro rfl
    simp [Gains.mix]

theorem Gains.Positive.mix {old new : Gains} {w : ℚ} (had : old.Positive) (found : new.Positive)
    (above : 0 ≤ w) (below : w ≤ 1) : (old.mix new w).Positive := by
  have between {x y : ℚ} (first : 0 < x) (second : 0 < y) : 0 < x + (y - x) * w := by
    have split : x + (y - x) * w = x * (1 - w) + y * w := by ring
    rw [split]
    rcases below.lt_or_eq with less | rfl
    · have kept := mul_pos first (sub_pos.mpr less)
      have moved := mul_nonneg second.le above
      linarith
    · linarith
  exact ⟨between had.1 found.1, between had.2 found.2⟩

@[simp]
theorem outline_takePlant (a : TuneAnchor) (K tau theta : ℚ) (src : ℤ) :
    (a.takePlant K tau theta src).outline = a.outline := by
  unfold TuneAnchor.takePlant
  split <;> rfl

theorem outline_filePlant (formulas : RelayFormulas) (l : Learning) (slot : ℕ) (a : TuneAnchor)
    (s : ℚ) (r : AutotuneResult) (ambient : Option ℚ) :
    (filePlant formulas l slot a s r ambient).1.outline = a.outline := by
  unfold filePlant
  dsimp only
  cases l.pendingPlant.filter fun p => p.near s with
  | none =>
      split
      · apply outline_takePlant
      · split_ifs <;> first | apply outline_takePlant | rfl
  | some p =>
      split
      · apply outline_takePlant
      · split_ifs <;> apply outline_takePlant

theorem weight_none (s : ℚ) : TuneAnchor.weight none s = 1 := rfl

theorem weight_far {a : TuneAnchor} {s : ℚ} (far : near s a = false) :
    TuneAnchor.weight (some a) s = 1 := by
  simp [TuneAnchor.weight, far]

theorem weight_ge (old : Option TuneAnchor) (s : ℚ) : 1 / 4 ≤ TuneAnchor.weight old s := by
  cases old with
  | none => norm_num [weight_none]
  | some a =>
      simp only [TuneAnchor.weight]
      split
      · exact le_max_right _ _
      · norm_num

theorem weight_le_one (old : Option TuneAnchor) (s : ℚ) : TuneAnchor.weight old s ≤ 1 := by
  cases old with
  | none => norm_num [weight_none]
  | some a =>
      simp only [TuneAnchor.weight]
      split
      · rename_i matching
        apply max_le
        · rcases lt_or_gt_of_ne matching.2 with less | more
          · apply le_trans _ zero_le_one
            apply div_nonpos_of_nonneg_of_nonpos zero_le_one
            exact_mod_cast less.le
          · rw [div_le_one (by exact_mod_cast more)]
            exact_mod_cast more
        · norm_num
      · exact le_rfl

theorem gains_measure (a : TuneAnchor) (r : AutotuneResult) {w : ℚ} (below : w ≤ 1) :
    (a.measure r w).gains = a.gains.mix r.gains w := by
  unfold TuneAnchor.measure
  split
  · rename_i whole
    rw [le_antisymm below whole, Gains.mix_one]
    rfl
  · rfl

theorem outline_stored (old : Option TuneAnchor) (s : ℚ) (r : AutotuneResult)
    (ambient : Option ℚ) (wind wall : ℚ) :
    (TuneAnchor.stored old s r ambient wind wall).outline =
      ⟨s, (old.getD TuneAnchor.blank).gains.mix r.gains (TuneAnchor.weight old s)⟩ :=
  congrArg (Outline.mk s) (gains_measure _ r (weight_le_one old s))

theorem leastUseful_lt {t : Slots TuneAnchor} (room : 0 < t.length) :
    leastUseful t < t.length := by
  have chosen (indices : List ℕ) (inside : ∀ i ∈ indices, i < t.length) (best : Option ℚ × ℕ)
      (so_far : best.2 < t.length) :
      (indices.foldl (fun (best : Option ℚ × ℕ) i =>
        let worth := worth t i ((t.at? i).getD TuneAnchor.blank)
        if best.1.all (worth < ·) then (some worth, i) else best) best).2 < t.length := by
    induction indices generalizing best with
    | nil => exact so_far
    | cons i rest ih =>
        apply ih (fun j member => inside j (List.mem_cons_of_mem i member))
        dsimp only
        split
        · exact inside i List.mem_cons_self
        · exact so_far
  exact chosen _ (fun i member => List.mem_range.mp member) _ room

/-- Where a measurement goes: to the first entry that matches, or to a free slot
when none does, or, when there is none either, in the place of an entry that
does not match. -/
theorem storeSlot_cases (t : Slots TuneAnchor) (s : ℚ) :
    t.first? (near s) = some (storeSlot t s) ∨
    (t.first? (near s) = none ∧ t.free? = some (storeSlot t s)) ∨
    (t.first? (near s) = none ∧ t.free? = none ∧ storeSlot t s = leastUseful t) := by
  unfold storeSlot
  cases matching : t.first? (near s) with
  | some i => exact Or.inl rfl
  | none =>
      cases free : t.free? with
      | some i => exact Or.inr (Or.inl ⟨rfl, rfl⟩)
      | none => exact Or.inr (Or.inr ⟨rfl, rfl, rfl⟩)

theorem storeSlot_lt {t : Slots TuneAnchor} (room : 0 < t.length) (s : ℚ) :
    storeSlot t s < t.length := by
  rcases storeSlot_cases t s with matching | ⟨-, free⟩ | ⟨-, -, least⟩
  · obtain ⟨a, here, -⟩ := Slots.first?_eq_some matching
    exact Slots.lt_of_at? here
  · exact (Slots.free?_eq_some free).1
  · rw [least]
    exact leastUseful_lt room

namespace Library

theorem room (l : Library) : 0 < l.slots.length := by
  rw [l.length_slots]
  decide

@[simp]
theorem at?_empty (i : ℕ) : empty.slots.at? i = none := by
  cases at_ : empty.slots.at? i with
  | none => rfl
  | some a =>
      have here := List.mem_of_getElem? (Slots.getElem?_of_at? at_)
      cases List.eq_of_mem_replicate here

end Library

namespace Learning

/-- A usable measurement is written to its slot, under its set point, mixed with
what the slot held. -/
theorem storeAnchor_spec (formulas : RelayFormulas) (l : Learning) (s : ℚ) (r : AutotuneResult)
    (ambient : Option ℚ) (wind wall : ℚ) (usable : Usable r) :
    let old := l.library.slots.at? (storeSlot l.library.slots s)
    ∃ a, (storeAnchor formulas l s r ambient wind wall).library.slots =
        l.library.slots.set (storeSlot l.library.slots s) (some a) ∧
      a.outline = ⟨s, (old.getD TuneAnchor.blank).gains.mix r.gains (TuneAnchor.weight old s)⟩ := by
  have taken : ¬(r.PBc ≤ 0 ∨ r.Ti ≤ 0) := by
    rintro (none_ | none_)
    · exact absurd usable.1 (not_lt.mpr none_)
    · exact absurd usable.2 (not_lt.mpr none_)
  rw [storeAnchor, if_neg taken]
  refine ⟨_, rfl, ?_⟩
  rw [outline_filePlant, outline_stored]

theorem storeAnchor_refused (formulas : RelayFormulas) (l : Learning) (s : ℚ) (r : AutotuneResult)
    (ambient : Option ℚ) (wind wall : ℚ) (useless : ¬Usable r) :
    storeAnchor formulas l s r ambient wind wall = l := by
  have refused : r.PBc ≤ 0 ∨ r.Ti ≤ 0 := by
    by_contra taken
    rw [not_or, not_le, not_le] at taken
    exact useless taken
  rw [storeAnchor, if_pos refused]

/-- A captured plant writes at most one slot, and leaves its outline alone. -/
theorem storeAnchorPlant_slots (l : Learning) (s K tau theta : ℚ) :
    (l.storeAnchorPlant s K tau theta).library.slots = l.library.slots ∨
    ∃ i a b, l.library.slots.at? i = some a ∧ b.outline = a.outline ∧
      (l.storeAnchorPlant s K tau theta).library.slots = l.library.slots.set i (some b) := by
  unfold storeAnchorPlant
  split
  · split
    · rename_i i matching
      obtain ⟨a, here, -⟩ := Slots.first?_eq_some matching
      refine Or.inr ⟨i, a, _, here, outline_takePlant a K tau theta plantFromCapture, ?_⟩
      rw [here]
      rfl
    · exact Or.inl rfl
  · exact Or.inl rfl

end Learning

end PiFire.Tuning
