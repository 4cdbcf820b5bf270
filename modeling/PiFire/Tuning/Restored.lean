import PiFire.Tuning.Export

/-!
# A backup put back

What a grill has after a backup is put back, and when that is what it was taken from: the
entries are carried over where none is left out and no two are of one place; the plant is
averaged with the one that is there, and gets the time of the import; the result of the
last relay test is not in the backup.
-/

namespace PiFire.Tuning

open Transition

section Written

variable (daemon : Option String) (settings : Json) (fit : FfFit) (written wall : ℚ)
variable (L R : Learning)

theorem learningExport_kind :
    jsonStr (learningExport daemon settings fit written L) ["kind"] "" = "pifire-tuning" := by
  rw [learningExport, jsonStr, jsonPath_obj]
  simp [writeHeading]

theorem learningExport_version :
    jsonNum (learningExport daemon settings fit written L) ["version"] 0 = 1 := by
  rw [learningExport, jsonNum, jsonNum?, jsonPath_obj]
  simp [writeHeading, List.lookup]

theorem learningExport_anchors :
    (learningExport daemon settings fit written L).member? "anchors" =
      some (.arr (L.anchorList.map writeAnchor)) := by
  rw [learningExport, Json.member?]
  cases daemon <;> cases L.fopdt <;> simp [writeHeading, List.lookup]

theorem learningExport_plant :
    (learningExport daemon settings fit written L).member? "plant" = L.fopdt.map writePlant := by
  rw [learningExport, Json.member?]
  cases daemon <;> cases L.fopdt <;> simp [writeHeading, List.lookup]

/-- The entries of a backup that are put back. -/
def carriedOver : List TuneAnchor :=
  (L.anchorList.map carried).filter fun a => 0 < a.setpointC ∧ 0 < a.PBc ∧ 0 < a.Ti

/-- The plant of a backup is stored beside the one that is there. -/
def withPlant (m : Option Fopdt) (l : Learning) : Learning :=
  match m with
  | some m => l.storeFopdt m.K m.tau m.theta wall
  | none => l

theorem backedUp_written :
    Learning.backedUp wall (L.anchorList.map writeAnchor) = carriedOver L := by
  rw [Learning.backedUp, List.map_map, carriedOver]
  congr 1
  apply List.map_congr_left
  intro a _
  exact readAnchor_writeAnchor wall a

theorem importPlant_written (l : Learning) :
    Learning.importPlant wall (learningExport daemon settings fit written L) l =
      withPlant wall L.fopdt l := by
  rw [Learning.importPlant, learningExport_plant]
  cases L.fopdt with
  | none => rfl
  | some m => simp [writePlant, withPlant, jsonNum, jsonNum?, jsonPath_obj, List.lookup]

theorem learningImport_learningExport :
    learningImport wall (learningExport daemon settings fit written L) R =
      (withPlant wall L.fopdt ((carriedOver L).foldl Learning.putAnchor R.clearAnchors),
        .ok (carriedOver L).length) := by
  have kind := learningExport_kind daemon settings fit written L
  have version := learningExport_version daemon settings fit written L
  have anchors := learningExport_anchors daemon settings fit written L
  have plant := importPlant_written daemon settings fit written wall L
  obtain ⟨members, document⟩ : ∃ members,
      learningExport daemon settings fit written L = .obj members := ⟨_, rfl⟩
  rw [document] at kind version anchors plant ⊢
  rw [learningImport, if_neg (not_not.mpr kind), if_neg (by rw [version]; exact lt_irrefl _),
    anchors]
  dsimp only
  rw [foldl_putBack, backedUp_written, plant, Nat.zero_add]

end Written

variable {wall : ℚ} {l L R : Learning} {a b : TuneAnchor} {m : Option Fopdt}

/-- Two entries of one place. -/
def alike (a b : TuneAnchor) : Bool := near a.setpointC b

theorem alike_eq_false_iff : alike b a = false ↔ Far a b := by
  rw [alike, near, decide_eq_false_iff_not, not_lt, Far]

theorem putAnchor_slots (measured : 0 < a.PBc ∧ 0 < a.Ti) (l : Learning) :
    (l.putAnchor a).library.slots = Slots.place alike l.library.slots a := by
  have taken : ¬(a.PBc ≤ 0 ∨ a.Ti ≤ 0) := by
    rintro (low | low)
    · exact absurd measured.1 (not_lt.mpr low)
    · exact absurd measured.2 (not_lt.mpr low)
  have same : alike a = near a.setpointC := rfl
  rw [Learning.putAnchor, if_neg taken, Slots.place, same]
  cases l.library.slots.first? (near a.setpointC) with
  | some i => rfl
  | none => cases l.library.slots.free? <;> rfl

theorem putAnchor_rest (l : Learning) (a : TuneAnchor) :
    (l.putAnchor a).fopdt = l.fopdt ∧ (l.putAnchor a).autotune = l.autotune := by
  rw [Learning.putAnchor]
  split
  · exact ⟨rfl, rfl⟩
  · split
    · exact ⟨rfl, rfl⟩
    · split <;> exact ⟨rfl, rfl⟩

theorem foldl_putAnchor_slots {anchors : List TuneAnchor}
    (measured : ∀ a ∈ anchors, 0 < a.PBc ∧ 0 < a.Ti) (l : Learning) :
    (anchors.foldl Learning.putAnchor l).library.slots =
      anchors.foldl (Slots.place alike) l.library.slots := by
  induction anchors generalizing l with
  | nil => rfl
  | cons a anchors ih =>
      rw [List.foldl_cons, List.foldl_cons,
        ih fun b member => measured b (List.mem_cons_of_mem a member),
        putAnchor_slots (measured a List.mem_cons_self)]

theorem foldl_putAnchor_rest (anchors : List TuneAnchor) (l : Learning) :
    (anchors.foldl Learning.putAnchor l).fopdt = l.fopdt ∧
      (anchors.foldl Learning.putAnchor l).autotune = l.autotune := by
  induction anchors generalizing l with
  | nil => exact ⟨rfl, rfl⟩
  | cons a anchors ih =>
      obtain ⟨fopdt, autotune⟩ := ih (l.putAnchor a)
      obtain ⟨fopdt', autotune'⟩ := putAnchor_rest l a
      exact ⟨fopdt.trans fopdt', autotune.trans autotune'⟩

theorem measured_of_mem_carriedOver (member : a ∈ carriedOver L) :
    0 < a.setpointC ∧ 0 < a.PBc ∧ 0 < a.Ti := by
  have passes := (List.mem_filter.mp member).2
  rwa [decide_eq_true_eq] at passes

/-- The slots after a backup was put back. -/
def backSlots (L : Learning) : Slots TuneAnchor :=
  (carriedOver L).foldl (Slots.place alike) (List.replicate tuneAnchors none)

theorem backSlots_eq (L R : Learning) :
    ((carriedOver L).foldl Learning.putAnchor R.clearAnchors).library.slots = backSlots L :=
  foldl_putAnchor_slots (fun _ member => (measured_of_mem_carriedOver member).2) R.clearAnchors

theorem anchorList_pairwise (l : Learning) :
    l.anchorList.Pairwise fun a b => a.setpointC ≤ b.setpointC := by
  have total : Std.Total fun a b : TuneAnchor => a.setpointC ≤ b.setpointC :=
    ⟨fun a b => le_total a.setpointC b.setpointC⟩
  have transitive : IsTrans TuneAnchor fun a b => a.setpointC ≤ b.setpointC :=
    ⟨fun _ _ _ => le_trans⟩
  exact List.pairwise_insertionSort _ _

theorem length_anchorList (l : Learning) : l.anchorList.length = l.library.slots.entries.length :=
  List.length_insertionSort _ _

theorem length_anchorList_le (l : Learning) : l.anchorList.length ≤ tuneAnchors := by
  rw [length_anchorList, ← l.library.length_slots]
  exact List.length_filterMap_le _ _

theorem pairwise_alike_iff {anchors : List TuneAnchor} :
    (anchors.Pairwise fun a b => alike b a = false) ↔ anchors.Pairwise Far := by
  simp only [alike_eq_false_iff]

/-- Where as many entries come back as there were, all of them were carried over, and no two
are of one place. -/
theorem carriedOver_of_length (all : (backSlots L).entries.length = L.anchorList.length) :
    carriedOver L = L.anchorList.map carried ∧
      (backSlots L).entries = L.anchorList.map carried ∧
      (carriedOver L).Pairwise Far := by
  have back : (backSlots L).entries.length ≤ (carriedOver L).length :=
    Slots.length_entries_foldl_place_le _
  have most : (carriedOver L).length ≤ L.anchorList.length :=
    (List.length_filter_le _ _).trans_eq (List.length_map _)
  have whole : carriedOver L = L.anchorList.map carried := by
    apply List.filter_eq_self.mpr
    apply List.length_filter_eq_length_iff.mp
    rw [List.length_map]
    exact le_antisymm most (all ▸ back)
  have filled : (Slots.entries ((carriedOver L).foldl (Slots.place alike)
      (List.replicate tuneAnchors none))).length = (carriedOver L).length :=
    le_antisymm back (most.trans_eq all.symm)
  obtain ⟨few, apart⟩ := Slots.pairwise_of_foldl_place filled
  refine ⟨whole, ?_, pairwise_alike_iff.mp apart⟩
  rw [backSlots, Slots.foldl_place few apart, Slots.entries_filled, whole]

theorem anchorList_of_entries {anchors : List TuneAnchor}
    (entries : l.library.slots.entries = anchors)
    (sorted : anchors.Pairwise fun a b => a.setpointC ≤ b.setpointC) : l.anchorList = anchors := by
  rw [Learning.anchorList, entries]
  exact sorted.insertionSort_eq

/-- The entries of a backup are back exactly where none is left out and no two are of one
place. -/
theorem anchorList_back_iff (back : l.library.slots = backSlots L) :
    l.anchorList = L.anchorList ↔
      (∀ a ∈ L.anchorList, Portable a) ∧ L.anchorList.Pairwise Far := by
  constructor
  · intro same
    have all : (backSlots L).entries.length = L.anchorList.length := by
      rw [← same, length_anchorList, back]
    obtain ⟨whole, entries, apart⟩ := carriedOver_of_length all
    have sorted : (L.anchorList.map carried).Pairwise fun a b => a.setpointC ≤ b.setpointC :=
      List.pairwise_map.mpr (anchorList_pairwise L)
    rw [anchorList_of_entries (back ▸ entries) sorted] at same
    have each : ∀ a ∈ L.anchorList, carried a = a := by
      apply List.map_inj_left.mp
      rw [same, List.map_id']
    constructor
    · intro a member
      obtain ⟨plant, load⟩ := (carried_eq_iff a).mp (each a member)
      refine ⟨?_, plant, load⟩
      apply measured_of_mem_carriedOver (L := L)
      rwa [whole, same]
    · rwa [whole, same] at apart
  · rintro ⟨portable, apart⟩
    have each : ∀ a ∈ L.anchorList, carried a = a := fun a member =>
      (carried_eq_iff a).mpr ⟨(portable a member).plant, (portable a member).load⟩
    have same : L.anchorList.map carried = L.anchorList :=
      (List.map_congr_left each).trans (List.map_id' _)
    have whole : carriedOver L = L.anchorList := by
      rw [carriedOver, same, List.filter_eq_self]
      intro a member
      rw [decide_eq_true_eq]
      exact (portable a member).measured
    apply anchorList_of_entries _ (anchorList_pairwise L)
    rw [back, backSlots, whole, Slots.foldl_place (length_anchorList_le L)
      (pairwise_alike_iff.mpr apart), Slots.entries_filled]

/-- Two grills have learned the same: the library, the plant, and the last relay test. -/
structure Alike (l L : Learning) : Prop where
  library : l.anchorList = L.anchorList
  fopdt : l.fopdt = L.fopdt
  autotune : l.autotune = L.autotune

/-- The plant of a backup comes to be what it was: there is none on either side; or it was
fitted by the present method, at the time of the import, and there is no other to average
it with. -/
def PlantBack (wall : ℚ) (m here : Option Fopdt) : Prop :=
  match m with
  | none => here = none
  | some m =>
      m.ts = wall ∧ m.method = 2 ∧
        ∀ old, here = some old → old.method ≥ 2 →
          old.K = m.K ∧ old.tau = m.tau ∧ old.theta = m.theta

theorem withPlant_fopdt_iff (wall : ℚ) (m : Option Fopdt) (l : Learning) :
    (withPlant wall m l).fopdt = m ↔ PlantBack wall m l.fopdt := by
  cases m with
  | none => exact Iff.rfl
  | some m =>
    obtain ⟨K, tau, theta, ts, method⟩ := m
    rw [withPlant, Learning.storeFopdt, PlantBack]
    cases here : l.fopdt with
    | none =>
      simp only [Option.some.injEq, Fopdt.mk.injEq, true_and, reduceCtorEq, false_imp_iff,
        implies_true, and_true]
      exact and_congr eq_comm eq_comm
    | some old =>
      simp only [Option.some.injEq, forall_eq']
      split
      · rename_i newer
        simp only [Option.some.injEq, Fopdt.mk.injEq]
        constructor
        · rintro ⟨sameK, sameTau, sameTheta, rfl, rfl⟩
          exact ⟨rfl, rfl, fun _ => ⟨by linarith, by linarith, by linarith⟩⟩
        · rintro ⟨rfl, rfl, same⟩
          obtain ⟨rfl, rfl, rfl⟩ := same newer
          exact ⟨by ring, by ring, by ring, rfl, rfl⟩
      · rename_i older
        simp only [Option.some.injEq, Fopdt.mk.injEq, true_and, older, false_imp_iff, and_true]
        exact and_congr eq_comm eq_comm

theorem withPlant_rest (wall : ℚ) (m : Option Fopdt) (l : Learning) :
    (withPlant wall m l).library = l.library ∧ (withPlant wall m l).autotune = l.autotune := by
  cases m with
  | none => exact ⟨rfl, rfl⟩
  | some m =>
    rw [withPlant, Learning.storeFopdt]
    split
    · split <;> exact ⟨rfl, rfl⟩
    · exact ⟨rfl, rfl⟩

/-- What one grill has learned comes to be what the other has. -/
structure ComesBack (wall : ℚ) (L R : Learning) : Prop where
  portable : ∀ a ∈ L.anchorList, Portable a
  apart : L.anchorList.Pairwise Far
  plant : PlantBack wall L.fopdt R.fopdt
  autotune : R.autotune = L.autotune

/-- A refused backup leaves what was learned as it was; and the backup of one grill, put back
on another, leaves what the first has learned, exactly where that comes back. -/
theorem learned_back_iff (daemon : Option String) (settings : Json) (fit : FfFit)
    (written wall : ℚ) (L R : Learning) :
    Alike (learningImport wall (learningExport daemon settings fit written L) R).1 L ∧
        (∀ doc why, (learningImport wall doc R).2 = .error why →
          (learningImport wall doc R).1 = R) ↔
      ComesBack wall L R := by
  have refused : ∀ doc why, (learningImport wall doc R).2 = .error why →
      (learningImport wall doc R).1 = R := by
    intro doc why
    rw [import_eq]
    cases R.importBackup wall doc with
    | ok taken =>
      rintro ⟨⟩
    | error why =>
      intro _
      rfl
  rw [and_iff_left refused, learningImport_learningExport]
  dsimp only
  have slots := backSlots_eq L R
  obtain ⟨fopdt, autotune⟩ := foldl_putAnchor_rest (carriedOver L) R.clearAnchors
  generalize (carriedOver L).foldl Learning.putAnchor R.clearAnchors = put at *
  obtain ⟨library, kept⟩ := withPlant_rest wall L.fopdt put
  have plant := withPlant_fopdt_iff wall L.fopdt put
  have back : (withPlant wall L.fopdt put).library.slots = backSlots L := by
    rw [library]
    exact slots
  rw [fopdt] at plant
  constructor
  · rintro ⟨same, whole, result⟩
    obtain ⟨portable, apart⟩ := (anchorList_back_iff back).mp same
    exact ⟨portable, apart, plant.mp whole, autotune.symm.trans (kept.symm.trans result)⟩
  · rintro ⟨portable, apart, whole, result⟩
    exact ⟨(anchorList_back_iff back).mpr ⟨portable, apart⟩, plant.mpr whole,
      kept.trans (autotune.trans result)⟩

/-- A grill that has only fitted its plant. -/
def fitted (K tau theta wall : ℚ) : Learning :=
  Learning.storeFopdt ⟨Library.empty, none, none, Learning.noResult, 0⟩ K tau theta wall

/-- The plant of a backup is averaged with the one that is there. -/
theorem plant_averaged :
    ¬(Alike
          (learningImport 1000 (learningExport none (.obj []) ⟨0, 0, 0, 0⟩ 1000
            (fitted 200 600 60 1000)) (fitted 100 500 50 500)).1
          (fitted 200 600 60 1000) ∧
        ∀ doc why, (learningImport 1000 doc (fitted 100 500 50 500)).2 = .error why →
          (learningImport 1000 doc (fitted 100 500 50 500)).1 = fitted 100 500 50 500) := by
  rintro ⟨⟨_, fopdt, _⟩, _⟩
  exact absurd fopdt (by decide +kernel)

end PiFire.Tuning
