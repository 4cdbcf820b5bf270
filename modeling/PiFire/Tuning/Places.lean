import PiFire.Tuning.Outline
import PiFire.Transition.Run

/-!
# One entry for each place

The library means to hold one entry for each set point: any two of them are at
least the match distance apart, each has a band and an integral time to run on,
and a measurement leaves one entry at its set point. A measurement moves the
entry it refines to its own set point, and this file has exactly when that
keeps the entries apart.
-/

namespace PiFire.Tuning

open Transition

/-- Two entries too far apart for one set point to match both as one place. -/
def Far (a b : TuneAnchor) : Prop := 5 ≤ |a.setpointC - b.setpointC|

/-- The library is as it means to be. -/
structure Sound (t : Slots TuneAnchor) : Prop where
  apart : Slots.Apart Far t
  positive : ∀ i a, t.at? i = some a → a.gains.Positive

/-- No two entries match a set point. -/
def Lone (t : Slots TuneAnchor) (s : ℚ) : Prop :=
  ∀ i j a b, t.at? i = some a → t.at? j = some b → near s a = true → near s b = true → i = j

/-- The tuning of an entry after a measurement: the measurement's own where
nothing matched, else mixed from what matched and the measurement. -/
def Holds (before : Slots TuneAnchor) (s : ℚ) (r : AutotuneResult) (a : TuneAnchor) : Prop :=
  match before.first? (near s) with
  | some i => ∃ b w, before.at? i = some b ∧ 1 / 4 ≤ w ∧ w ≤ 1 ∧ a.gains = b.gains.mix r.gains w
  | none => a.gains = r.gains

/-- One entry matches the set point, and it holds the measurement. -/
def Stored (before after : Slots TuneAnchor) (s : ℚ) (r : AutotuneResult) : Prop :=
  ∃ i a, after.at? i = some a ∧ a.setpointC = s ∧ Holds before s r a ∧
    ∀ j b, after.at? j = some b → near s b = true → j = i

/-- A call to the library. -/
inductive Call where
  | store (setpoint : ℚ) (r : AutotuneResult) (ambient : Option ℚ) (wind wall : ℚ)
  | put (a : TuneAnchor)
  | remove (setpoint : ℚ)
  | clear
  | clearTuning
  | plant (setpoint K tau theta : ℚ)
  | fopdt (K tau theta wall : ℚ)
  | autotune (r : AutotuneResult) (wall : ℚ)

variable (formulas : RelayFormulas)

def Call.work : Call → Learning → Learning
  | .store s r ambient wind wall, l => l.storeAnchor formulas s r ambient wind wall
  | .put a, l => l.putAnchor a
  | .remove s, l => l.removeAnchor s
  | .clear, l => l.clearAnchors
  | .clearTuning, l => l.clearTuning
  | .plant s K tau theta, l => l.storeAnchorPlant s K tau theta
  | .fopdt K tau theta wall, l => l.storeFopdt K tau theta wall
  | .autotune r wall, l => l.storeAutotune r wall

/-- What is asked of the library: a call, or that a backup is restored. -/
inductive Request where
  | call (c : Call)
  | restore (wall : ℚ) (doc : Json)

/-- A backup that is refused changes nothing. -/
def Request.serve : Request → Learning → Learning
  | .call c, l => c.work formulas l
  | .restore wall doc, l =>
      match l.importBackup wall doc with
      | .ok (restored, _) => restored
      | .error _ => l

/-- The calls of restoring a backup's plant. -/
def plantCalls (wall : ℚ) (doc : Json) : List Call :=
  match doc.member? "plant" with
  | some (.obj members) =>
      let plant := Json.obj members
      [.fopdt (jsonNum plant ["K"] 0) (jsonNum plant ["tau"] 0) (jsonNum plant ["theta"] 0) wall]
  | _ => []

/-- The calls a request makes, each of them on its own. -/
def Request.calls : Request → List Call
  | .call c => [c]
  | .restore wall (.obj members) =>
      let doc := Json.obj members
      if jsonStr doc ["kind"] "" ≠ "pifire-tuning" ∨ jsonNum doc ["version"] 0 > 1 then []
      else
        match doc.member? "anchors" with
        | some (.arr items) =>
            .clear :: (Learning.backedUp wall items).map Call.put ++ plantCalls wall doc
        | _ => []
  | .restore _ _ => []

theorem run_put (anchors : List TuneAnchor) (l : Learning) :
    run (Call.work formulas) (anchors.map Call.put) l = anchors.foldl Learning.putAnchor l := by
  induction anchors generalizing l with
  | nil => rfl
  | cons a rest ih => exact ih (l.putAnchor a)

theorem run_plantCalls (wall : ℚ) (doc : Json) (l : Learning) :
    run (Call.work formulas) (plantCalls wall doc) l = Learning.importPlant wall doc l := by
  unfold plantCalls Learning.importPlant
  generalize doc.member? "plant" = plant
  cases plant with
  | none => rfl
  | some plant => cases plant <;> rfl

theorem Request.serve_eq_run (q : Request) (l : Learning) :
    q.serve formulas l = run (Call.work formulas) q.calls l := by
  cases q with
  | call c => rfl
  | restore wall doc =>
      cases doc with
      | obj members =>
          simp only [serve, calls, Learning.importBackup]
          by_cases kind : jsonStr (.obj members) ["kind"] "" = "pifire-tuning"
          · by_cases newer : jsonNum (.obj members) ["version"] 0 > 1
            · simp [kind, newer]
            · simp only [kind, newer, ne_eq, not_true_eq_false, or_self, if_false]
              cases anchors : (Json.obj members).member? "anchors" with
              | none => rfl
              | some value =>
                  cases value with
                  | arr items =>
                      dsimp only
                      rw [List.cons_append, run_cons, run_append, run_put, run_plantCalls]
                      rfl
                  | _ => rfl
          · simp [kind]
      | _ => rfl

/-- The library is as it means to be after a call, and a measurement that was
one is in its place. -/
def Call.Good (c : Call) (l : Learning) : Prop :=
  let after := (c.work formulas l).library.slots
  Sound after ∧
    match c with
    | .store s r _ _ _ => Learning.Usable r → Stored l.library.slots after s r
    | _ => True

/-- A call that files an entry finds at most one that matches its set point. -/
def Call.Clear (c : Call) (l : Learning) : Prop :=
  match c with
  | .store s r _ _ _ => Learning.Usable r → Lone l.library.slots s
  | .put a => 0 < a.PBc ∧ 0 < a.Ti → Lone l.library.slots a.setpointC
  | _ => True

theorem near_iff {s : ℚ} {a : TuneAnchor} : near s a = true ↔ |a.setpointC - s| < 5 :=
  decide_eq_true_iff

theorem near_false {s : ℚ} {a : TuneAnchor} : near s a = false ↔ 5 ≤ |a.setpointC - s| := by
  rw [near, decide_eq_false_iff_not, not_lt]

theorem Sound.write {t : Slots TuneAnchor} (sound : Sound t) {i : ℕ} {a : TuneAnchor}
    (positive : a.gains.Positive)
    (lone : ∀ j b, i ≠ j → t.at? j = some b → near a.setpointC b = false) :
    Sound (t.set i (some a)) where
  apart := by
    apply sound.apart.set
    intro j b elsewhere there
    have far := near_false.mp (lone j b elsewhere there)
    rw [Far, Far, abs_sub_comm a.setpointC]
    exact ⟨far, far⟩
  positive := by
    intro j b there
    rcases Slots.at?_set_eq_some there with ⟨-, same⟩ | ⟨-, before⟩
    · cases same
      exact positive
    · exact sound.positive j b before

theorem Sound.erase {t : Slots TuneAnchor} (sound : Sound t) (i : ℕ) : Sound (t.set i none) where
  apart := sound.apart.erase i
  positive := by
    intro j b there
    rcases Slots.at?_set_eq_some there with ⟨-, same⟩ | ⟨-, before⟩
    · cases same
    · exact sound.positive j b before

theorem sound_empty : Sound Library.empty.slots where
  apart := by
    intro i j a b here
    simp at here
  positive := by
    intro i a here
    simp at here

theorem Sound.redraw {t : Slots TuneAnchor} (sound : Sound t) {i : ℕ} {a b : TuneAnchor}
    (here : t.at? i = some a) (same : b.outline = a.outline) : Sound (t.set i (some b)) := by
  have place : b.setpointC = a.setpointC := congrArg Outline.setpointC same
  have gains : b.gains = a.gains := congrArg Outline.gains same
  apply sound.write
  · rw [gains]
    exact sound.positive i a here
  · intro j c elsewhere there
    rw [near_false, place]
    exact sound.apart j i c a there here (Ne.symm elsewhere)

theorem not_apart_of_write {t : Slots TuneAnchor} {i j : ℕ} {a b : TuneAnchor}
    (inside : i < t.length) (elsewhere : i ≠ j) (there : t.at? j = some b)
    (close : near a.setpointC b = true) : ¬Slots.Apart Far (t.set i (some a)) := by
  intro apart
  have far := apart j i b a (by rwa [Slots.at?_set_ne elsewhere]) (Slots.at?_set_self inside)
    (Ne.symm elsewhere)
  exact absurd (near_iff.mp close) (not_lt.mpr far)

theorem lone_iff {t : Slots TuneAnchor} {s : ℚ} {i : ℕ} {a : TuneAnchor}
    (here : t.at? i = some a) (close : near s a = true) :
    Lone t s ↔ ∀ j b, i ≠ j → t.at? j = some b → near s b = false := by
  constructor
  · intro lone j b elsewhere there
    by_contra matching
    rw [Bool.not_eq_false] at matching
    exact elsewhere (lone i j a b here there close matching)
  · intro others j k b c first second firstClose secondClose
    have isHere (m : ℕ) (d : TuneAnchor) (found : t.at? m = some d) (matching : near s d = true) :
        m = i := by
      by_contra elsewhere
      rw [others m d (Ne.symm elsewhere) found] at matching
      cases matching
    rw [isHere j b first firstClose, isHere k c second secondClose]

theorem lone_of_first?_eq_none {t : Slots TuneAnchor} {s : ℚ} (none_ : t.first? (near s) = none) :
    Lone t s := by
  intro i j a b here there close
  rw [Slots.first?_eq_none.mp none_ i a here] at close
  cases close

/-- The entry that is written for a set point matches nothing else exactly when
at most one entry matched the set point. -/
theorem lone_storeSlot {t : Slots TuneAnchor} {s : ℚ} :
    Lone t s ↔ ∀ j b, storeSlot t s ≠ j → t.at? j = some b → near s b = false := by
  rcases storeSlot_cases t s with matching | ⟨none_, -⟩ | ⟨none_, -, -⟩
  · obtain ⟨a, here, close, -⟩ := Slots.first?_eq_some matching
    exact lone_iff here close
  all_goals
    constructor
    · intro _ j b _ there
      exact Slots.first?_eq_none.mp none_ j b there
    · intro _
      exact lone_of_first?_eq_none none_

/-- A measurement keeps the library as it means to be exactly when at most one
entry matched its set point. -/
theorem store_good_iff {l : Learning} (sound : Sound l.library.slots) (s : ℚ) (r : AutotuneResult)
    (ambient : Option ℚ) (wind wall : ℚ) :
    (Call.store s r ambient wind wall).Good formulas l ↔
      (Call.store s r ambient wind wall).Clear l := by
  by_cases usable : Learning.Usable r
  · obtain ⟨a, written, drawn⟩ :=
      Learning.storeAnchor_spec formulas l s r ambient wind wall usable
    have place : a.setpointC = s := congrArg Outline.setpointC drawn
    have gains : a.gains = _ := congrArg Outline.gains drawn
    have inside := storeSlot_lt l.library.room s
    change Sound (Learning.storeAnchor formulas l s r ambient wind wall).library.slots ∧ _ ↔ _
    simp only [Call.Clear, Call.work, written, usable, forall_const]
    constructor
    · rintro ⟨kept, -⟩
      rw [lone_storeSlot]
      intro j b elsewhere there
      by_contra close
      rw [Bool.not_eq_false] at close
      rw [← place] at close
      exact not_apart_of_write inside elsewhere there close kept.apart
    · intro lone
      have others := lone_storeSlot.mp lone
      refine ⟨sound.write ?_ ?_, storeSlot l.library.slots s, a, Slots.at?_set_self inside, place,
        ?_, ?_⟩
      · rw [gains]
        cases held : l.library.slots.at? (storeSlot l.library.slots s) with
        | none =>
            rw [weight_none, Gains.mix_one]
            exact usable
        | some old =>
            have found : r.gains.Positive := usable
            apply (sound.positive _ old held).mix found
            · exact le_trans (by norm_num) (weight_ge (some old) s)
            · exact weight_le_one (some old) s
      · rw [place]
        exact others
      · unfold Holds
        rcases storeSlot_cases l.library.slots s with matching | ⟨none_, free⟩ | ⟨none_, -, -⟩
        · obtain ⟨b, here, -⟩ := Slots.first?_eq_some matching
          rw [here] at gains
          rw [matching]
          exact ⟨b, _, here, weight_ge (some b) s, weight_le_one (some b) s, gains⟩
        · rw [(Slots.free?_eq_some free).2, weight_none, Gains.mix_one] at gains
          rw [none_]
          exact gains
        · rw [none_]
          cases held : l.library.slots.at? (storeSlot l.library.slots s) with
          | none =>
              rw [held, weight_none, Gains.mix_one] at gains
              exact gains
          | some old =>
              have far := Slots.first?_eq_none.mp none_ _ old held
              rw [held, weight_far far, Gains.mix_one] at gains
              exact gains
      · intro j b there close
        rcases Slots.at?_set_eq_some there with ⟨rfl, -⟩ | ⟨elsewhere, before⟩
        · rfl
        · rw [others j b elsewhere before] at close
          cases close
  · have still := Learning.storeAnchor_refused formulas l s r ambient wind wall usable
    simp only [Call.Good, Call.Clear, Call.work, still, usable, false_implies, and_true, iff_true]
    exact sound

theorem put_good_iff {l : Learning} (sound : Sound l.library.slots) (a : TuneAnchor) :
    (Call.put a).Good formulas l ↔ (Call.put a).Clear l := by
  simp only [Call.Good, Call.Clear, Call.work, and_true]
  unfold Learning.putAnchor
  by_cases useless : a.PBc ≤ 0 ∨ a.Ti ≤ 0
  · rw [if_pos useless]
    constructor
    · rintro - ⟨band, integral⟩
      rcases useless with none_ | none_
      · exact absurd band (not_lt.mpr none_)
      · exact absurd integral (not_lt.mpr none_)
    · intro _
      exact sound
  · have usable : 0 < a.PBc ∧ 0 < a.Ti := by
      rw [not_or, not_le, not_le] at useless
      exact useless
    rw [if_neg useless]
    simp only [usable, and_self, forall_const]
    cases matching : l.library.slots.first? (near a.setpointC) with
    | some i =>
        obtain ⟨b, here, close, -⟩ := Slots.first?_eq_some matching
        constructor
        · intro kept
          rw [lone_iff here close]
          intro j c elsewhere there
          by_contra other
          rw [Bool.not_eq_false] at other
          exact not_apart_of_write (Slots.lt_of_at? here) elsewhere there other kept.apart
        · intro lone
          exact sound.write usable ((lone_iff here close).mp lone)
    | none =>
        have others := Slots.first?_eq_none.mp matching
        constructor
        · intro _
          exact lone_of_first?_eq_none matching
        · intro _
          cases l.library.slots.free? with
          | some i => exact sound.write usable fun j b _ there => others j b there
          | none => exact sound

/-- A call keeps the library as it means to be exactly when the entry it files
finds at most one that matches. -/
theorem good_iff_clear {l : Learning} (sound : Sound l.library.slots) (c : Call) :
    c.Good formulas l ↔ c.Clear l := by
  cases c with
  | store s r ambient wind wall => exact store_good_iff formulas sound s r ambient wind wall
  | put a => exact put_good_iff formulas sound a
  | remove s =>
      refine iff_of_true ⟨?_, trivial⟩ trivial
      simp only [Call.work, Learning.removeAnchor]
      cases l.library.slots.first? (near s) with
      | some i => exact sound.erase i
      | none => exact sound
  | clear => exact iff_of_true ⟨sound_empty, trivial⟩ trivial
  | clearTuning => exact iff_of_true ⟨sound_empty, trivial⟩ trivial
  | plant s K tau theta =>
      refine iff_of_true ⟨?_, trivial⟩ trivial
      change Sound (l.storeAnchorPlant s K tau theta).library.slots
      rcases l.storeAnchorPlant_slots s K tau theta with same | ⟨i, a, b, here, drawn, written⟩
      · rw [same]
        exact sound
      · rw [written]
        exact sound.redraw here drawn
  | fopdt K tau theta wall =>
      refine iff_of_true ⟨?_, trivial⟩ trivial
      simp only [Call.work, Learning.storeFopdt]
      split
      · split <;> exact sound
      · exact sound
  | autotune r wall => exact iff_of_true ⟨sound, trivial⟩ trivial

theorem places_kept_iff {calls : List Call} {l : Learning} (sound : Sound l.library.slots) :
    Along (Call.work formulas) (Call.Good formulas) calls l ↔
      Along (Call.work formulas) Call.Clear calls l := by
  constructor
  · intro good
    refine Along.strengthen (fun l => Sound l.library.slots) ?_ ?_ sound good
    · intro c l _ kept
      exact kept.1
    · intro c l sound kept
      exact (good_iff_clear formulas sound c).mp kept
  · intro clear
    refine Along.strengthen (fun l => Sound l.library.slots) ?_ ?_ sound clear
    · intro c l sound places
      exact ((good_iff_clear formulas sound c).mpr places).1
    · intro c l sound places
      exact (good_iff_clear formulas sound c).mpr places

/-- In every run from an empty library, its entries stay apart and fit to run on,
and every measurement is in its place, exactly as long as no entry is filed at a
set point that two entries match. -/
theorem places_kept (l : Learning) (requests : List Request) :
    Along (Call.work formulas) (Call.Good formulas) (requests.flatMap Request.calls)
        l.clearAnchors ↔
      Along (Call.work formulas) Call.Clear (requests.flatMap Request.calls) l.clearAnchors :=
  places_kept_iff formulas sound_empty

/-! A measurement between two entries joins the first of them and stays within
reach of the second. -/

/-- Nothing was ever measured. -/
def Learning.fresh : Learning := ⟨Library.empty, none, none, Learning.noResult, 0⟩

/-- A measurement that comes with no load. -/
def measurement : AutotuneResult := ⟨1 / 2, 600, 30, 300, 75, 5, 0, 0, true⟩

/-- A relay's formulas where none is asked. -/
def noFormulas : RelayFormulas := ⟨fun _ _ _ => (0, 0), fun _ _ _ => none⟩

/-- The entry of such a measurement. -/
def entryAt (s wall : ℚ) : TuneAnchor :=
  ⟨s, 1 / 2, 600, 30, 300, 75, 0, 0, 0, wall, some 20, 0, 0, 1, 0⟩

/-- Measurements at 100, 106 and 103 degrees. -/
def threeMeasurements : List Request :=
  [.call (.store 100 measurement (some 20) 0 1), .call (.store 106 measurement (some 20) 0 2),
    .call (.store 103 measurement (some 20) 0 3)]

theorem entries_join :
    ¬Along (Call.work noFormulas) (Call.Good noFormulas)
      (threeMeasurements.flatMap Request.calls) Learning.fresh.clearAnchors := by
  rw [places_kept_iff noFormulas sound_empty]
  rintro ⟨-, -, third, -⟩
  have lone := third (by decide)
  have same := lone 0 1 (entryAt 100 1) (entryAt 106 2) (by decide +kernel) (by decide +kernel)
    (by decide +kernel) (by decide +kernel)
  cases same

end PiFire.Tuning
