import PiFire.Tuning.Rollback
import PiFire.Tuning.Places

/-!
# A tuning on trial

From the tick that stores a measurement to the beat that ends its verification,
the tuner holds on to what its set point had before. A hold that fails takes the
measurement back; a run that is stopped or goes into Error keeps it. Meanwhile
the control loop may file a captured plant, and the cook may choose to skip
verifications.
-/

namespace PiFire.Tuning

open Transition

/-- The tuner and what was learned. -/
structure Desk where
  tuner : Tuner
  learning : Learning

/-- What happens at the desk during a run. -/
inductive Beat where
  | tick (t : Look)
  | capture (setpoint K tau theta : ℚ)
  | fopdt (K tau theta wall : ℚ)
  | result (r : AutotuneResult) (wall : ℚ)
  | skip (step : ℤ) (skip : Bool)
  | stop (now : ℚ)

namespace Desk

variable (formulas : RelayFormulas)

def step : Beat → Desk → Desk
  | .tick t, d =>
      let turn := d.tuner.tick formulas d.learning t
      ⟨turn.tuner, turn.learning⟩
  | .capture s K tau theta, d => { d with learning := d.learning.storeAnchorPlant s K tau theta }
  | .fopdt K tau theta wall, d => { d with learning := d.learning.storeFopdt K tau theta wall }
  | .result r wall, d => { d with learning := d.learning.storeAutotune r wall }
  | .skip i skip, d => { d with tuner := (d.tuner.chooseSkip i skip).1 }
  | .stop now, d => { d with tuner := (d.tuner.stop now).1 }

/-- The orders a beat pushes. -/
def orders : Beat → Desk → List Cmd
  | .tick t, d => (d.tuner.tick formulas d.learning t).orders
  | .stop now, d => (d.tuner.stop now).2
  | _, _ => []

end Desk

/-- A beat that ends a run wherever it is: the grill is in Error or was stopped,
or the run is. -/
def Beat.stops (b : Beat) (g : Tuner) : Bool :=
  match b with
  | .tick t => (g.note t).endedBy t
  | .stop _ => true
  | _ => false

/-- The store, and what ends its trial, leave the library as it was. Where the
run is stopped, the measurement must have said again what was there. Where the
hold fails, a measurement that matched nothing must have found a free slot, and
otherwise the first entry that matched must be the one that is put back, and the
first in reach of it. -/
def Undone (l : Learning) (s : ℚ) (r : AutotuneResult) (stopped : Bool) : Prop :=
  if stopped then Learning.Usable r → Repeats (outlines l) s r.gains
  else
    match Tuner.hadAnchor l s with
    | none => Learning.Usable r → l.library.slots.free?.isSome
    | some p =>
        if 0 < p.gains.PBc ∧ 0 < p.gains.Ti then
          ∃ i, (outlines l).first? (Outline.matches p.setpointC) = some i ∧
            (outlines l).at? i = some p.outline ∧
            (Learning.Usable r → (outlines l).first? (Outline.matches s) = some i)
        else Learning.Usable r → Repeats (outlines l) s r.gains

theorem mem_anchorList {l : Learning} {a : TuneAnchor} :
    a ∈ l.anchorList ↔ ∃ i, l.library.slots.at? i = some a := by
  rw [Learning.anchorList, List.mem_insertionSort, Slots.mem_entries]

theorem hadAnchor_eq_none {l : Learning} {s : ℚ} :
    Tuner.hadAnchor l s = none ↔ l.library.slots.first? (near s) = none := by
  rw [Tuner.hadAnchor, List.find?_eq_none, Slots.first?_eq_none]
  constructor
  · intro none_ i a here
    simpa using none_ a (mem_anchorList.mpr ⟨i, here⟩)
  · intro none_ a member
    obtain ⟨i, here⟩ := mem_anchorList.mp member
    simp [none_ i a here]

theorem hadAnchor_eq_some {l : Learning} {s : ℚ} {p : TuneAnchor}
    (found : Tuner.hadAnchor l s = some p) :
    near s p = true ∧ ∃ i, l.library.slots.at? i = some p :=
  ⟨List.find?_some found, mem_anchorList.mp (List.mem_of_find?_eq_some found)⟩

theorem exists_first? {l : Learning} {s : ℚ} {i : ℕ} {p : TuneAnchor}
    (here : l.library.slots.at? i = some p) (close : near s p = true) :
    ∃ j o, (outlines l).first? (Outline.matches s) = some j ∧ (outlines l).at? j = some o := by
  rw [first?_outlines]
  cases found : l.library.slots.first? (near s) with
  | none =>
      rw [Slots.first?_eq_none.mp found i p here] at close
      cases close
  | some j =>
      obtain ⟨a, there, -⟩ := Slots.first?_eq_some found
      refine ⟨j, a.outline, rfl, ?_⟩
      rw [Slots.at?_view, there]
      rfl

theorem takeBack_refused (l : Learning) (s : ℚ) (r : AutotuneResult)
    (useless : ¬Learning.Usable r) :
    (outlines l).entries.Perm
        (takeBack ((Tuner.hadAnchor l s).map TuneAnchor.outline) s (outlines l)).entries ↔
      Undone l s r false := by
  rw [Undone, if_neg (by decide)]
  cases had : Tuner.hadAnchor l s with
  | none =>
      rw [Option.map_none, takeBack, first?_outlines, hadAnchor_eq_none.mp had]
      exact iff_of_true (List.Perm.refl _) fun usable => absurd usable useless
  | some p =>
      obtain ⟨close, i, here⟩ := hadAnchor_eq_some had
      dsimp only
      split
      · rename_i fit
        obtain ⟨j, o, found, there⟩ :=
          exists_first? here (s := p.setpointC) (matches_self p.outline)
        have fitView : 0 < p.outline.gains.PBc ∧ 0 < p.outline.gains.Ti := fit
        rw [Option.map_some, takeBack_found s fitView found, Slots.entries_set_perm_iff there,
          found]
        constructor
        · rintro rfl
          exact ⟨j, rfl, there, fun usable => absurd usable useless⟩
        · rintro ⟨k, same, drawn, -⟩
          rw [← Option.some.inj same, there] at drawn
          exact Option.some.inj drawn
      · rename_i unfit
        have unfitView : ¬(0 < p.outline.gains.PBc ∧ 0 < p.outline.gains.Ti) := unfit
        rw [Option.map_some, takeBack_unfit s unfitView]
        exact iff_of_true (List.Perm.refl _) fun usable => absurd usable useless

theorem takeBack_stored (formulas : RelayFormulas) (l : Learning) (s : ℚ) (r : AutotuneResult)
    (ambient : Option ℚ) (wind wall : ℚ) (usable : Learning.Usable r) :
    (outlines l).entries.Perm
        (takeBack ((Tuner.hadAnchor l s).map TuneAnchor.outline) s
          (outlines (l.storeAnchor formulas s r ambient wind wall))).entries ↔
      Undone l s r false := by
  have inside := storeSlot_lt l.library.room s
  have insideView : storeSlot l.library.slots s < (outlines l).length := by
    rwa [Slots.length_view]
  rw [Undone, if_neg (by decide)]
  cases had : Tuner.hadAnchor l s with
  | none =>
      have none_ := hadAnchor_eq_none.mp had
      have noneView : (outlines l).first? (Outline.matches s) = none := by
        rw [first?_outlines, none_]
      rw [Option.map_none, outlines_storeAnchor formulas l s r ambient wind wall usable,
        takeBack_none insideView noneView]
      rcases storeSlot_cases l.library.slots s with matching | ⟨-, free⟩ | ⟨-, full, -⟩
      · rw [none_] at matching
        cases matching
      · have unused : (outlines l).at? (storeSlot l.library.slots s) = none := by
          rw [Slots.at?_view, (Slots.free?_eq_some free).2]
          rfl
        rw [Slots.set_none insideView unused, free]
        exact iff_of_true (List.Perm.refl _) fun _ => rfl
      · obtain ⟨a, here⟩ := Slots.free?_eq_none.mp full _ inside
        have drawn : (outlines l).at? (storeSlot l.library.slots s) = some a.outline := by
          rw [Slots.at?_view, here]
          rfl
        rw [full]
        refine iff_of_false (Slots.not_perm_set_none drawn) ?_
        intro room
        exact absurd (room usable) (by decide)
  | some p =>
      obtain ⟨close, i, here⟩ := hadAnchor_eq_some had
      obtain ⟨j, o, found, there⟩ := exists_first? here close
      have slot : storeSlot l.library.slots s = j := by
        rw [first?_outlines] at found
        rw [storeSlot, found]
      dsimp only
      split
      · rename_i fit
        have fitView : 0 < p.outline.gains.PBc ∧ 0 < p.outline.gains.Ti := fit
        have closeView : p.outline.matches s = true := close
        rw [Option.map_some, outlines_storeAnchor formulas l s r ambient wind wall usable, slot,
          takeBack_some found there closeView fitView]
        constructor
        · rintro ⟨reach, rfl⟩
          exact ⟨j, reach, there, fun _ => found⟩
        · rintro ⟨k, reach, drawn, first⟩
          have same : j = k := Option.some.inj (found.symm.trans (first usable))
          subst same
          rw [there] at drawn
          exact ⟨reach, Option.some.inj drawn⟩
      · rename_i unfit
        have unfitView : ¬(0 < p.outline.gains.PBc ∧ 0 < p.outline.gains.Ti) := unfit
        rw [Option.map_some, takeBack_unfit s unfitView]
        have stored := same_store_iff formulas l s r ambient wind wall usable
        rw [Same] at stored
        rw [stored]
        exact ⟨fun again _ => again, fun again => again usable⟩

section Trial

variable (formulas : RelayFormulas)

theorem step_stores {d : Desk} {b : Beat} (testing : d.tuner.ph = .testing)
    (verifying : (Desk.step formulas b d).tuner.ph = .verifying) :
    ∃ ambient wind wall,
      (Desk.step formulas b d).learning = d.learning.storeAnchor formulas d.tuner.point
        d.learning.autotune ambient wind wall ∧
      (Desk.step formulas b d).tuner.prevAnchor = Tuner.hadAnchor d.learning d.tuner.point ∧
      (Desk.step formulas b d).tuner.point = d.tuner.point ∧
      (Desk.step formulas b d).tuner.running = true := by
  cases b with
  | tick t =>
      have noted : (d.tuner.note t).ph = .testing := testing
      simp only [Desk.step, Tuner.tick] at verifying ⊢
      split at verifying
      · rename_i running
        rw [if_pos running]
        split at verifying
        · cases verifying
        · rename_i going
          rw [if_neg going]
          simp only [noted, Tuner.test] at verifying ⊢
          split_ifs at verifying ⊢ with active late early fresh again
          · cases verifying
          · rw [noted] at verifying
            cases verifying
          · rw [noted] at verifying
            cases verifying
          · exact ⟨_, _, _, rfl, rfl, rfl, running⟩
          · cases verifying
          · cases verifying
      · rw [testing] at verifying
        cases verifying
  | stop now =>
      simp only [Desk.step, Tuner.stop] at verifying
      split at verifying
      · cases verifying
      · rw [testing] at verifying
        cases verifying
  | skip i skip =>
      simp only [Desk.step, Tuner.chooseSkip] at verifying
      split at verifying <;> (rw [testing] at verifying; cases verifying)
  | capture s K tau theta | fopdt K tau theta wall | result r wall =>
      rw [Desk.step, testing] at verifying
      cases verifying

/-- A tuning is on trial: the run verifies it, what its set point had before is
kept, and the library has the outlines it had after the store. -/
structure OnTrial (prev : Option TuneAnchor) (s : ℚ) (stored : Slots Outline) (d : Desk) :
    Prop where
  running : d.tuner.running = true
  verifying : d.tuner.ph = .verifying
  prevAnchor : d.tuner.prevAnchor = prev
  point : d.tuner.point = s
  outlines : outlines d.learning = stored

variable {formulas} {prev : Option TuneAnchor} {s : ℚ} {stored : Slots Outline} {d : Desk}

theorem Tuner.watchHold_frame (g : Tuner) (t : Look) :
    (g.watchHold t).running = g.running ∧ (g.watchHold t).ph = g.ph ∧
      (g.watchHold t).prevAnchor = g.prevAnchor ∧ (g.watchHold t).point = g.point := by
  unfold Tuner.watchHold
  split
  · split <;> exact ⟨rfl, rfl, rfl, rfl⟩
  · exact ⟨rfl, rfl, rfl, rfl⟩

/-- While a tuning is verified, a tick watches the hold or ends the trial. -/
theorem OnTrial.tick (trial : OnTrial prev s stored d) {t : Look}
    (going : (d.tuner.note t).endedBy t = false) :
    d.tuner.tick formulas d.learning t = (d.tuner.note t).verify d.learning t := by
  have noted : (d.tuner.note t).ph = .verifying := trial.verifying
  rw [Tuner.tick, if_pos trial.running]
  simp only [going, noted, Bool.false_eq_true, if_false]

theorem OnTrial.tick_ended (trial : OnTrial prev s stored d) {t : Look}
    (ended : (d.tuner.note t).endedBy t = true) :
    (d.tuner.tick formulas d.learning t).tuner.ph = .failed ∧
      (d.tuner.tick formulas d.learning t).learning = d.learning := by
  rw [Tuner.tick, if_pos trial.running]
  rw [if_pos ended]
  exact ⟨rfl, rfl⟩

theorem OnTrial.step (trial : OnTrial prev s stored d) {b : Beat}
    (still : (Desk.step formulas b d).tuner.ph = .verifying) :
    OnTrial prev s stored (Desk.step formulas b d) := by
  cases b with
  | tick t =>
      simp only [Desk.step] at still ⊢
      cases ended : (d.tuner.note t).endedBy t with
      | true =>
          rw [(trial.tick_ended ended).1] at still
          cases still
      | false =>
          rw [trial.tick ended] at still ⊢
          obtain ⟨running, -, prevAnchor, point⟩ := (d.tuner.note t).watchHold_frame t
          unfold Tuner.verify at still ⊢
          dsimp only at still ⊢
          split_ifs at still ⊢
          · cases still
          · exact ⟨running.trans trial.running, still, prevAnchor.trans trial.prevAnchor,
              point.trans trial.point, trial.outlines⟩
          · cases still
          · cases still
  | capture s' K tau theta =>
      exact { trial with
        outlines := (outlines_storeAnchorPlant d.learning s' K tau theta).trans trial.outlines }
  | fopdt K tau theta wall =>
      exact { trial with
        outlines := (outlines_storeFopdt d.learning K tau theta wall).trans trial.outlines }
  | result r wall => exact { trial with }
  | skip i skip =>
      simp only [Desk.step, Tuner.chooseSkip]
      split <;> exact { trial with }
  | stop now =>
      simp only [Desk.step, Tuner.stop, trial.running, if_true] at still
      cases still

theorem OnTrial.stopped (trial : OnTrial prev s stored d) {b : Beat}
    (stops : b.stops d.tuner = true) :
    Tuning.outlines (Desk.step formulas b d).learning = stored := by
  cases b with
  | tick t =>
      rw [Desk.step, (trial.tick_ended stops).2]
      exact trial.outlines
  | stop now => exact trial.outlines
  | capture s' K tau theta | fopdt K tau theta wall | result r wall | skip i skip => cases stops

theorem OnTrial.failed (trial : OnTrial prev s stored d) {b : Beat}
    (goes : b.stops d.tuner = false) (reverts : .tuningApply ∈ Desk.orders formulas b d) :
    Tuning.outlines (Desk.step formulas b d).learning =
      takeBack (prev.map TuneAnchor.outline) s stored := by
  cases b with
  | tick t =>
      obtain ⟨-, -, prevAnchor, point⟩ := (d.tuner.note t).watchHold_frame t
      simp only [Desk.step, Desk.orders] at reverts ⊢
      rw [trial.tick goes] at reverts ⊢
      unfold Tuner.verify at reverts ⊢
      dsimp only at reverts ⊢
      split_ifs at reverts ⊢
      · cases reverts
      · cases reverts
      · cases reverts
      · rw [outlines_rollBack, prevAnchor, point, trial.outlines]
        change takeBack (d.tuner.prevAnchor.map _) d.tuner.point stored = _
        rw [trial.prevAnchor, trial.point]
  | stop now => cases goes
  | capture s' K tau theta | fopdt K tau theta wall | result r wall | skip i skip => cases reverts

/-- A measurement is stored, its tuning is verified, and the verification fails
or the run is stopped: then the library holds the entries it held before, with
the same set points and tunings, exactly where the trial is undone. -/
theorem library_as_it_was_iff (formulas : RelayFormulas) (d : Desk) (first last : Beat)
    (held : List Beat)
    (stores : d.tuner.ph = .testing ∧ (Desk.step formulas first d).tuner.ph = .verifying)
    (verifies : Along (Desk.step formulas)
      (fun b e => (Desk.step formulas b e).tuner.ph = .verifying) held
      (Desk.step formulas first d))
    (ends : last.stops (run (Desk.step formulas) held (Desk.step formulas first d)).tuner = true ∨
      .tuningApply ∈ Desk.orders formulas last
        (run (Desk.step formulas) held (Desk.step formulas first d))) :
    Same d.learning (Desk.step formulas last
        (run (Desk.step formulas) held (Desk.step formulas first d))).learning ↔
      Undone d.learning d.tuner.point d.learning.autotune
        (last.stops (run (Desk.step formulas) held (Desk.step formulas first d)).tuner) := by
  obtain ⟨ambient, wind, wall, learned, kept, place, running⟩ :=
    step_stores formulas stores.1 stores.2
  have begun : OnTrial (Tuner.hadAnchor d.learning d.tuner.point) d.tuner.point
      (outlines (Desk.step formulas first d).learning) (Desk.step formulas first d) :=
    ⟨running, stores.2, kept, place, rfl⟩
  have trial := run_preserves (fun b e => (Desk.step formulas b e).tuner.ph = .verifying)
    (OnTrial (Tuner.hadAnchor d.learning d.tuner.point) d.tuner.point
      (outlines (Desk.step formulas first d).learning))
    (fun b e trial still => trial.step still) begun verifies
  generalize run (Desk.step formulas) held (Desk.step formulas first d) = e at *
  rw [learned] at trial
  by_cases usable : Learning.Usable d.learning.autotune
  · cases stops : last.stops e.tuner with
    | true =>
        rw [Same, trial.stopped stops, Undone, if_pos rfl]
        have stored := same_store_iff formulas d.learning d.tuner.point d.learning.autotune
          ambient wind wall usable
        rw [Same] at stored
        rw [stored]
        exact ⟨fun again _ => again, fun again => again usable⟩
    | false =>
        have reverts := ends.resolve_left (by rw [stops]; decide)
        rw [Same, trial.failed stops reverts]
        exact takeBack_stored formulas d.learning d.tuner.point d.learning.autotune ambient wind
          wall usable
  · rw [Learning.storeAnchor_refused formulas d.learning d.tuner.point d.learning.autotune
      ambient wind wall usable] at trial
    cases stops : last.stops e.tuner with
    | true =>
        rw [Same, trial.stopped stops, Undone, if_pos rfl]
        exact iff_of_true (List.Perm.refl _) fun useful => absurd useful usable
    | false =>
        have reverts := ends.resolve_left (by rw [stops]; decide)
        rw [Same, trial.failed stops reverts]
        exact takeBack_refused d.learning d.tuner.point d.learning.autotune usable

end Trial

/-- A relay test at a set point has just found something. -/
def testedAt (s : ℚ) (library : Library) : Desk where
  tuner :=
    { running := true, ph := .testing, pointsC := [s], step := 0, phaseStart := 1, runStart := 1
      lastNow := 1, stableSince := 0, atGen := 0, measured := 0, tries := 0, full := false
      ambC := none, windKmh := 0, settleFromC := none, prevResult := Learning.noResult
      prevAnchor := none, vMaxC := 0, vSqC := 0, vSumC := 0, vN := 0, skipVerify := fun _ => false }
  learning := ⟨library, none, none, measurement, 1⟩

/-- The grill holds, and the pit probe does not read. -/
def lookAt (now : ℚ) : Beat := .tick ⟨.hold, false, 200, [⟨true, none⟩], none, none, .c, now, now⟩

/-- With nothing in the library, a measurement that does not hold is removed. -/
theorem library_as_it_was_fresh :
    Same (testedAt 100 Library.empty).learning
      (Desk.step noFormulas (lookAt 2000)
        (Desk.step noFormulas (lookAt 10) (testedAt 100 Library.empty))).learning := by
  refine (library_as_it_was_iff noFormulas (testedAt 100 Library.empty) (lookAt 10) (lookAt 2000)
    [] ⟨rfl, by decide +kernel⟩ trivial (Or.inr (by decide +kernel))).mpr ?_
  have goes : (lookAt 2000).stops
      (Desk.step noFormulas (lookAt 10) (testedAt 100 Library.empty)).tuner = false := by
    decide
  have had : Tuner.hadAnchor (testedAt 100 Library.empty).learning
      (testedAt 100 Library.empty).tuner.point = none := by
    decide
  rw [run_nil, goes, Undone, if_neg (by decide), had]
  intro _
  decide

/-- Eight entries, twenty degrees apart. -/
def fullLibrary : Library :=
  ⟨(List.range tuneAnchors).map fun i => some (entryAt (100 + 20 * i) 1), rfl⟩

/-- In a full library, the entry that made way for a measurement that does not
hold is lost. -/
theorem evicted_entry_lost :
    Cmd.tuningApply ∈ Desk.orders noFormulas (lookAt 2000)
        (Desk.step noFormulas (lookAt 10) (testedAt 300 fullLibrary)) ∧
      ¬Same (testedAt 300 fullLibrary).learning
        (Desk.step noFormulas (lookAt 2000)
          (Desk.step noFormulas (lookAt 10) (testedAt 300 fullLibrary))).learning := by
  decide +kernel

end PiFire.Tuning
