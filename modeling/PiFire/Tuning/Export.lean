import PiFire.Restart.RoundTrip
import PiFire.Tuning.Places
import Mathlib.Computability.Primrec.List

/-!
# Backups of what was learned

The library and the plant are written to a document, and a document is put back: the
library is cleared and filled with the entries that are measurements, and the plant is
stored beside it. This file has both, and when an entry comes back as it was.
-/

namespace PiFire.Tuning

open Transition

/-- The feed-forward fit: a load for an ambient, and how well it fits. -/
structure FfFit where
  a : ℚ
  b : ℚ
  n : ℕ
  rms : ℚ

/-- The plant of an entry, where it has one. -/
def writeAnchorPlant (a : TuneAnchor) : List (String × Json) :=
  if a.K > 0 then
    [("K", .num a.K), ("tau", .num a.tau), ("theta", .num a.theta),
      ("plant_src", .num a.plantSrc)]
  else []

/-- One entry of a backup. -/
def writeAnchor (a : TuneAnchor) : Json :=
  let tuning : List (String × Json) :=
    [("setpoint_c", .num a.setpointC), ("Ku", .num a.Ku), ("Pu", .num a.Pu),
      ("PB_c", .num a.PBc), ("Ti", .num a.Ti), ("Td", .num a.Td)]
  let load : List (String × Json) := if a.load > 0 then [("load", .num a.load)] else []
  let record : List (String × Json) := [("ts", .num a.ts), ("runs", .num a.runs)]
  let ambient : List (String × Json) := (a.ambientC.map fun x => ("ambient_c", .num x)).toList
  .obj (tuning ++ writeAnchorPlant a ++ load ++ record ++ ambient ++ [("wind", .num a.wind)])

/-- The plant of the last rise. -/
def writePlant (m : Fopdt) : Json :=
  .obj [("K", .num m.K), ("tau", .num m.tau), ("theta", .num m.theta), ("ts", .num m.ts)]

/-- The controller the tuning belongs to, with its numbers. -/
def writeController (settings : Json) : Json :=
  let id := String.ofList ((jsonStr settings ["controller", "selected"] "adaptive").toList.take 39)
  .obj
    (("id", .str id) ::
      ((jsonPath settings ["controller", "config", id]).map fun config => ("config", config)).toList)

/-- The members that say what the backup is, and what it was taken from. -/
def writeHeading (daemon : Option String) (settings : Json) (fit : FfFit) (wall : ℚ) :
    List (String × Json) :=
  [("kind", .str "pifire-tuning"), ("version", .num 1), ("exported_at", .num wall),
      ("units", .str "C"),
      ("grill", .str (String.ofList
        ((jsonStr settings ["globals", "grill_name"] "PiFire").toList.take 63)))] ++
    (daemon.map fun version => ("daemon", Json.str version)).toList ++
    [("controller", writeController settings),
      ("feedforward", .obj [("a", .num fit.a), ("b", .num fit.b), ("n", .num fit.n),
        ("rms", .num fit.rms)])]

/-- `pf_learning_export` -/
def learningExport (daemon : Option String) (settings : Json) (fit : FfFit) (wall : ℚ) (l : Learning) :
    Json :=
  .obj (writeHeading daemon settings fit wall ++
    (l.fopdt.map fun m => ("plant", writePlant m)).toList ++
    [("anchors", .arr (l.anchorList.map writeAnchor))])

/-- One entry of a backup is put back, if it is a measurement, and counted. -/
def putBack (wall : ℚ) (put : Learning × ℕ) (e : Json) : Learning × ℕ :=
  let a := Learning.readAnchor wall e
  if a.setpointC ≤ 0 ∨ a.PBc ≤ 0 ∨ a.Ti ≤ 0 then put
  else (put.1.putAnchor a, put.2 + 1)

/-- `pf_learning_import`, as the state goes through it. -/
def learningImport (wall : ℚ) (doc : Json) (l : Learning) : Learning × Except String ℕ :=
  match doc with
  | .obj _ =>
      if jsonStr doc ["kind"] "" ≠ "pifire-tuning" then
        (l, .error "that is not a PiFire tuning backup")
      else if jsonNum doc ["version"] 0 > 1 then
        (l, .error "that backup was written by a newer version of PiFire")
      else
        match doc.member? "anchors" with
        | some (.arr items) =>
            let put := items.foldl (putBack wall) (l.clearAnchors, 0)
            (Learning.importPlant wall doc put.1, .ok put.2)
        | _ => (l, .error "the backup has no tuning library in it")
  | _ => (l, .error "that is not a PiFire tuning backup")

theorem foldl_putBack (wall : ℚ) (items : List Json) (l : Learning) (k : ℕ) :
    items.foldl (putBack wall) (l, k) =
      ((Learning.backedUp wall items).foldl Learning.putAnchor l,
        k + (Learning.backedUp wall items).length) := by
  induction items generalizing l k with
  | nil => rfl
  | cons e items ih =>
      rw [List.foldl_cons, putBack, Learning.backedUp, List.map_cons, List.filter_cons]
      dsimp only
      split
      · rename_i refused
        rw [ih, if_neg]
        · rfl
        · rw [decide_eq_true_eq]
          rintro ⟨setpoint, band, integral⟩
          rcases refused with low | low | low <;> linarith
      · rename_i measured
        rw [ih, if_pos]
        · rw [List.foldl_cons, List.length_cons, Learning.backedUp, Nat.add_assoc, Nat.add_comm 1]
        · rw [decide_eq_true_eq]
          simpa only [not_or, not_le] using measured

theorem import_eq (wall : ℚ) (doc : Json) (l : Learning) :
    learningImport wall doc l =
      match l.importBackup wall doc with
      | .ok (restored, k) => (restored, .ok k)
      | .error why => (l, .error why) := by
  cases doc with
  | obj members =>
    rw [learningImport, Learning.importBackup]
    split
    · rfl
    · split
      · rfl
      · generalize Json.member? "anchors" (.obj members) = found
        cases found with
        | none => rfl
        | some anchors =>
          cases anchors with
          | arr items =>
            dsimp only
            rw [foldl_putBack, Nat.zero_add]
          | _ => rfl
  | _ => rfl

/-- An entry that comes back as it was: it is a measurement, and has a plant and a load, or
nothing in their place. -/
structure Portable (a : TuneAnchor) : Prop where
  measured : 0 < a.setpointC ∧ 0 < a.PBc ∧ 0 < a.Ti
  plant : 0 < a.K ∨ a.K = 0 ∧ a.tau = 0 ∧ a.theta = 0 ∧ a.plantSrc = plantFromCapture
  load : 0 ≤ a.load

/-- What comes back of an entry. -/
def carried (a : TuneAnchor) : TuneAnchor :=
  { a with
    K := if a.K > 0 then a.K else 0
    tau := if a.K > 0 then a.tau else 0
    theta := if a.K > 0 then a.theta else 0
    plantSrc := if a.K > 0 then a.plantSrc else plantFromCapture
    load := if a.load > 0 then a.load else 0 }

theorem jsonPath_obj (members : List (String × Json)) (name : String) :
    jsonPath (.obj members) [name] = members.lookup name := by
  rw [jsonPath, Json.enter?, Json.member?]
  · cases members.lookup name <;> rfl
  · rintro _ ⟨⟩

theorem readAnchor_writeAnchor (wall : ℚ) (a : TuneAnchor) :
    Learning.readAnchor wall (writeAnchor a) = carried a := by
  cases ambient : a.ambientC <;> by_cases plant : a.K > 0 <;> by_cases load : a.load > 0 <;>
    simp [Learning.readAnchor, writeAnchor, writeAnchorPlant, carried, plant, load, ambient,
      jsonNum, jsonInt, jsonNum?, jsonPath_obj, List.lookup, truncate_intCast]

/-- An entry comes back as it was exactly where nothing of it is left out. -/
theorem carried_eq_iff (a : TuneAnchor) :
    carried a = a ↔
      (0 < a.K ∨ a.K = 0 ∧ a.tau = 0 ∧ a.theta = 0 ∧ a.plantSrc = plantFromCapture) ∧
        0 ≤ a.load := by
  constructor
  · intro same
    have K := congrArg TuneAnchor.K same
    have tau := congrArg TuneAnchor.tau same
    have theta := congrArg TuneAnchor.theta same
    have src := congrArg TuneAnchor.plantSrc same
    have load := congrArg TuneAnchor.load same
    dsimp only [carried] at K tau theta src load
    constructor
    · by_cases plant : 0 < a.K
      · exact Or.inl plant
      · rw [if_neg plant] at K tau theta src
        exact Or.inr ⟨K.symm, tau.symm, theta.symm, src.symm⟩
    · split at load
      · rename_i positive
        exact positive.le
      · exact load.le
  · rintro ⟨plant, load⟩
    have loaded : (if a.load > 0 then a.load else 0) = a.load := by
      split
      · rfl
      · rename_i none_
        exact le_antisymm load (not_lt.mp none_)
    rw [carried, loaded]
    rcases plant with plant | ⟨K, tau, theta, src⟩
    · rw [if_pos plant, if_pos plant, if_pos plant, if_pos plant]
    · have nothing : ¬a.K > 0 := by
        rw [K]
        exact lt_irrefl _
      rw [if_neg nothing, if_neg nothing, if_neg nothing, if_neg nothing, ← src]
      nth_rewrite 1 [← K]
      nth_rewrite 1 [← tau]
      nth_rewrite 1 [← theta]
      rfl

end PiFire.Tuning
