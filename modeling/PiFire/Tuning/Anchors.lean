import PiFire.Control.Json
import PiFire.Transition.Slots
import Mathlib.Data.List.Sort

/-!
# The tuning library

A relay test measures the loop at one set point, and the library keeps one
entry for each set point it was measured at. This file has the entries, how a
measurement moves one, the plant an entry is given, and the library's own
operations: storing a measurement, putting an entry back, taking one out,
filing a captured plant and restoring a backup. The relay's formulas need an
arctangent and a square root; they are parameters.
-/

namespace PiFire.Tuning

open Transition

/-- `PF_PLANT_FROM_CAPTURE` -/
def plantFromCapture : ℤ := 1

/-- `PF_PLANT_FROM_RELAY` -/
def plantFromRelay : ℤ := 2

/-- What one set point was found to need. The conditions are those of the last
measurement; an ambient temperature that was not known is `none`. -/
structure TuneAnchor where
  setpointC : ℚ
  Ku : ℚ
  Pu : ℚ
  PBc : ℚ
  Ti : ℚ
  Td : ℚ
  K : ℚ
  tau : ℚ
  theta : ℚ
  ts : ℚ
  ambientC : Option ℚ
  wind : ℚ
  load : ℚ
  runs : ℤ
  plantSrc : ℤ
  deriving DecidableEq

/-- A slot that was cleared holds zeros. -/
def TuneAnchor.blank : TuneAnchor :=
  ⟨0, 0, 0, 0, 0, 0, 0, 0, 0, 0, some 0, 0, 0, 0, 0⟩

/-- What a relay test found. -/
structure AutotuneResult where
  Ku : ℚ
  Pu : ℚ
  PBc : ℚ
  Ti : ℚ
  Td : ℚ
  amplitudeC : ℚ
  load : ℚ
  ts : ℚ
  valid : Bool
  deriving DecidableEq

/-- A plant that waits for the entry it belongs to. -/
structure PendingPlant where
  setpointC : ℚ
  K : ℚ
  tau : ℚ
  theta : ℚ
  deriving DecidableEq

/-- The plant of the last rise from cold. -/
structure Fopdt where
  K : ℚ
  tau : ℚ
  theta : ℚ
  ts : ℚ
  method : ℤ
  deriving DecidableEq

/-- The relay's formulas: from a time constant to the gain and the dead time,
and from a gain to the time constant and the dead time, where there is one. -/
structure RelayFormulas where
  plantFromTau : ℚ → ℚ → ℚ → ℚ × ℚ
  plantFromGain : ℚ → ℚ → ℚ → Option (ℚ × ℚ)

/-- `PF_TUNE_ANCHORS` -/
def tuneAnchors : ℕ := 8

/-- The library has a fixed number of slots. -/
structure Library where
  slots : Slots TuneAnchor
  length_slots : slots.length = tuneAnchors

/-- What the grill has measured about itself. -/
structure Learning where
  library : Library
  pendingPlant : Option PendingPlant
  fopdt : Option Fopdt
  autotune : AutotuneResult
  autotuneGen : ℕ

namespace Library

/-- A library with nothing in it. -/
def empty : Library := ⟨List.replicate tuneAnchors none, List.length_replicate⟩

/-- One slot is written. -/
def write (l : Library) (i : ℕ) (slot : Option TuneAnchor) : Library :=
  ⟨l.slots.set i slot, by rw [List.length_set, l.length_slots]⟩

end Library

/-- An entry within the match distance of a set point. -/
def near (setpoint : ℚ) (a : TuneAnchor) : Bool := |a.setpointC - setpoint| < 5

/-- How alone an entry is. -/
def nearest (t : Slots TuneAnchor) (i : ℕ) (a : TuneAnchor) : ℚ :=
  (List.range t.length).foldl (fun nearest j =>
    match t.at? j with
    | some b =>
        let d := |a.setpointC - b.setpointC|
        if j ≠ i ∧ d < nearest then d else nearest
    | none => nearest) 1000000000

/-- How alone an entry is, weighted by how well it is measured. -/
def worth (t : Slots TuneAnchor) (i : ℕ) (a : TuneAnchor) : ℚ :=
  nearest t i a * (1 + 1 / 4 * (if a.runs > 4 then 4 else a.runs))

/-- The entry that makes way when the library is full: the least useful one. -/
def leastUseful (t : Slots TuneAnchor) : ℕ :=
  ((List.range t.length).foldl (fun (best : Option ℚ × ℕ) i =>
    let worth := worth t i ((t.at? i).getD TuneAnchor.blank)
    if best.1.all (worth < ·) then (some worth, i) else best) (none, 0)).2

/-- The slot a measurement goes to: the first entry that matches, else the first
that is not used, else the least useful one. -/
def storeSlot (t : Slots TuneAnchor) (setpoint : ℚ) : ℕ :=
  match t.first? (near setpoint) with
  | some i => i
  | none =>
      match t.free? with
      | some i => i
      | none => leastUseful t

/-- How far a new measurement moves an entry. -/
def TuneAnchor.weight (old : Option TuneAnchor) (setpoint : ℚ) : ℚ :=
  match old with
  | some a =>
      if near setpoint a ∧ a.runs + 1 ≠ 0 then max (1 / (a.runs + 1 : ℤ)) (1 / 4) else 1
  | none => 1

/-- A new measurement takes the entry over, or refines it. -/
def TuneAnchor.measure (a : TuneAnchor) (r : AutotuneResult) (w : ℚ) : TuneAnchor :=
  if 1 ≤ w then
    { a with
      Ku := r.Ku, Pu := r.Pu, PBc := r.PBc, Ti := r.Ti, Td := r.Td, load := r.load, runs := 1 }
  else
    { a with
      Ku := a.Ku + (r.Ku - a.Ku) * w
      Pu := a.Pu + (r.Pu - a.Pu) * w
      PBc := a.PBc + (r.PBc - a.PBc) * w
      Ti := a.Ti + (r.Ti - a.Ti) * w
      Td := a.Td + (r.Td - a.Td) * w
      load :=
        if r.load > 0 then if a.load > 0 then a.load + (r.load - a.load) * w else r.load
        else a.load
      runs := a.runs + 1 }

/-- The entry after a measurement, its conditions those of the measurement. -/
def TuneAnchor.stored (old : Option TuneAnchor) (setpoint : ℚ) (r : AutotuneResult)
    (ambient : Option ℚ) (wind wall : ℚ) : TuneAnchor :=
  { (old.getD TuneAnchor.blank).measure r (TuneAnchor.weight old setpoint) with
    setpointC := setpoint
    ts := wall
    ambientC := ambient
    wind := wind }

/-- An entry takes a plant: a relay's replaces a capture's, a capture's never
replaces a relay's, and two of a kind average. -/
def TuneAnchor.takePlant (a : TuneAnchor) (K tau theta : ℚ) (src : ℤ) : TuneAnchor :=
  if a.K > 0 ∧ src = plantFromCapture ∧ a.plantSrc = plantFromRelay then a
  else
    let replace := a.K ≤ 0 ∨ src = plantFromRelay ∧ a.plantSrc ≠ plantFromRelay
    let w : ℚ := if replace then 1 else max (1 / (if a.runs > 0 then a.runs else 1)) (1 / 4)
    { a with
      plantSrc := src
      K := a.K + (K - a.K) * w
      tau := a.tau + (tau - a.tau) * w
      theta := a.theta + (theta - a.theta) * w }

/-- The pending plant belongs to this set point. -/
def PendingPlant.near (p : PendingPlant) (setpoint : ℚ) : Bool :=
  |p.setpointC - setpoint| < 5

/-- The other settled hold that is nearest, far enough away to divide by. -/
def otherHold (t : Slots TuneAnchor) (slot : ℕ) (setpoint : ℚ) : Option TuneAnchor :=
  (List.range t.length).foldl (fun (best : Option TuneAnchor) i =>
    match t.at? i with
    | some o =>
        if i = slot ∨ o.load ≤ 0 ∨ |o.setpointC - setpoint| < 30 then best
        else if best.all fun b => |o.setpointC - setpoint| < |b.setpointC - setpoint| then some o
        else best
    | none => best) none

/-- The static gain, from two settled holds or from one through the ambient
temperature; zero when it is not to be believed. -/
def staticGain (t : Slots TuneAnchor) (slot : ℕ) (setpoint : ℚ) (r : AutotuneResult)
    (ambient : Option ℚ) : ℚ :=
  let throughAmbient :=
    match ambient with
    | some cold => if r.load > 0 ∧ setpoint - cold > 40 then (setpoint - cold) / r.load else 0
    | none => 0
  let gain :=
    match otherHold t slot setpoint with
    | some best =>
        if r.load > 0 ∧ |r.load - best.load| > 3 / 100 then
          (setpoint - best.setpointC) / (r.load - best.load)
        else throughAmbient
    | none => throughAmbient
  if gain > 80 ∧ gain < 3000 then gain else 0

variable (formulas : RelayFormulas)

/-- The plant a relay result and a gain imply, if they describe one. -/
def gainPlant (r : AutotuneResult) (gain : ℚ) : Option (ℚ × ℚ) :=
  if r.Ku > 0 ∧ r.Pu > 0 ∧ gain > 0 then
    (formulas.plantFromGain r.Ku r.Pu gain).filter fun found => 30 < found.1 ∧ found.1 < 7200
  else none

/-- The entry is given its plant, and the plant that waited is used up. -/
def filePlant (l : Learning) (slot : ℕ) (a : TuneAnchor) (setpoint : ℚ) (r : AutotuneResult)
    (ambient : Option ℚ) : TuneAnchor × Option PendingPlant :=
  let waiting := l.pendingPlant.filter fun p => p.near setpoint
  let tauSrc :=
    match waiting with
    | some p => p.tau
    | none => if a.tau > 0 then a.tau else (l.fopdt.map Fopdt.tau).getD 0
  let gain := staticGain l.library.slots slot setpoint r ambient
  match gainPlant formulas r gain with
  | some (tau, theta) => (a.takePlant gain tau theta plantFromRelay, none)
  | none =>
      if r.Ku > 0 ∧ r.Pu > 0 ∧ tauSrc > 0 then
        let found := formulas.plantFromTau r.Ku r.Pu tauSrc
        (a.takePlant found.1 tauSrc found.2 plantFromRelay, none)
      else
        match waiting with
        | some p => (a.takePlant p.K p.tau p.theta plantFromCapture, none)
        | none => (a, l.pendingPlant)

namespace Learning

/-- A measurement that is one. -/
def Usable (r : AutotuneResult) : Prop := 0 < r.PBc ∧ 0 < r.Ti

instance (r : AutotuneResult) : Decidable (Usable r) := inferInstanceAs (Decidable (_ ∧ _))

/-- `pf_learning_store_anchor` -/
def storeAnchor (l : Learning) (setpoint : ℚ) (r : AutotuneResult) (ambient : Option ℚ)
    (wind wall : ℚ) : Learning :=
  if r.PBc ≤ 0 ∨ r.Ti ≤ 0 then l
  else
    let slot := storeSlot l.library.slots setpoint
    let a := TuneAnchor.stored (l.library.slots.at? slot) setpoint r ambient wind wall
    let filed := filePlant formulas l slot a setpoint r ambient
    { l with
      library := l.library.write slot (some filed.1)
      pendingPlant := filed.2 }

/-- `pf_learning_remove_anchor` -/
def removeAnchor (l : Learning) (setpoint : ℚ) : Learning :=
  match l.library.slots.first? (near setpoint) with
  | some i => { l with library := l.library.write i none }
  | none => l

/-- `pf_learning_put_anchor` -/
def putAnchor (l : Learning) (a : TuneAnchor) : Learning :=
  if a.PBc ≤ 0 ∨ a.Ti ≤ 0 then l
  else
    match l.library.slots.first? (near a.setpointC) with
    | some i => { l with library := l.library.write i (some a) }
    | none =>
        match l.library.slots.free? with
        | some i => { l with library := l.library.write i (some a) }
        | none => l

/-- `pf_learning_store_anchor_plant` -/
def storeAnchorPlant (l : Learning) (setpoint K tau theta : ℚ) : Learning :=
  if 0 < K ∧ 0 < tau then
    match l.library.slots.first? (near setpoint) with
    | some i =>
        { l with
          library := l.library.write i
            ((l.library.slots.at? i).map fun a => a.takePlant K tau theta plantFromCapture) }
    | none => { l with pendingPlant := some ⟨setpoint, K, tau, theta⟩ }
  else l

/-- `pf_learning_clear_anchors` -/
def clearAnchors (l : Learning) : Learning := { l with library := Library.empty }

/-- A result of a test that never ran. -/
def noResult : AutotuneResult := ⟨0, 0, 0, 0, 0, 0, 0, 0, false⟩

/-- `pf_learning_clear_tuning` -/
def clearTuning (l : Learning) : Learning :=
  { l with library := Library.empty, fopdt := none, autotune := noResult }

/-- `pf_learning_store_fopdt` -/
def storeFopdt (l : Learning) (K tau theta wall : ℚ) : Learning :=
  match l.fopdt with
  | some old =>
      if old.method ≥ 2 then
        { l with
          fopdt := some ⟨(K + old.K) / 2, (tau + old.tau) / 2, (theta + old.theta) / 2, wall, 2⟩ }
      else { l with fopdt := some ⟨K, tau, theta, wall, 2⟩ }
  | none => { l with fopdt := some ⟨K, tau, theta, wall, 2⟩ }

/-- `pf_learning_store_autotune` -/
def storeAutotune (l : Learning) (r : AutotuneResult) (wall : ℚ) : Learning :=
  { l with
    autotune := { r with ts := wall, valid := r.Pu > 0 }
    autotuneGen := l.autotuneGen + 1 }

/-- `pf_learning_anchor_list`: the entries, by ascending set point. -/
def anchorList (l : Learning) : List TuneAnchor :=
  l.library.slots.entries.insertionSort fun a b => a.setpointC ≤ b.setpointC

/-- One entry of a backup. -/
def readAnchor (wall : ℚ) (e : Json) : TuneAnchor where
  setpointC := jsonNum e ["setpoint_c"] 0
  Ku := jsonNum e ["Ku"] 0
  Pu := jsonNum e ["Pu"] 0
  PBc := jsonNum e ["PB_c"] 0
  Ti := jsonNum e ["Ti"] 0
  Td := jsonNum e ["Td"] 0
  K := jsonNum e ["K"] 0
  tau := jsonNum e ["tau"] 0
  theta := jsonNum e ["theta"] 0
  ts := jsonNum e ["ts"] wall
  plantSrc := jsonInt e ["plant_src"] plantFromCapture
  load := jsonNum e ["load"] 0
  ambientC := jsonNum? e ["ambient_c"]
  wind := jsonNum e ["wind"] 0
  runs := jsonInt e ["runs"] 1

/-- The entries of a backup that are measurements. -/
def backedUp (wall : ℚ) (items : List Json) : List TuneAnchor :=
  (items.map (readAnchor wall)).filter fun a => 0 < a.setpointC ∧ 0 < a.PBc ∧ 0 < a.Ti

/-- The plant of a backup is stored beside the library. -/
def importPlant (wall : ℚ) (doc : Json) (l : Learning) : Learning :=
  match doc.member? "plant" with
  | some (.obj members) =>
      let plant := Json.obj members
      l.storeFopdt (jsonNum plant ["K"] 0) (jsonNum plant ["tau"] 0) (jsonNum plant ["theta"] 0) wall
  | _ => l

/-- `pf_learning_import`: the number of entries restored, or why there are none. -/
def importBackup (wall : ℚ) (doc : Json) (l : Learning) : Except String (Learning × ℕ) :=
  match doc with
  | .obj _ =>
      if jsonStr doc ["kind"] "" ≠ "pifire-tuning" then
        .error "that is not a PiFire tuning backup"
      else if jsonNum doc ["version"] 0 > 1 then
        .error "that backup was written by a newer version of PiFire"
      else
        match doc.member? "anchors" with
        | some (.arr items) =>
            let anchors := backedUp wall items
            .ok (importPlant wall doc (anchors.foldl putAnchor l.clearAnchors), anchors.length)
        | _ => .error "the backup has no tuning library in it"
  | _ => .error "that is not a PiFire tuning backup"

end Learning

end PiFire.Tuning
