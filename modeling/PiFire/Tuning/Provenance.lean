import PiFire.Tuning.Places

/-!
# Where a plant comes from

An entry's plant comes from captures and from relay tests. This file keeps a record beside
the library: which measurements went into the plant in each slot, and which captures that
waited were used, and for what. A relay test also reads the load of another settled hold, or
the time constant of the last rise from cold; these are on record too.
-/

namespace PiFire.Tuning

open Transition

/-! ## The record -/

/-- Something that went into a plant. -/
inductive Source where
  /-- a step captured at this set point -/
  | capture (s : ℚ)
  /-- a relay test there -/
  | relay (s : ℚ)
  /-- an entry of a backup -/
  | restored (s : ℚ)
  /-- the load of another hold, where the gain is that of two holds -/
  | hold (s : ℚ)
  /-- the time constant of the last rise from cold -/
  | rise
  deriving DecidableEq

/-- A measurement of the set point's own is within the match distance of it. -/
def Source.Own (s : ℚ) : Source → Prop
  | .capture q | .relay q | .restored q => |q - s| < 5
  | .hold _ | .rise => True

/-- All that was measured is. -/
def Source.Near (s : ℚ) : Source → Prop
  | .capture q | .relay q | .restored q | .hold q => |q - s| < 5
  | .rise => False

instance (s : ℚ) : DecidablePred (Source.Own s)
  | .capture q | .relay q | .restored q => inferInstanceAs (Decidable (|q - s| < 5))
  | .hold _ | .rise => isTrue trivial

instance (s : ℚ) : DecidablePred (Source.Near s)
  | .capture q | .relay q | .restored q | .hold q => inferInstanceAs (Decidable (|q - s| < 5))
  | .rise => isFalse id

/-- A capture that waited was used. -/
structure Use where
  number : ℕ
  captured : ℚ
  setpoint : ℚ

/-- What is on record: the sources of the plant in each slot, the number of the capture that
waits, how many ever did, and which of them were used. -/
structure Record where
  sources : ℕ → List Source
  number : ℕ
  waited : ℕ
  uses : List Use

def Record.init : Record := ⟨fun _ => [], 0, 0, []⟩

/-- What an entry's plant holds after it takes another. -/
def TuneAnchor.takeSources (a : TuneAnchor) (src : ℤ) (new base : List Source) : List Source :=
  if a.K > 0 ∧ src = plantFromCapture ∧ a.plantSrc = plantFromRelay then base
  else
    let replace := a.K ≤ 0 ∨ src = plantFromRelay ∧ a.plantSrc ≠ plantFromRelay
    let w : ℚ := if replace then 1 else max (1 / (if a.runs > 0 then a.runs else 1)) (1 / 4)
    if w = 1 then new else new ++ base

/-- What the static gain of a measurement reads beside it. -/
def gainSources (t : Slots TuneAnchor) (slot : ℕ) (setpoint : ℚ) (r : AutotuneResult) :
    List Source :=
  match otherHold t slot setpoint with
  | some best =>
      if r.load > 0 ∧ |r.load - best.load| > 3 / 100 then [.hold best.setpointC] else []
  | none => []

variable (formulas : RelayFormulas)

/-- The sources of the plant that a measurement files, and the capture that is used for it. -/
def fileSources (l : Learning) (slot : ℕ) (a : TuneAnchor) (setpoint : ℚ) (r : AutotuneResult)
    (ambient : Option ℚ) (base : List Source) : List Source × Option PendingPlant :=
  let waiting := l.pendingPlant.filter fun p => p.near setpoint
  let tauSrc : ℚ :=
    match waiting with
    | some p => p.tau
    | none => if a.tau > 0 then a.tau else (l.fopdt.map Fopdt.tau).getD 0
  let tauSources :=
    match waiting with
    | some p => [Source.capture p.setpointC]
    | none => if a.tau > 0 then base else [.rise]
  let gain := staticGain l.library.slots slot setpoint r ambient
  match gainPlant formulas r gain with
  | some _ =>
      (a.takeSources plantFromRelay
        (.relay setpoint :: gainSources l.library.slots slot setpoint r) base, none)
  | none =>
      if r.Ku > 0 ∧ r.Pu > 0 ∧ tauSrc > 0 then
        (a.takeSources plantFromRelay (.relay setpoint :: tauSources) base, waiting)
      else
        match waiting with
        | some p => (a.takeSources plantFromCapture [.capture p.setpointC] base, some p)
        | none => (base, none)

namespace Record

/-- The sources of the plant that is in a slot, if there is one. -/
def held (g : Record) (l : Learning) (slot : ℕ) : List Source :=
  if (l.library.slots.at? slot).isSome then g.sources slot else []

/-- The sources of one slot are written. -/
def write (g : Record) (slot : ℕ) (sources : List Source) : Record :=
  { g with sources := Function.update g.sources slot sources }

/-- A capture was used. -/
def use (g : Record) (setpoint : ℚ) : Option PendingPlant → Record
  | some p => { g with uses := ⟨g.number, p.setpointC, setpoint⟩ :: g.uses }
  | none => g

end Record

/-- What a call adds to the record. -/
def Call.mark : Call → Learning → Record → Record
  | .store s r ambient wind wall, l, g =>
      if r.PBc ≤ 0 ∨ r.Ti ≤ 0 then g
      else
        let slot := storeSlot l.library.slots s
        let a := TuneAnchor.stored (l.library.slots.at? slot) s r ambient wind wall
        let filed := fileSources formulas l slot a s r ambient (g.held l slot)
        (g.write slot filed.1).use s filed.2
  | .put a, l, g =>
      if a.PBc ≤ 0 ∨ a.Ti ≤ 0 then g
      else
        match l.library.slots.first? (near a.setpointC) with
        | some i => g.write i [.restored a.setpointC]
        | none =>
            match l.library.slots.free? with
            | some i => g.write i [.restored a.setpointC]
            | none => g
  | .plant s K tau _, l, g =>
      if 0 < K ∧ 0 < tau then
        match l.library.slots.first? (near s) with
        | some i =>
            g.write i (((l.library.slots.at? i).map fun a =>
              a.takeSources plantFromCapture [.capture s] (g.sources i)).getD [])
        | none => { g with number := g.waited, waited := g.waited + 1 }
      else g
  | _, _, g => g

/-- A call with its record. -/
def Call.trace (c : Call) (state : Learning × Record) : Learning × Record :=
  (c.work formulas state.1, c.mark formulas state.1 state.2)

/-! ## What the record says -/

/-- Every plant holds measurements of its own set point. -/
def Own (state : Learning × Record) : Prop :=
  ∀ i a, state.1.library.slots.at? i = some a → ∀ source ∈ state.2.sources i,
    source.Own a.setpointC

/-- No capture that waited was used twice, or for another set point. -/
def UsedOnce (g : Record) : Prop :=
  (g.uses.map Use.number).Nodup ∧ ∀ use ∈ g.uses, |use.captured - use.setpoint| < 5

/-- A measurement goes to an entry whose plant was measured within the match distance of
it. -/
def Call.Settled (c : Call) (state : Learning × Record) : Prop :=
  match c with
  | .store s r _ _ _ => Learning.Usable r →
      ∀ source ∈ state.2.held state.1 (storeSlot state.1.library.slots s), source.Own s
  | _ => True

/-- A capture leaves the plant of a relay as it is. -/
def Call.Spares (c : Call) (state : Learning × Record) : Prop :=
  match c with
  | .plant .. => ∀ i a, state.1.library.slots.at? i = some a → 0 < a.K →
      a.plantSrc = plantFromRelay →
        (c.work formulas state.1).library.slots.at? i = some a
  | .store s r _ _ _ => ¬(0 < r.Ku ∧ 0 < r.Pu) → ∀ a, 0 < a.K → a.plantSrc = plantFromRelay →
      state.1.library.slots.at? (storeSlot state.1.library.slots s) = some a →
        ∃ b, (c.work formulas state.1).library.slots.at? (storeSlot state.1.library.slots s) =
          some b ∧ (b.K, b.tau, b.theta) = (a.K, a.tau, a.theta)
  | _ => True

/-! ## Sources of a plant -/

section Sources

variable {l : Learning} {slot : ℕ} {a : TuneAnchor} {s : ℚ} {r : AutotuneResult}
  {ambient : Option ℚ} {base : List Source}

theorem mem_takeSources {src : ℤ} {new : List Source} {source : Source}
    (inside : source ∈ a.takeSources src new base) : source ∈ new ∨ source ∈ base := by
  rw [TuneAnchor.takeSources] at inside
  dsimp only at inside
  split_ifs at inside
  · exact Or.inr inside
  all_goals first | exact Or.inl inside | exact List.mem_append.mp inside

theorem own_takeSources {src : ℤ} {new : List Source} (own : ∀ source ∈ base, source.Own s)
    (fresh : ∀ source ∈ new, source.Own s) :
    ∀ source ∈ a.takeSources src new base, source.Own s := by
  intro source inside
  rcases mem_takeSources inside with new_ | old
  · exact fresh source new_
  · exact own source old

theorem own_relay : (Source.relay s).Own s := by
  simp [Source.Own]

theorem own_gainSources {t : Slots TuneAnchor} :
    ∀ source ∈ gainSources t slot s r, source.Own s := by
  intro source inside
  rw [gainSources] at inside
  split at inside
  · split_ifs at inside
    · rw [List.mem_singleton.mp inside]
      trivial
    · cases inside
  · cases inside

theorem waiting_near {p : PendingPlant}
    (waiting : (l.pendingPlant.filter fun p => p.near s) = some p) :
    l.pendingPlant = some p ∧ |p.setpointC - s| < 5 := by
  obtain ⟨there, close⟩ := Option.filter_eq_some_iff.mp waiting
  exact ⟨there, by simpa [PendingPlant.near] using close⟩

theorem own_fileSources (own : ∀ source ∈ base, source.Own s) :
    ∀ source ∈ (fileSources formulas l slot a s r ambient base).1, source.Own s := by
  rw [fileSources]
  split
  · apply own_takeSources own
    exact List.forall_mem_cons.mpr ⟨own_relay, own_gainSources⟩
  · cases waiting : l.pendingPlant.filter fun p => p.near s with
    | some p =>
        have captured : ∀ source ∈ [Source.capture p.setpointC], source.Own s :=
          List.forall_mem_singleton.mpr (waiting_near waiting).2
        dsimp only
        split_ifs
        · exact own_takeSources own (List.forall_mem_cons.mpr ⟨own_relay, captured⟩)
        · exact own_takeSources own captured
    | none =>
        have cold : ∀ source ∈ [Source.rise], source.Own s := by
          intro source inside
          rw [List.mem_singleton.mp inside]
          trivial
        dsimp only
        split_ifs
        all_goals first
          | exact own
          | exact own_takeSources own (List.forall_mem_cons.mpr ⟨own_relay, own⟩)
          | exact own_takeSources own (List.forall_mem_cons.mpr ⟨own_relay, cold⟩)

/-- Filing a plant uses the capture that waits, if it belongs to the set point, and then it
waits no more; otherwise it waits on or is dropped. -/
theorem fileSources_use :
    ((fileSources formulas l slot a s r ambient base).2 = none ∧
      ((filePlant formulas l slot a s r ambient).2 = none ∨
        (filePlant formulas l slot a s r ambient).2 = l.pendingPlant)) ∨
    ∃ p, (fileSources formulas l slot a s r ambient base).2 = some p ∧ l.pendingPlant = some p ∧
      |p.setpointC - s| < 5 ∧ (filePlant formulas l slot a s r ambient).2 = none := by
  rw [fileSources, filePlant]
  dsimp only
  cases gainPlant formulas r (staticGain l.library.slots slot s r ambient) with
  | some found => exact Or.inl ⟨rfl, Or.inl rfl⟩
  | none =>
      cases waiting : l.pendingPlant.filter fun p => p.near s with
      | some p =>
          obtain ⟨there, close⟩ := waiting_near waiting
          right
          dsimp only
          split_ifs <;> exact ⟨p, rfl, there, close, rfl⟩
      | none =>
          left
          dsimp only
          split_ifs
          all_goals first | exact ⟨rfl, Or.inl rfl⟩ | exact ⟨rfl, Or.inr rfl⟩

theorem filePlant_spares (bare : ¬(0 < r.Ku ∧ 0 < r.Pu)) (some_ : 0 < a.K)
    (relayed : a.plantSrc = plantFromRelay) : (filePlant formulas l slot a s r ambient).1 = a := by
  have noGain : gainPlant formulas r (staticGain l.library.slots slot s r ambient) = none := by
    rw [gainPlant, if_neg]
    rintro ⟨first, second, -⟩
    exact bare ⟨first, second⟩
  rw [filePlant]
  dsimp only
  rw [noGain]
  dsimp only
  rw [if_neg fun all => bare ⟨all.1, all.2.1⟩]
  cases l.pendingPlant.filter fun p => p.near s with
  | some p => exact if_pos ⟨some_, rfl, relayed⟩
  | none => rfl

end Sources

/-! ## What a call keeps -/

section Calls

variable {l : Learning} {g : Record}

@[simp]
theorem use_sources (s : ℚ) (p : Option PendingPlant) : (g.use s p).sources = g.sources := by
  cases p <;> rfl

theorem Own.write (own : Own (l, g)) {l' : Learning} {g' : Record} {i : ℕ} {a : TuneAnchor}
    {sources : List Source} (slots : l'.library.slots = l.library.slots.set i (some a))
    (record : g'.sources = Function.update g.sources i sources)
    (fresh : ∀ source ∈ sources, source.Own a.setpointC) : Own (l', g') := by
  intro j b here
  rw [slots] at here
  rw [record]
  rcases Slots.at?_set_eq_some here with ⟨rfl, same⟩ | ⟨apart, before⟩
  · cases same
    rw [Function.update_self]
    exact fresh
  · rw [Function.update_of_ne (Ne.symm apart)]
    exact own j b before

theorem setpointC_eq {a b : TuneAnchor} (same : a.outline = b.outline) :
    a.setpointC = b.setpointC := congrArg Outline.setpointC same

theorem usable_iff {r : AutotuneResult} : ¬(r.PBc ≤ 0 ∨ r.Ti ≤ 0) ↔ Learning.Usable r := by
  rw [not_or, not_le, not_le]
  rfl

theorem own_store {s : ℚ} {r : AutotuneResult} {ambient : Option ℚ} {wind wall : ℚ}
    (own : Own (l, g)) (settled : (Call.store s r ambient wind wall).Settled (l, g)) :
    Own ((Call.store s r ambient wind wall).trace formulas (l, g)) := by
  by_cases useless : r.PBc ≤ 0 ∨ r.Ti ≤ 0
  · simp only [Call.trace, Call.work, Call.mark, Learning.storeAnchor, if_pos useless]
    exact own
  · simp only [Call.trace, Call.work, Call.mark, Learning.storeAnchor, if_neg useless]
    have place : (filePlant formulas l (storeSlot l.library.slots s)
        (TuneAnchor.stored (l.library.slots.at? (storeSlot l.library.slots s)) s r ambient wind
          wall) s r ambient).1.setpointC = s :=
      setpointC_eq (outline_filePlant formulas l _ _ s r ambient)
    refine own.write rfl (use_sources s _) ?_
    rw [place]
    exact own_fileSources formulas (settled (usable_iff.mp useless))

theorem own_restored (s : ℚ) : ∀ source ∈ [Source.restored s], source.Own s := by
  simp [Source.Own]

theorem own_put {a : TuneAnchor} (own : Own (l, g)) :
    Own ((Call.put a).trace formulas (l, g)) := by
  simp only [Call.trace, Call.work, Call.mark, Learning.putAnchor]
  split_ifs
  · exact own
  · cases l.library.slots.first? (near a.setpointC) with
    | some i => exact own.write rfl rfl (own_restored a.setpointC)
    | none =>
        cases l.library.slots.free? with
        | some i => exact own.write rfl rfl (own_restored a.setpointC)
        | none => exact own

theorem own_plant {s K tau theta : ℚ} (own : Own (l, g)) :
    Own ((Call.plant s K tau theta).trace formulas (l, g)) := by
  simp only [Call.trace, Call.work, Call.mark, Learning.storeAnchorPlant]
  split_ifs
  · cases found : l.library.slots.first? (near s) with
    | some i =>
        obtain ⟨a, here, close, -⟩ := Slots.first?_eq_some found
        have place : (a.takePlant K tau theta plantFromCapture).setpointC = a.setpointC :=
          setpointC_eq (outline_takePlant a K tau theta plantFromCapture)
        dsimp only
        rw [here]
        refine own.write rfl rfl ?_
        rw [place]
        refine own_takeSources (own i a here) ?_
        rw [List.forall_mem_singleton, Source.Own, abs_sub_comm]
        exact near_iff.mp close
    | none => exact own
  · exact own

theorem own_of_empty (empty : l.library = Library.empty) : Own (l, g) := by
  intro i a here
  rw [empty] at here
  simp at here

/-- The sources on record are those of the measurements' own set points, as long as each
goes to an entry that was measured near it. -/
theorem own_trace (c : Call) (state : Learning × Record) (own : Own state)
    (settled : c.Settled state) : Own (c.trace formulas state) := by
  obtain ⟨l, g⟩ := state
  cases c with
  | store s r ambient wind wall => exact own_store formulas own settled
  | put a => exact own_put formulas own
  | remove s =>
      simp only [Call.trace, Call.work, Call.mark, Learning.removeAnchor]
      cases l.library.slots.first? (near s) with
      | some i =>
          intro j b here
          rcases Slots.at?_set_eq_some here with ⟨-, same⟩ | ⟨-, before⟩
          · cases same
          · exact own j b before
      | none => exact own
  | clear => exact own_of_empty rfl
  | clearTuning => exact own_of_empty rfl
  | plant s K tau theta => exact own_plant formulas own
  | fopdt K tau theta wall =>
      simp only [Call.trace, Call.work, Call.mark, Learning.storeFopdt]
      split
      · split_ifs <;> exact own
      · exact own
  | autotune r wall => exact own

/-- The uses on record are of captures that waited, each of them once, and the one that
waits is not among them. -/
structure Counted (state : Learning × Record) : Prop where
  once : UsedOnce state.2
  past : ∀ use ∈ state.2.uses, use.number < state.2.waited
  waits : state.1.pendingPlant ≠ none →
    state.2.number < state.2.waited ∧ state.2.number ∉ state.2.uses.map Use.number

theorem Counted.keep {state : Learning × Record} (counted : Counted state)
    {after : Learning × Record} (uses : after.2.uses = state.2.uses)
    (number : after.2.number = state.2.number) (waited : after.2.waited = state.2.waited)
    (pending : after.1.pendingPlant = none ∨ after.1.pendingPlant = state.1.pendingPlant) :
    Counted after := by
  refine ⟨?_, ?_, ?_⟩
  · rw [UsedOnce, uses]
    exact counted.once
  · rw [uses, waited]
    exact counted.past
  · intro waits
    rw [number, waited, uses]
    rcases pending with none_ | same
    · exact absurd none_ waits
    · rw [same] at waits
      exact counted.waits waits

theorem counted_store {s : ℚ} {r : AutotuneResult} {ambient : Option ℚ} {wind wall : ℚ}
    (counted : Counted (l, g)) :
    Counted ((Call.store s r ambient wind wall).trace formulas (l, g)) := by
  by_cases useless : r.PBc ≤ 0 ∨ r.Ti ≤ 0
  · simp only [Call.trace, Call.work, Call.mark, Learning.storeAnchor, if_pos useless]
    exact counted
  · simp only [Call.trace, Call.work, Call.mark, Learning.storeAnchor, if_neg useless]
    have use := @fileSources_use formulas l (storeSlot l.library.slots s)
      (TuneAnchor.stored (l.library.slots.at? (storeSlot l.library.slots s)) s r ambient wind wall)
      s r ambient (g.held l (storeSlot l.library.slots s))
    rcases use with ⟨unused, pending⟩ | ⟨p, used, there, close, gone⟩
    · rw [unused]
      exact counted.keep rfl rfl rfl pending
    · rw [used]
      have some_ : l.pendingPlant ≠ none := by
        rw [there]
        exact Option.some_ne_none p
      obtain ⟨old, unused⟩ := counted.waits some_
      refine ⟨⟨?_, ?_⟩, ?_, ?_⟩
      · exact List.nodup_cons.mpr ⟨unused, counted.once.1⟩
      · exact List.forall_mem_cons.mpr ⟨close, counted.once.2⟩
      · exact List.forall_mem_cons.mpr ⟨old, counted.past⟩
      · intro waits
        exact absurd gone waits

theorem counted_trace (c : Call) (state : Learning × Record) (counted : Counted state) :
    Counted (c.trace formulas state) := by
  obtain ⟨l, g⟩ := state
  cases c with
  | store s r ambient wind wall => exact counted_store formulas counted
  | put a =>
      simp only [Call.trace, Call.work, Call.mark, Learning.putAnchor]
      split_ifs
      · exact counted
      · cases l.library.slots.first? (near a.setpointC) with
        | some i => exact counted.keep rfl rfl rfl (Or.inr rfl)
        | none =>
            cases l.library.slots.free? with
            | some i => exact counted.keep rfl rfl rfl (Or.inr rfl)
            | none => exact counted
  | remove s =>
      simp only [Call.trace, Call.work, Call.mark, Learning.removeAnchor]
      cases l.library.slots.first? (near s) with
      | some i => exact counted.keep rfl rfl rfl (Or.inr rfl)
      | none => exact counted
  | clear => exact counted.keep rfl rfl rfl (Or.inr rfl)
  | clearTuning => exact counted.keep rfl rfl rfl (Or.inr rfl)
  | plant s K tau theta =>
      simp only [Call.trace, Call.work, Call.mark, Learning.storeAnchorPlant]
      split_ifs
      · cases l.library.slots.first? (near s) with
        | some i => exact counted.keep rfl rfl rfl (Or.inr rfl)
        | none =>
            -- a new capture waits, with a number that none had before
            refine ⟨counted.once, ?_, ?_⟩
            · intro use inside
              exact (counted.past use inside).trans (Nat.lt_succ_self _)
            · intro _
              refine ⟨Nat.lt_succ_self _, ?_⟩
              intro inside
              obtain ⟨use, member, same⟩ := List.mem_map.mp inside
              exact absurd (counted.past use member) (same ▸ Nat.lt_irrefl _)
      · exact counted
  | fopdt K tau theta wall =>
      simp only [Call.trace, Call.work, Call.mark, Learning.storeFopdt]
      split
      · split_ifs <;> exact counted.keep rfl rfl rfl (Or.inr rfl)
      · exact counted.keep rfl rfl rfl (Or.inr rfl)
  | autotune r wall => exact counted.keep rfl rfl rfl (Or.inr rfl)

theorem takePlant_spares {a : TuneAnchor} (some_ : 0 < a.K)
    (relayed : a.plantSrc = plantFromRelay) (K tau theta : ℚ) :
    a.takePlant K tau theta plantFromCapture = a :=
  if_pos ⟨some_, rfl, relayed⟩

theorem stored_plant (a : TuneAnchor) (s : ℚ) (r : AutotuneResult) (ambient : Option ℚ)
    (wind wall : ℚ) :
    let b := TuneAnchor.stored (some a) s r ambient wind wall
    b.K = a.K ∧ b.tau = a.tau ∧ b.theta = a.theta ∧ b.plantSrc = a.plantSrc := by
  simp only [TuneAnchor.stored, TuneAnchor.measure, Option.getD_some]
  split_ifs <;> exact ⟨rfl, rfl, rfl, rfl⟩

theorem spares (c : Call) (state : Learning × Record) : c.Spares formulas state := by
  obtain ⟨l, g⟩ := state
  cases c with
  | plant s K tau theta =>
      intro i a here some_ relayed
      simp only [Call.work, Learning.storeAnchorPlant]
      split_ifs
      · cases found : l.library.slots.first? (near s) with
        | some j =>
            obtain ⟨b, there, -⟩ := Slots.first?_eq_some found
            dsimp only
            by_cases same : j = i
            · subst same
              rw [here, Option.map_some, takePlant_spares some_ relayed]
              exact Slots.at?_set_self (Slots.lt_of_at? here)
            · exact (Slots.at?_set_ne same).trans here
        | none => exact here
      · exact here
  | store s r ambient wind wall =>
      intro bare a some_ relayed here
      simp only [Call.work, Learning.storeAnchor]
      split_ifs
      · exact ⟨a, here, rfl⟩
      · have inside := Slots.lt_of_at? here
        refine ⟨_, Slots.at?_set_self inside, ?_⟩
        rw [here]
        obtain ⟨K, tau, theta, src⟩ := stored_plant a s r ambient wind wall
        rw [filePlant_spares formulas bare (K.symm ▸ some_) (src.trans relayed), K, tau, theta]
  | put a => trivial
  | remove s => trivial
  | clear => trivial
  | clearTuning => trivial
  | fopdt K tau theta wall => trivial
  | autotune r wall => trivial

end Calls

/-! ## The run -/

/-- A library that nothing was measured for. -/
def Learning.unmeasured (l : Learning) : Learning :=
  { l with library := Library.empty, pendingPlant := none }

/-- The relay's formulas to a second, for a gain of a thousand thirds and an ultimate gain of
five thousandths at a period of ten minutes. -/
def relayAt : RelayFormulas := ⟨fun _ _ _ => (1000 / 3, 211), fun _ _ _ => some (127, 211)⟩

/-- A measurement with the load that held the set point. -/
def measuredAt (load : ℚ) : AutotuneResult := ⟨1 / 200, 600, 30, 300, 75, 5, load, 0, true⟩

/-- Measurements at 100 and at 150 degrees. -/
def twoHolds : List Request :=
  [.call (.store 100 (measuredAt (1 / 5)) (some 20) 0 1),
    .call (.store 150 (measuredAt (7 / 20)) (some 20) 0 2)]

end PiFire.Tuning
