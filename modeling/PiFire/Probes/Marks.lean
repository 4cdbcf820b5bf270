import PiFire.Probes.Reload
import PiFire.Text.Listed
import Mathlib.Algebra.Order.Ring.Rat

/-!
# The probes in the food

A probe is marked in use when it reads while a cook is on, until the cook says which
probes are in the food. From then on the marks are the cook's, and the flag that says
so stands beside the map they are in. The names travel as one text with commas, from
the app to the probe layer and from one process to the next.
-/

namespace PiFire.Probes

open Transition Text

/-- A label, by its characters. -/
abbrev Label := List Char

/-- `PF_LABEL_LEN`, less the end of the text. -/
def labelRoom : ℕ := 31

/-- What fits into `cmd.str` and into `in_use`, less the end of the text. -/
def namesRoom : ℕ := 255

/-- A probe of the map in the settings. -/
structure Configured where
  label : Label
  enabled : Bool

/-- A probe in `g_snap`. -/
structure Entry where
  label : Label
  enabled : Bool
  inUse : Bool
  targetC : ℚ

/-- The marks of the probe layer: `g_snap`, `g_cooking`, `g_in_use_explicit`. -/
structure Snap where
  entries : List Entry
  cooking : Bool
  inUseExplicit : Bool

namespace Snap

/-- Before the first load. -/
def start : Snap := ⟨[], false, false⟩

/-- `pf_probes_set_cooking`. -/
def setCooking (cooking : Bool) (s : Snap) : Snap :=
  if !cooking && s.cooking then
    { entries := s.entries.map ({ · with inUse := false })
      cooking := cooking
      inUseExplicit := false }
  else { s with cooking := cooking }

/-- `pf_probes_set_in_use`. -/
def setInUse (labels : List Char) (s : Snap) : Snap :=
  { s with
    inUseExplicit := true
    entries := s.entries.map fun r =>
      { r with inUse := decide (r.label ∈ pieces ',' labels) && r.enabled } }

/-- The labels of the probes marked in use. -/
def marked (s : Snap) : List Label :=
  (s.entries.filter Entry.inUse).map Entry.label

/-- `pf_probes_in_use_csv`. -/
def inUseCsv (s : Snap) : List Char :=
  if s.inUseExplicit then listed ',' namesRoom s.marked else []

/-- The probes as `pf_probes_init` builds them. -/
def build (map : Option (List Configured)) : List Entry :=
  ((map.getD []).take maxProbes).map fun p =>
    { label := p.label.take labelRoom
      enabled := p.enabled
      inUse := false
      targetC := 0 }

/-- `pf_probes_init`: `teardown` clears the map, not the flags beside it. -/
def init (map : Option (List Configured)) (s : Snap) : Snap :=
  { s with entries := build map }

/-- What a poll does to the mark of a probe that gave a number. -/
def markRead (s : Snap) (r : Entry) : Entry :=
  let r := if s.cooking && r.enabled && !s.inUseExplicit then { r with inUse := true } else r
  if r.enabled && decide (r.targetC > 0) then { r with inUse := true } else r

/-- The end of `pf_probes_poll`, where these probes gave a number. -/
def poll (reads : List ℕ) (s : Snap) : Snap :=
  { s with
    entries := s.entries.mapIdx fun i r => if r.enabled ∧ i ∈ reads then s.markRead r else r }

/-- The command "probes in use" with a list of labels. -/
def name (labels : List Label) (s : Snap) : Snap :=
  s.setInUse (listed ',' namesRoom labels)

/-- A warm restart. The next process loads the map, polls a few times, enters the mode
of the snapshot and marks the probes that are named there. -/
def restart (map : Option (List Configured)) (early : List (List ℕ)) (cooks : Bool)
    (s : Snap) : Snap :=
  let resumed := (run poll early (start.init map)).setCooking cooks
  if s.inUseCsv = [] then resumed else resumed.setInUse s.inUseCsv

inductive Event
  | poll (reads : List ℕ)
  /-- The settings of the map changed. -/
  | reload (map : Option (List Configured))
  | restart (map : Option (List Configured)) (early : List (List ℕ)) (cooks : Bool)
  /-- The grill enters a mode. -/
  | mode (cooking : Bool)
  | name (labels : List Label)

def happen (event : Event) (s : Snap) : Snap :=
  match event with
  | .poll reads => s.poll reads
  | .reload map => s.init map
  | .restart map early cooks => s.restart map early cooks
  | .mode cooking => s.setCooking cooking
  | .name labels => s.name labels

/-- Exactly the named probes that are configured and enabled are marked. -/
def Marked (names : List Label) (s : Snap) : Prop :=
  ∀ r ∈ s.entries, r.inUse = true ↔ r.label ∈ names ∧ r.enabled = true

/-- The cook goes on and does not name the probes again, and a load keeps the labels
of the named probes. -/
def GoesOn (names : List Label) : Event → Snap → Prop
  | .poll _, _ | .restart _ _ _, _ => True
  | .reload map, s => ∀ r ∈ s.entries, r.label ∈ names → r.label ∈ (build map).map Entry.label
  | .mode cooking, s => cooking = true ∨ s.cooking = false
  | .name _, _ => False

/-- A load finds none of the named probes enabled; at a restart some probe is marked,
the marked labels fit the snapshot's buffer, and no named probe is enabled that was
not marked. -/
def Spared (names : List Label) : Event → Snap → Prop
  | .poll _, _ | .mode _, _ | .name _, _ => True
  | .reload map, _ => ∀ r ∈ build map, r.label ∈ names → r.enabled = false
  | .restart map _ _, s =>
    s.marked ≠ [] ∧ (joined ',' s.marked).length ≤ namesRoom ∧
      ∀ r ∈ build map, r.label ∈ names → r.enabled = true → r.label ∈ s.marked

instance (names : List Label) (s : Snap) : Decidable (Marked names s) :=
  inferInstanceAs (Decidable (∀ r ∈ s.entries, _))

instance (names : List Label) : ∀ event s, Decidable (GoesOn names event s)
  | .poll _, _ | .restart _ _ _, _ => isTrue trivial
  | .reload map, s => inferInstanceAs
      (Decidable (∀ r ∈ s.entries, r.label ∈ names → r.label ∈ (build map).map Entry.label))
  | .mode cooking, s => inferInstanceAs (Decidable (cooking = true ∨ s.cooking = false))
  | .name _, _ => isFalse not_false

instance (names : List Label) : ∀ event s, Decidable (Spared names event s)
  | .poll _, _ | .mode _, _ | .name _, _ => isTrue trivial
  | .reload map, _ =>
      inferInstanceAs (Decidable (∀ r ∈ build map, r.label ∈ names → r.enabled = false))
  | .restart map _ _, s => inferInstanceAs
      (Decidable (s.marked ≠ [] ∧ (joined ',' s.marked).length ≤ namesRoom ∧
        ∀ r ∈ build map, r.label ∈ names → r.enabled = true → r.label ∈ s.marked))

section Events

variable {names : List Label} {map : Option (List Configured)} {s : Snap}

@[simp]
theorem mem_build {r : Entry} :
    r ∈ build map ↔ ∃ p ∈ (map.getD []).take maxProbes,
      ⟨p.label.take labelRoom, p.enabled, false, 0⟩ = r := by
  simp only [build, List.mem_map]

/-- No probe of the layer is given a target: the targets are filled into a copy. -/
def NoTargets (s : Snap) : Prop := ∀ r ∈ s.entries, r.targetC = 0

theorem noTargets_build (fresh : s.entries = build map) : s.NoTargets := by
  intro r inside
  rw [fresh, mem_build] at inside
  obtain ⟨p, -, rfl⟩ := inside
  rfl

theorem noTargets_map {change : Entry → Entry} {after : Snap} (without : s.NoTargets)
    (changed : after.entries = s.entries.map change)
    (same : ∀ r, (change r).targetC = r.targetC) : after.NoTargets := by
  intro r inside
  rw [changed, List.mem_map] at inside
  obtain ⟨was, wasInside, rfl⟩ := inside
  rw [same, without was wasInside]

theorem setCooking_entries (cooking : Bool) :
    (s.setCooking cooking).entries =
      s.entries.map fun r => { r with inUse := r.inUse && (cooking || !s.cooking) } := by
  unfold setCooking
  cases cooking <;> cases s.cooking <;> simp

theorem noTargets_setCooking (without : s.NoTargets) (cooking : Bool) :
    (s.setCooking cooking).NoTargets :=
  noTargets_map without (setCooking_entries cooking) fun _ => rfl

theorem setInUse_entries (labels : List Char) :
    (s.setInUse labels).entries = s.entries.map fun r =>
      { r with inUse := decide (r.label ∈ pieces ',' labels) && r.enabled } := rfl

theorem noTargets_setInUse (without : s.NoTargets) (labels : List Char) :
    (s.setInUse labels).NoTargets :=
  noTargets_map without (setInUse_entries labels) fun _ => rfl

theorem markRead_targetC (r : Entry) : (s.markRead r).targetC = r.targetC := by
  simp only [markRead]
  split_ifs <;> rfl

theorem noTargets_poll (without : s.NoTargets) (reads : List ℕ) : (s.poll reads).NoTargets := by
  intro r inside
  simp only [poll, List.mem_mapIdx] at inside
  obtain ⟨i, bound, rfl⟩ := inside
  have was := without _ (s.entries.getElem_mem bound)
  split_ifs
  · rw [markRead_targetC, was]
  · exact was

theorem markRead_eq_self {r : Entry} (named : s.cooking = false ∨ s.inUseExplicit = true)
    (without : r.targetC = 0) : s.markRead r = r := by
  rcases named with idle | given
  · simp [markRead, idle, without]
  · simp [markRead, given, without]

theorem poll_eq_self (named : s.cooking = false ∨ s.inUseExplicit = true) (without : s.NoTargets)
    (reads : List ℕ) : s.poll reads = s := by
  have each : s.entries.mapIdx (fun i r => if r.enabled ∧ i ∈ reads then s.markRead r else r) =
      s.entries := by
    apply List.ext_getElem
    · simp
    · intro i before after
      rw [List.getElem_mapIdx, markRead_eq_self named (without _ (List.getElem_mem _)), ite_self]
  rw [poll, each]

theorem early_eq (map : Option (List Configured)) (early : List (List ℕ)) :
    run poll early (start.init map) = start.init map := by
  induction early with
  | nil => rfl
  | cons reads early ih =>
      rw [run_cons, poll_eq_self (Or.inl rfl) (noTargets_build rfl), ih]

theorem restart_eq (map : Option (List Configured)) (early : List (List ℕ)) (cooks : Bool) :
    s.restart map early cooks =
      if s.inUseCsv = [] then ⟨build map, cooks, false⟩
      else setInUse s.inUseCsv ⟨build map, cooks, false⟩ := by
  have resumed : (run poll early (start.init map)).setCooking cooks =
      ⟨build map, cooks, false⟩ := by
    rw [early_eq]
    cases cooks <;> rfl
  rw [restart, resumed]

theorem noTargets_happen (without : s.NoTargets) (event : Event) : (s.happen event).NoTargets := by
  cases event with
  | poll reads => exact noTargets_poll without reads
  | reload map => exact noTargets_build rfl
  | restart map early cooks =>
      change (s.restart map early cooks).NoTargets
      rw [restart_eq]
      split_ifs
      · exact noTargets_build rfl
      · exact noTargets_setInUse (noTargets_build rfl) _
  | mode cooking => exact noTargets_setCooking without cooking
  | name labels => exact noTargets_setInUse without _

end Events

section Runs

variable {names : List Label} {s : Snap}

/-- The names can be carried: none is empty or has a comma, and together they fit. -/
def Carried (names : List Label) : Prop :=
  (∀ name ∈ names, name ≠ [] ∧ ',' ∉ name) ∧ (joined ',' names).length ≤ namesRoom

instance (names : List Label) : Decidable (Carried names) :=
  inferInstanceAs (Decidable (_ ∧ _))

/-- The cook has named its probes, and these are marked. -/
structure Kept (names : List Label) (s : Snap) : Prop where
  given : s.inUseExplicit = true
  noTargets : s.NoTargets
  marked : Marked names s

theorem marked_mem {label : Label} (kept : Kept names s) (inside : label ∈ s.marked) :
    label ∈ names := by
  simp only [marked, List.mem_map, List.mem_filter] at inside
  obtain ⟨r, ⟨inMap, inUse⟩, rfl⟩ := inside
  exact ((kept.marked r inMap).mp inUse).1

theorem marked_setInUse {labels : List Char}
    (read : ∀ r ∈ s.entries, r.enabled = true →
      (r.label ∈ pieces ',' labels ↔ r.label ∈ names)) : Marked names (s.setInUse labels) := by
  intro r inside
  rw [setInUse_entries, List.mem_map] at inside
  obtain ⟨was, wasInside, rfl⟩ := inside
  simp only [Bool.and_eq_true, decide_eq_true_eq]
  constructor
  · rintro ⟨named, enabled⟩
    exact ⟨(read was wasInside enabled).mp named, enabled⟩
  · rintro ⟨named, enabled⟩
    exact ⟨(read was wasInside enabled).mpr named, enabled⟩

theorem kept_name (carried : Carried names) (without : s.NoTargets) :
    Kept names (s.name names) where
  given := rfl
  noTargets := noTargets_setInUse without _
  marked := by
    apply marked_setInUse
    intro r inside enabled
    rw [pieces_listed (fun name inside => (carried.1 name inside).1)
      (fun name inside => (carried.1 name inside).2) carried.2]

theorem kept_init {map : Option (List Configured)} (kept : Kept names s)
    (spared : Spared names (.reload map) s) : Kept names (s.init map) where
  given := kept.given
  noTargets := noTargets_build rfl
  marked := by
    intro r inside
    have unmarked : r.inUse = false := by
      obtain ⟨p, -, rfl⟩ := mem_build.mp inside
      rfl
    rw [unmarked]
    constructor
    · rintro ⟨⟩
    · rintro ⟨named, enabled⟩
      rw [spared r inside named] at enabled
      cases enabled

theorem pieces_inUseCsv (carried : Carried names) (kept : Kept names s)
    (fits : (joined ',' s.marked).length ≤ namesRoom) : pieces ',' s.inUseCsv = s.marked := by
  rw [inUseCsv, if_pos kept.given]
  apply pieces_listed ?_ ?_ fits
  · exact fun label inside => (carried.1 label (marked_mem kept inside)).1
  · exact fun label inside => (carried.1 label (marked_mem kept inside)).2

theorem kept_restart {map : Option (List Configured)} {early : List (List ℕ)} {cooks : Bool}
    (carried : Carried names) (kept : Kept names s)
    (spared : Spared names (.restart map early cooks) s) :
    Kept names (s.restart map early cooks) := by
  obtain ⟨any, fits, marks⟩ := spared
  have read := pieces_inUseCsv carried kept fits
  have saved : s.inUseCsv ≠ [] := by
    intro empty
    rw [empty] at read
    exact any read.symm
  rw [restart_eq, if_neg saved]
  refine ⟨rfl, noTargets_setInUse (noTargets_build rfl) _, marked_setInUse ?_⟩
  intro r inside enabled
  rw [read]
  constructor
  · exact marked_mem kept
  · exact fun named => marks r inside named enabled

theorem kept_setCooking {cooking : Bool} (kept : Kept names s)
    (goes : GoesOn names (.mode cooking) s) : Kept names (s.setCooking cooking) := by
  have plain : s.setCooking cooking = { s with cooking := cooking } := by
    rcases goes with on | idle
    · simp [setCooking, on]
    · simp [setCooking, idle]
  rw [plain]
  exact ⟨kept.given, kept.noTargets, kept.marked⟩

theorem kept_happen {event : Event} (carried : Carried names) (kept : Kept names s)
    (goes : GoesOn names event s) (spared : Spared names event s) :
    Kept names (s.happen event) := by
  cases event with
  | poll reads =>
      change Kept names (s.poll reads)
      rw [poll_eq_self (Or.inr kept.given) kept.noTargets]
      exact kept
  | reload map => exact kept_init kept spared
  | restart map early cooks => exact kept_restart carried kept spared
  | mode cooking => exact kept_setCooking kept goes
  | name labels => exact goes.elim

end Runs

end Snap

open Snap

/-- Once the cook has named its probes, exactly those that are configured and enabled
are marked until it ends or names them again, where the names can be carried, no load
finds one of them enabled, and the marks fit into the snapshot at every restart. -/
theorem named_stay_marked (before : List Event) (names : List Label) (carried : Carried names)
    (events : List Event)
    (goes : Along happen (GoesOn names) events (name names (run happen before start)))
    (spared : Along happen (Spared names) events (name names (run happen before start))) :
    Throughout happen (Marked names) (.name names :: events) (run happen before start) := by
  have noTargets : NoTargets (run happen before start) :=
    run_invariant NoTargets (fun event s without => noTargets_happen without event)
      fun r inside => absurd inside List.not_mem_nil
  have kept : Kept names (name names (run happen before start)) := kept_name carried noTargets
  refine ⟨kept.marked, ?_⟩
  refine Along.strengthen (Kept names) ?_ ?_ kept (goes.and spared)
  · exact fun event s kept ok => kept_happen carried kept ok.1 ok.2
  · exact fun event s kept ok => (kept_happen carried kept ok.1 ok.2).marked

/-- A grill with a pit probe and two food probes, lit. -/
def benchMap : Option (List Configured) :=
  some [⟨['P'], true⟩, ⟨['A'], true⟩, ⟨['B'], true⟩]

theorem named_stay_marked_on_bench :
    Throughout happen (Marked [['A']])
      [.name [['A']], .poll [0, 1, 2], .restart benchMap [[0, 1, 2]] true, .poll [2]]
      (run happen [.reload benchMap, .mode true, .poll [0, 1]] start) :=
  named_stay_marked [.reload benchMap, .mode true, .poll [0, 1]] [['A']] (by decide)
    [.poll [0, 1, 2], .restart benchMap [[0, 1, 2]] true, .poll [2]] (by decide) (by decide)

/-- The same map loaded again in mid-cook takes the marks away. -/
theorem marks_lost_by_reload :
    ¬∀ (before : List Event) (names : List Label) (events : List Event),
      Along happen (GoesOn names) events (name names (run happen before start)) →
        Throughout happen (Marked names) (.name names :: events) (run happen before start) := by
  intro always
  have marked := always [.reload benchMap, .mode true] [['A']] [.reload benchMap] (by decide)
  exact absurd marked (by decide)

end PiFire.Probes
