import PiFire.History.Chart
import Mathlib.Algebra.Order.Archimedean.Basic

/-!
# The samples of a cook's log

The exported samples are columns: those of the history come from a join with the controller's
terms, those of the probes from another query, and the two have only the order of their times in
common. The place of a probe's row is counted from the times of the probes' rows.
-/

namespace PiFire.History

open Ranking

/-- A row of `history`, as the log reads it. -/
structure LogRow where
  ts : ℚ
  mode : Option ℤ
  setpoint : Option ℚ
  uRaw : Option ℚ
  uApplied : Option ℚ
  fanPct : Option ℤ
  outputs : Option ℤ
  deriving DecidableEq

/-- A row of `history_ctrl`. -/
structure CtrlRow where
  ts : ℚ
  uFf : Option ℚ
  p : Option ℚ
  i : Option ℚ
  d : Option ℚ
  ff : Option ℚ
  ambient : Option ℚ
  flags : Option ℤ
  pmode : Option ℤ
  cycleS : Option ℚ
  deriving DecidableEq

structure LogTables where
  history : List LogRow
  ctrl : List CtrlRow
  probes : List ProbeRow

/-- A row of the join. -/
structure JoinedRow where
  history : LogRow
  ctrl : Option CtrlRow
  deriving DecidableEq

/-! ## The two queries -/

/-- What a query with `ORDER BY` may return: its rows, by ascending key. -/
structure Answer {ρ : Type} (key : ρ → ℚ) (chosen : List ρ) where
  rows : List ρ
  perm : rows.Perm chosen
  ordered : rows.Pairwise (key · ≤ key ·)

namespace LogTables

variable (from_ to_ : ℚ) (d : LogTables)

def historyIn : List LogRow := d.history.filter fun row => from_ ≤ row.ts ∧ row.ts ≤ to_

/-- The rows of the controller for a row of the history. -/
def ctrlFor (row : LogRow) : List CtrlRow := d.ctrl.filter (·.ts = row.ts)

/-- A row of the history with each of the controller's for it, or with none. -/
def join (row : LogRow) : List JoinedRow :=
  if d.ctrlFor row = [] then [⟨row, none⟩] else (d.ctrlFor row).map fun c => ⟨row, some c⟩

/-- `history h LEFT JOIN history_ctrl c ON c.ts=h.ts` -/
def joined : List JoinedRow := (d.historyIn from_ to_).flatMap d.join

def probesIn : List ProbeRow := d.probes.filter fun row => from_ ≤ row.ts ∧ row.ts ≤ to_

end LogTables

/-- The time of a joined row. -/
def JoinedRow.ts (row : JoinedRow) : ℚ := row.history.ts

/-! ## The samples -/

/-- `round`: halves away from zero. -/
def roundAway (x : ℚ) : ℤ := if 0 ≤ x then ⌊x + 1 / 2⌋ else ⌈x - 1 / 2⌉

def roundTo (unit : ℚ) (x : ℚ) : ℚ := roundAway (x * unit) / unit

/-- A column of numbers, to three places. -/
def real (v : Option ℚ) : Option ℚ := v.map (roundTo 1000)

/-- A column of whole numbers. -/
def whole (v : Option ℤ) : Option ℚ := v.map fun n => (n : ℚ)

/-- `cols` -/
def cols : List (String × (JoinedRow → Option ℚ)) :=
  [("t", fun row => real (some row.history.ts)),
    ("mode", fun row => whole row.history.mode),
    ("setpoint", fun row => real row.history.setpoint),
    ("u_raw", fun row => real row.history.uRaw),
    ("u_applied", fun row => real row.history.uApplied),
    ("u_ff", fun row => real (row.ctrl.bind CtrlRow.uFf)),
    ("p", fun row => real (row.ctrl.bind CtrlRow.p)),
    ("i", fun row => real (row.ctrl.bind CtrlRow.i)),
    ("d", fun row => real (row.ctrl.bind CtrlRow.d)),
    ("ff", fun row => real (row.ctrl.bind CtrlRow.ff)),
    ("fan_pct", fun row => whole row.history.fanPct),
    ("outputs", fun row => whole row.history.outputs),
    ("ambient", fun row => real (row.ctrl.bind CtrlRow.ambient)),
    ("flags", fun row => whole (row.ctrl.bind CtrlRow.flags)),
    ("pmode", fun row => whole (row.ctrl.bind CtrlRow.pmode)),
    ("cycle_s", fun row => real (row.ctrl.bind CtrlRow.cycleS))]

/-- A probe's places: the row whose numbers stand there, or a blank. -/
abbrev Places := List (Option ProbeRow)

/-- The array of temperatures; a blank is null, as is a temperature that is. -/
def temps (places : Places) : List (Option ℚ) :=
  places.map fun e => e.bind fun row => row.temp.map (roundTo 10)

/-- The array of targets. -/
def targets (places : Places) : List (Option ℚ) :=
  places.map fun e => e.map fun row => columnDouble row.target

structure LogSamples where
  columns : List (String × List (Option ℚ))
  probes : List (String × Places)
  count : ℕ

/-- What the loop over the probes' rows keeps. -/
structure Lines where
  lastTs : ℚ
  idx : ℤ
  probes : List (String × Places)

namespace Lines

def start : Lines := ⟨-1, -1, []⟩

/-- Another time is another place. -/
def count (row : ProbeRow) (m : Lines) : Lines :=
  if row.ts ≠ m.lastTs then { m with lastTs := row.ts, idx := m.idx + 1 } else m

/-- To the places of the first probe of that name, whatever its case, or of a new one. -/
def addTo (label : String) (f : Places → Places) : List (String × Places) → List (String × Places)
  | [] => [(label, f [])]
  | (name, places) :: rest =>
      if strcasecmp name label then (name, f places) :: rest
      else (name, places) :: addTo label f rest

def step (m : Lines) (row : ProbeRow) : Lines :=
  let m := m.count row
  { m with probes := addTo row.label (fun places => put (fun _ => m.idx) places row) m.probes }

end Lines

/-- `samples_json` -/
def samplesJson (joined : List JoinedRow) (lines : List ProbeRow) : LogSamples :=
  { columns := cols.map fun (name, cell) => (name, joined.map cell)
    probes := (lines.foldl Lines.step Lines.start).probes
    count := joined.length }

/-! ## The place of a row -/

/-- One where the earliest row is of the time the loop starts from, and is not counted. -/
def lateStart (rows : List ProbeRow) : ℤ :=
  if (∃ q ∈ rows, q.ts = -1) ∧ ∀ q ∈ rows, -1 ≤ q.ts then 1 else 0

/-- The place a row is put at. -/
def placeOf (rows : List ProbeRow) (row : ProbeRow) : ℤ :=
  rank ProbeRow.ts rows row.ts - lateStart rows

theorem lateStart_nonneg (rows : List ProbeRow) : 0 ≤ lateStart rows := by
  rw [lateStart]
  split_ifs <;> decide

theorem lateStart_perm {rows rows' : List ProbeRow} (same : rows.Perm rows') :
    lateStart rows = lateStart rows' := by
  simp only [lateStart, same.mem_iff]

variable {rows past rest : List ProbeRow} {r : ProbeRow} {m : Lines}

/-- The loop's count, after some of the rows. -/
def Counts (rows past : List ProbeRow) (m : Lines) : Prop :=
  match past.getLast? with
  | none => m.lastTs = -1 ∧ m.idx = -1
  | some q => m.lastTs = q.ts ∧ m.idx = placeOf rows q

theorem counts_start : Counts rows [] Lines.start := ⟨rfl, rfl⟩

theorem Counts.next (counts : Counts rows past m) (split : past ++ r :: rest = rows)
    (ordered : rows.Pairwise (·.ts ≤ ·.ts)) :
    (m.count r).lastTs = r.ts ∧ (m.count r).idx = placeOf rows r := by
  have later : ∀ s ∈ rest, r.ts ≤ s.ts := by
    rw [← split] at ordered
    exact (List.pairwise_cons.mp (List.pairwise_append.mp ordered).2.1).1
  rcases List.eq_nil_or_concat past with rfl | ⟨before, q, rfl⟩
  · -- the first row has the least time
    obtain ⟨lastTs, idx⟩ : m.lastTs = -1 ∧ m.idx = -1 := counts
    have inside : r ∈ rows := by
      rw [← split]
      exact List.mem_cons_self
    have least : ∀ s ∈ rows, r.ts ≤ s.ts := by
      rw [← split]
      intro s member
      rcases List.mem_cons.mp member with rfl | member
      · exact le_rfl
      · exact later s member
    rw [Lines.count, placeOf, rank_first least, lastTs, idx]
    split_ifs with other
    · have counted : lateStart rows = 0 := by
        rw [lateStart, if_neg]
        rintro ⟨⟨s, member, same⟩, above⟩
        exact other (le_antisymm (same ▸ least s member) (above r inside))
      exact ⟨rfl, by rw [counted]; rfl⟩
    · have same : r.ts = -1 := not_not.mp other
      have uncounted : lateStart rows = 1 := by
        rw [lateStart, if_pos ⟨⟨r, inside, same⟩, fun s member => same ▸ least s member⟩]
      exact ⟨by rw [lastTs, same], by rw [idx, uncounted]; rfl⟩
  · have last : (before.concat q).getLast? = some q := by simp
    rw [Counts, last] at counts
    obtain ⟨lastTs, idx⟩ := counts
    rw [List.concat_eq_append, List.append_assoc, List.singleton_append] at split
    have inside : q ∈ rows := by
      rw [← split]
      exact List.mem_append_right _ List.mem_cons_self
    have earlier : ∀ s ∈ before, s.ts ≤ q.ts := by
      rw [← split] at ordered
      exact fun s member => (List.pairwise_append.mp ordered).2.2 s member q List.mem_cons_self
    have le : q.ts ≤ r.ts := by
      rw [← split] at ordered
      exact (List.pairwise_cons.mp (List.pairwise_append.mp ordered).2.1).1 r List.mem_cons_self
    rw [Lines.count, lastTs]
    split_ifs with other
    · have between : ∀ s ∈ rows, s.ts < r.ts → s.ts ≤ q.ts := by
        rw [← split]
        intro s member less
        rcases List.mem_append.mp member with member | member
        · exact earlier s member
        · rcases List.mem_cons.mp member with rfl | member
          · exact le_rfl
          · rcases List.mem_cons.mp member with rfl | member
            · exact absurd less (lt_irrefl _)
            · exact absurd less (not_lt.mpr (later s member))
      refine ⟨rfl, ?_⟩
      rw [placeOf, rank_next inside (le.lt_of_ne (Ne.symm other)) between, idx, placeOf]
      push_cast
      ring
    · have same : r.ts = q.ts := not_not.mp other
      exact ⟨by rw [lastTs, same], by rw [idx, placeOf, placeOf, same]⟩

/-! ## The probes by name -/

section Names

variable {label : String} {f : Places → Places} {probes : List (String × Places)}

/-- A name in lower case. -/
def folded (name : String) : List Char := name.toList.map Char.toLower

theorem strcasecmp_iff {s t : String} : strcasecmp s t = true ↔ folded s = folded t := by
  rw [strcasecmp, beq_iff_eq, folded, folded]

/-- No two names are the same but for their case. -/
def Apart (probes : List (String × Places)) : Prop := (probes.map fun p => folded p.1).Nodup

theorem Apart.eq (apart : Apart probes) {p q : String × Places} (inP : p ∈ probes)
    (inQ : q ∈ probes) (same : folded p.1 = folded q.1) : p = q :=
  List.inj_on_of_nodup_map apart inP inQ same

theorem mem_addTo (apart : Apart probes) {p : String × Places}
    (inside : p ∈ Lines.addTo label f probes) :
    (p ∈ probes ∧ folded p.1 ≠ folded label) ∨
      (∃ places, (p.1, places) ∈ probes ∧ folded p.1 = folded label ∧ p.2 = f places) ∨
      ((∀ q ∈ probes, folded q.1 ≠ folded label) ∧ p = (label, f [])) := by
  induction probes with
  | nil => exact Or.inr (Or.inr ⟨List.forall_mem_nil _, List.mem_singleton.mp inside⟩)
  | cons q probes ih =>
      obtain ⟨name, places⟩ := q
      obtain ⟨others, apart⟩ := List.nodup_cons.mp apart
      rw [Lines.addTo] at inside
      simp only [strcasecmp_iff] at inside
      split_ifs at inside with same
      · rcases List.mem_cons.mp inside with rfl | inside
        · exact Or.inr (Or.inl ⟨places, List.mem_cons_self, same, rfl⟩)
        · refine Or.inl ⟨List.mem_cons_of_mem _ inside, fun equal => others ?_⟩
          exact List.mem_map.mpr ⟨p, inside, equal.trans same.symm⟩
      · rcases List.mem_cons.mp inside with rfl | inside
        · exact Or.inl ⟨List.mem_cons_self, same⟩
        · rcases ih apart inside with ⟨kept, other⟩ | ⟨old, member, equal, added⟩ |
            ⟨none_, new⟩
          · exact Or.inl ⟨List.mem_cons_of_mem _ kept, other⟩
          · exact Or.inr (Or.inl ⟨old, List.mem_cons_of_mem _ member, equal, added⟩)
          · exact Or.inr (Or.inr ⟨List.forall_mem_cons.mpr ⟨same, none_⟩, new⟩)

theorem names_addTo (label : String) (f : Places → Places) (probes : List (String × Places)) :
    ((∃ q ∈ probes, folded q.1 = folded label) ∧
      (Lines.addTo label f probes).map Prod.fst = probes.map Prod.fst) ∨
    ((∀ q ∈ probes, folded q.1 ≠ folded label) ∧
      (Lines.addTo label f probes).map Prod.fst = probes.map Prod.fst ++ [label]) := by
  induction probes with
  | nil => exact Or.inr ⟨List.forall_mem_nil _, rfl⟩
  | cons q probes ih =>
      obtain ⟨name, places⟩ := q
      rw [Lines.addTo]
      simp only [strcasecmp_iff]
      split_ifs with same
      · exact Or.inl ⟨⟨_, List.mem_cons_self, same⟩, rfl⟩
      · rcases ih with ⟨⟨q, inside, equal⟩, names⟩ | ⟨none_, names⟩
        · exact Or.inl ⟨⟨q, List.mem_cons_of_mem _ inside, equal⟩, congrArg (name :: ·) names⟩
        · exact Or.inr ⟨List.forall_mem_cons.mpr ⟨same, none_⟩, congrArg (name :: ·) names⟩

theorem apart_addTo (apart : Apart probes) : Apart (Lines.addTo label f probes) := by
  have split (probes : List (String × Places)) :
      (probes.map fun p => folded p.1) = (probes.map Prod.fst).map folded := by
    rw [List.map_map]
    rfl
  rcases names_addTo label f probes with ⟨-, names⟩ | ⟨none_, names⟩
  · rwa [Apart, split, names, ← split]
  · rw [Apart, split, names, List.map_append, ← split, List.nodup_append]
    refine ⟨apart, List.nodup_singleton _, ?_⟩
    intro name among other here
    obtain ⟨p, inside, rfl⟩ := List.mem_map.mp among
    rw [List.mem_singleton.mp here]
    exact none_ p inside

theorem named_addTo : (∃ p ∈ Lines.addTo label f probes, folded p.1 = folded label) ∧
    ∀ q ∈ probes, ∃ p ∈ Lines.addTo label f probes, p.1 = q.1 := by
  have old : ∀ q ∈ probes, q.1 ∈ (Lines.addTo label f probes).map Prod.fst := by
    intro q inside
    have among := List.mem_map_of_mem (f := Prod.fst) inside
    rcases names_addTo label f probes with ⟨-, names⟩ | ⟨-, names⟩
    · rwa [names]
    · rw [names]
      exact List.mem_append_left _ among
  refine ⟨?_, fun q inside => List.mem_map.mp (old q inside)⟩
  rcases names_addTo label f probes with
    ⟨⟨q, inside, same⟩, -⟩ | ⟨-, names⟩
  · obtain ⟨p, here, name⟩ := List.mem_map.mp (old q inside)
    exact ⟨p, here, by rw [name, same]⟩
  · have new : label ∈ (Lines.addTo label f probes).map Prod.fst := by
      rw [names]
      exact List.mem_append_right _ List.mem_cons_self
    obtain ⟨p, here, name⟩ := List.mem_map.mp new
    exact ⟨p, here, by rw [name]⟩

end Names

/-- The rows whose label is a name but for its case. -/
def rowsNamed (name : String) (rows : List ProbeRow) : List ProbeRow :=
  rows.filter fun row => folded name = folded row.label

/-- What the loop has made of the rows so far. -/
structure Placed (rows past : List ProbeRow) (probes : List (String × Places)) : Prop where
  apart : Apart probes
  places : ∀ p ∈ probes, p.2 = filled (placeOf rows) (rowsNamed p.1 past)
  label : ∀ p ∈ probes, ∃ q ∈ past, q.label = p.1
  named : ∀ r ∈ past, ∃ p ∈ probes, folded p.1 = folded r.label

theorem placed_start : Placed rows [] Lines.start.probes :=
  ⟨List.nodup_nil, nofun, nofun, nofun⟩

theorem rowsNamed_append (name : String) :
    rowsNamed name (past ++ [r]) =
      if folded name = folded r.label then rowsNamed name past ++ [r] else rowsNamed name past := by
  rw [rowsNamed, List.filter_append]
  split_ifs with same
  · rw [List.filter_cons_of_pos (by simpa using same)]
    rfl
  · rw [List.filter_cons_of_neg (by simpa using same), List.filter_nil, List.append_nil]
    rfl

theorem Placed.next {probes : List (String × Places)} (placed : Placed rows past probes) :
    Placed rows (past ++ [r])
      (Lines.addTo r.label (fun places => put (fun _ => placeOf rows r) places r) probes) := by
  have put_ (places : Places) :
      put (fun _ => placeOf rows r) places r = put (placeOf rows) places r := rfl
  have last : r ∈ past ++ [r] := List.mem_append_right _ List.mem_cons_self
  refine ⟨apart_addTo placed.apart, ?_, ?_, ?_⟩
  · intro p inside
    rcases mem_addTo placed.apart inside with ⟨kept, other⟩ | ⟨places, old, same, added⟩ |
      ⟨none_, rfl⟩
    · rw [rowsNamed_append, if_neg other]
      exact placed.places p kept
    · have was : places = filled (placeOf rows) (rowsNamed p.1 past) := placed.places _ old
      rw [rowsNamed_append, if_pos same, filled_append, added, put_, was]
    · have empty : rowsNamed r.label past = [] := by
        rw [rowsNamed, List.filter_eq_nil_iff]
        intro q member
        obtain ⟨p, inside, same⟩ := placed.named q member
        simpa using fun equal => none_ p inside (same.trans equal.symm)
      rw [rowsNamed_append, if_pos rfl, filled_append, put_, empty]
      rfl
  · intro p inside
    have before {name : String} (old : ∃ q ∈ past, q.label = name) :
        ∃ q ∈ past ++ [r], q.label = name :=
      old.imp fun q both => ⟨List.mem_append_left _ both.1, both.2⟩
    rcases mem_addTo placed.apart inside with ⟨kept, -⟩ | ⟨places, old, -, -⟩ | ⟨-, rfl⟩
    · exact before (placed.label p kept)
    · exact before (placed.label (p.1, places) old)
    · exact ⟨r, last, rfl⟩
  · intro q inside
    rcases List.mem_append.mp inside with inside | inside
    · obtain ⟨p, here, same⟩ := placed.named q inside
      obtain ⟨p', kept, name⟩ := named_addTo.2 p here
      exact ⟨p', kept, by rw [name, same]⟩
    · rw [List.mem_singleton.mp inside]
      exact named_addTo.1

theorem placed_foldl (split : past ++ rest = rows) (ordered : rows.Pairwise (·.ts ≤ ·.ts))
    (counts : Counts rows past m) (placed : Placed rows past m.probes) :
    Placed rows rows (rest.foldl Lines.step m).probes := by
  induction rest generalizing past m with
  | nil =>
      rw [List.append_nil] at split
      rwa [split] at placed
  | cons r rest ih =>
      obtain ⟨lastTs, idx⟩ := counts.next split ordered
      rw [List.append_cons] at split
      apply ih split
      · have last : (past ++ [r]).getLast? = some r := List.getLast?_concat
        rw [Counts, last]
        exact ⟨lastTs, idx⟩
      · have same : (m.count r).probes = m.probes := by
          rw [Lines.count]
          split_ifs <;> rfl
        rw [Lines.step]
        simp only [idx, same]
        exact placed.next

/-! ## When the columns line up -/

variable {from_ to_ : ℚ} {d : LogTables} {joined : Answer JoinedRow.ts (d.joined from_ to_)}
  {lines : Answer ProbeRow.ts (d.probesIn from_ to_)}

/-- Every row of the history is there once, and every probe has its places along the axis. -/
structure LinesUp (from_ to_ : ℚ) (d : LogTables)
    (joined : Answer JoinedRow.ts (d.joined from_ to_))
    (lines : Answer ProbeRow.ts (d.probesIn from_ to_)) : Prop where
  once : (joined.rows.map JoinedRow.history).Perm (d.historyIn from_ to_)
  present : ∀ row ∈ lines.rows,
    ∃ places, (row.label, places) ∈ (samplesJson joined.rows lines.rows).probes
  aligned : ∀ label places, (label, places) ∈ (samplesJson joined.rows lines.rows).probes →
    Aligned (joined.rows.map JoinedRow.ts) ProbeRow.ts
      (groupOf ProbeRow.label lines.rows label) places

/-- The tables are even: the controller has no two rows for a row of the history, and where there
are rows of probes, the history has a row for each of their times and no other, each probe has a
row for the last and no two for a time, and no two labels differ in case alone. -/
structure Even (from_ to_ : ℚ) (d : LogTables) : Prop where
  ctrl : ∀ row ∈ d.historyIn from_ to_, (d.ctrlFor row).length ≤ 1
  probes : d.probesIn from_ to_ ≠ [] →
    Regular ((d.historyIn from_ to_).map LogRow.ts) ProbeRow.ts ProbeRow.label
      (lateStart (d.probesIn from_ to_)) (d.probesIn from_ to_)
  labels : ∀ q ∈ d.probesIn from_ to_, ∀ r ∈ d.probesIn from_ to_,
    strcasecmp q.label r.label → q.label = r.label

theorem placed_samples (lines : Answer ProbeRow.ts (d.probesIn from_ to_))
    (joined : List JoinedRow) :
    Placed lines.rows lines.rows (samplesJson joined lines.rows).probes :=
  placed_foldl (List.nil_append _) lines.ordered counts_start placed_start

theorem times_sorted (joined : Answer JoinedRow.ts (d.joined from_ to_)) :
    (joined.rows.map JoinedRow.ts).SortedLE :=
  (List.pairwise_map.mpr joined.ordered).sortedLE

theorem times_perm (once : (joined.rows.map JoinedRow.history).Perm (d.historyIn from_ to_)) :
    (joined.rows.map JoinedRow.ts).Perm ((d.historyIn from_ to_).map LogRow.ts) := by
  have times := once.map LogRow.ts
  rwa [List.map_map] at times

theorem places_eq (labels : ∀ q ∈ lines.rows, ∀ r ∈ lines.rows,
      strcasecmp q.label r.label → q.label = r.label) {label : String} {places : Places}
    (inside : (label, places) ∈ (samplesJson joined.rows lines.rows).probes) :
    (∃ r ∈ lines.rows, r.label = label) ∧
      places = counted ProbeRow.ts ProbeRow.label (lateStart lines.rows) lines.rows label := by
  have placed := placed_samples lines joined.rows
  obtain ⟨r, member, rfl⟩ := placed.label _ inside
  refine ⟨⟨r, member, rfl⟩, ?_⟩
  have own : rowsNamed r.label lines.rows = groupOf ProbeRow.label lines.rows r.label := by
    apply List.filter_congr
    intro q among
    rw [decide_eq_decide]
    constructor
    · exact fun same => (labels r member q among (strcasecmp_iff.mpr same)).symm
    · exact fun same => congrArg folded same.symm
  have column := placed.places _ inside
  rw [own] at column
  exact column

theorem ctrl_of_once (once : (joined.rows.map JoinedRow.history).Perm (d.historyIn from_ to_)) :
    ∀ row ∈ d.historyIn from_ to_, (d.ctrlFor row).length ≤ 1 := by
  have many (row : LogRow) : 1 ≤ (d.join row).length ∧
      (d.ctrlFor row).length ≤ (d.join row).length := by
    rw [LogTables.join]
    split_ifs with none_
    · rw [none_]
      exact ⟨le_rfl, Nat.zero_le _⟩
    · rw [List.length_map]
      exact ⟨List.length_pos_iff.mpr none_, le_rfl⟩
  have total : (d.joined from_ to_).length = (d.historyIn from_ to_).length := by
    rw [← once.length_eq, List.length_map, joined.perm.length_eq]
  rw [LogTables.joined] at total
  generalize d.historyIn from_ to_ = history at total
  have atLeast (history : List LogRow) : history.length ≤ (history.flatMap d.join).length := by
    induction history with
    | nil => exact Nat.zero_le _
    | cons row history ih =>
        rw [List.flatMap_cons, List.length_append, List.length_cons]
        have one := (many row).1
        omega
  induction history with
  | nil => exact List.forall_mem_nil _
  | cons row history ih =>
      rw [List.flatMap_cons, List.length_append, List.length_cons] at total
      obtain ⟨one, ctrl⟩ := many row
      have rest := atLeast history
      exact List.forall_mem_cons.mpr ⟨by omega, ih (by omega)⟩

theorem once_of_ctrl (ctrl : ∀ row ∈ d.historyIn from_ to_, (d.ctrlFor row).length ≤ 1) :
    (joined.rows.map JoinedRow.history).Perm (d.historyIn from_ to_) := by
  have single : ∀ row ∈ d.historyIn from_ to_, (d.join row).map JoinedRow.history = [row] := by
    intro row inside
    rw [LogTables.join]
    split_ifs with none_
    · rfl
    · obtain ⟨c, one⟩ := List.length_eq_one_iff.mp
        (le_antisymm (ctrl row inside) (List.length_pos_iff.mpr none_))
      rw [one]
      rfl
  have same : (d.joined from_ to_).map JoinedRow.history = d.historyIn from_ to_ := by
    rw [LogTables.joined]
    generalize d.historyIn from_ to_ = history at single
    induction history with
    | nil => rfl
    | cons row history ih =>
        obtain ⟨first, rest⟩ := List.forall_mem_cons.mp single
        rw [List.flatMap_cons, List.map_append, first, ih rest]
        rfl
  conv => rhs; rw [← same]
  exact joined.perm.map _

/-- The columns line up, in whatever order rows of one time come, just where the tables are
even. -/
theorem lines_up_iff (from_ to_ : ℚ) (d : LogTables)
    (joined : Answer JoinedRow.ts (d.joined from_ to_))
    (lines : Answer ProbeRow.ts (d.probesIn from_ to_)) :
    LinesUp from_ to_ d joined lines ↔ Even from_ to_ d := by
  have sorted := times_sorted joined
  constructor
  · intro up
    have labels : ∀ q ∈ lines.rows, ∀ r ∈ lines.rows,
        strcasecmp q.label r.label → q.label = r.label := by
      intro q inQ r inR same
      obtain ⟨left, hereQ⟩ := up.present q inQ
      obtain ⟨right, hereR⟩ := up.present r inR
      exact congrArg Prod.fst ((placed_samples lines joined.rows).apart.eq hereQ hereR
        (strcasecmp_iff.mp same))
    refine ⟨ctrl_of_once up.once, ?_, ?_⟩
    · intro some_
      have some_ : lines.rows ≠ [] := by
        intro none_
        have same := lines.perm
        rw [none_] at same
        exact some_ same.nil_eq.symm
      have regular := regular_of_aligned sorted (lateStart_nonneg lines.rows) some_ (by
        intro r inside
        obtain ⟨places, here⟩ := up.present r inside
        rw [← (places_eq labels here).2]
        exact up.aligned r.label places here)
      rw [← lateStart_perm lines.perm]
      exact regular.perm (times_perm up.once) lines.perm
    · simpa only [lines.perm.mem_iff] using labels
  · intro even
    have once : (joined.rows.map JoinedRow.history).Perm (d.historyIn from_ to_) :=
      once_of_ctrl even.ctrl
    have labels : ∀ q ∈ lines.rows, ∀ r ∈ lines.rows,
        strcasecmp q.label r.label → q.label = r.label := by
      simpa only [lines.perm.mem_iff] using even.labels
    refine ⟨once, ?_, ?_⟩
    · intro row inside
      obtain ⟨p, here, same⟩ := (placed_samples lines joined.rows).named row inside
      obtain ⟨q, member, name⟩ := (placed_samples lines joined.rows).label p here
      have label := labels q member row inside (strcasecmp_iff.mpr (by rw [name, same]))
      exact ⟨p.2, by rw [← label, name]; exact here⟩
    · intro label places here
      obtain ⟨⟨r, inside, rfl⟩, column⟩ := places_eq labels here
      have some_ : d.probesIn from_ to_ ≠ [] :=
        List.ne_nil_of_mem (lines.perm.mem_iff.mp inside)
      have regular := even.probes some_
      rw [← lateStart_perm lines.perm] at regular
      rw [column]
      exact (regular.perm (times_perm once).symm lines.perm.symm).aligned sorted
        (lateStart_nonneg lines.rows) lines.ordered inside

theorem LinesUp.arrays (up : LinesUp from_ to_ d joined lines) {label : String} {places : Places}
    (here : (label, places) ∈ (samplesJson joined.rows lines.rows).probes) :
    (temps places).length = joined.rows.length ∧ (targets places).length = joined.rows.length ∧
      ∀ (i : ℕ) (sample : JoinedRow), joined.rows[i]? = some sample →
        ((∀ row ∈ lines.rows, row.label = label → row.ts ≠ sample.ts) ∧
            (temps places)[i]? = some none ∧ (targets places)[i]? = some none) ∨
          ∃ row ∈ lines.rows, row.label = label ∧ row.ts = sample.ts ∧
            (temps places)[i]? = some (row.temp.map (roundTo 10)) ∧
            (targets places)[i]? = some (some (columnDouble row.target)) := by
  have aligned := up.aligned label places here
  have length := congrArg List.length aligned
  rw [List.length_map, List.length_map, List.length_map] at length
  refine ⟨by rw [temps, List.length_map, length], by rw [targets, List.length_map, length], ?_⟩
  intro i sample at_
  have time : (joined.rows.map JoinedRow.ts)[i]? = some sample.ts := by
    rw [List.getElem?_map, at_]
    rfl
  obtain ⟨e, entry, rows⟩ := aligned.place_iff time
  rw [temps, targets, List.getElem?_map, List.getElem?_map, entry]
  cases e with
  | none =>
      refine Or.inl ⟨?_, rfl, rfl⟩
      intro row inside ours same
      have among : row ∈ (groupOf ProbeRow.label lines.rows label).filter (·.ts = sample.ts) :=
        List.mem_filter.mpr ⟨mem_groupOf.mpr ⟨inside, ours⟩, decide_eq_true same⟩
      rw [← rows] at among
      cases among
  | some row =>
      have among : row ∈ (groupOf ProbeRow.label lines.rows label).filter (·.ts = sample.ts) := by
        rw [← rows]
        exact List.mem_cons_self
      obtain ⟨member, same⟩ := List.mem_filter.mp among
      obtain ⟨inside, ours⟩ := mem_groupOf.mp member
      exact Or.inr ⟨row, inside, ours, of_decide_eq_true same, rfl, rfl⟩

/-- A row of the history at a time. -/
def sampled (ts : ℚ) : LogRow :=
  ⟨ts, some 6, some 110, some (3 / 10), some (3 / 10), some 100, some 7⟩

/-- A cook during which one of its two probes is taken away. -/
def takenAway : LogTables :=
  { history := [sampled 10, sampled 20]
    ctrl := []
    probes := [⟨10, "Grill", some 108, some 0⟩, ⟨10, "Meat", some 20, some 95⟩,
      ⟨20, "Grill", some 109, some 0⟩] }

/-- The array of the probe that was taken away ends before the times do. -/
theorem not_always_lined_up : ¬∀ from_ to_ d joined lines, LinesUp from_ to_ d joined lines := by
  intro right
  have up := right 0 100 takenAway ⟨takenAway.joined 0 100, List.Perm.refl _, by decide⟩
    ⟨takenAway.probesIn 0 100, List.Perm.refl _, by decide⟩
  have short := up.aligned "Meat" [some ⟨10, "Meat", some 20, some 95⟩] (by decide +kernel)
  have length := congrArg List.length short
  rw [List.length_map, List.length_map, List.length_map] at length
  exact absurd length (by decide)

end PiFire.History
