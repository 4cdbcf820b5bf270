import PiFire.Control.Common
import PiFire.Ranking.Axis
import Mathlib.Data.Int.ConditionallyCompleteOrder
import Mathlib.Data.Prod.Lex
import Mathlib.Data.String.Basic

/-!
# The history on a chart's axis

The chart's axis are the buckets the history has a row for. The rows of the probes, by label
and bucket, are laid onto it: what the axis has no bucket for is dropped, and what a probe has
no row for is padded, so that every series is as long as the axis.
-/

namespace PiFire.History

open Ranking

/-- A row of `history`, as far as the chart reads it. -/
structure HistoryRow where
  ts : ℚ
  mode : ℤ
  setpoint : Option ℚ
  uApplied : Option ℚ
  deriving DecidableEq

/-- A row of `history_probe`. -/
structure ProbeRow where
  ts : ℚ
  label : String
  temp : Option ℚ
  target : Option ℚ
  deriving DecidableEq

structure Tables where
  history : List HistoryRow
  probes : List ProbeRow

/-! ## The two queries -/

/-- `CAST(ts/? AS INTEGER)*?` -/
def bucket (res : ℤ) (ts : ℚ) : ℤ := truncate (ts / res) * res

/-- `AVG`: of what is not NULL. -/
def average (values : List (Option ℚ)) : Option ℚ :=
  let known := values.filterMap id
  if known.isEmpty then none else some (known.sum / known.length)

/-- `MAX` -/
def largest (values : List (Option ℚ)) : Option ℚ := (values.filterMap id).max?

/-- A row of the first query. -/
structure AxisRow where
  b : ℤ
  mode : ℤ
  setpoint : Option ℚ
  u : Option ℚ
  deriving DecidableEq

/-- A row of the second query. -/
structure SeriesRow where
  label : String
  b : ℤ
  temp : Option ℚ
  target : Option ℚ
  deriving DecidableEq

namespace Tables

variable (from_ to_ : ℚ) (res : ℤ) (d : Tables)

/-- `q1` -/
def axisRows : List AxisRow :=
  let rows := d.history.filter fun row => from_ ≤ row.ts ∧ row.ts ≤ to_
  (keys (rows.map fun row => bucket res row.ts)).map fun b =>
    let rows := rows.filter fun row => bucket res row.ts = b
    { b := b
      mode := ((rows.map HistoryRow.mode).max?).getD 0
      setpoint := average (rows.map HistoryRow.setpoint)
      u := average (rows.map HistoryRow.uApplied) }

/-- `q2` -/
def seriesRows : List SeriesRow :=
  let rows := d.probes.filter fun row => from_ ≤ row.ts ∧ row.ts ≤ to_
  (keys (rows.map fun row => toLex (row.label, bucket res row.ts))).map fun k =>
    let rows := rows.filter fun row => toLex (row.label, bucket res row.ts) = k
    { label := (ofLex k).1
      b := (ofLex k).2
      temp := average (rows.map ProbeRow.temp)
      target := largest (rows.map ProbeRow.target) }

end Tables

/-! ## The chart -/

/-- `sqlite3_column_double`: NULL is read as zero. -/
def columnDouble (v : Option ℚ) : ℚ := v.getD 0

/-- A probe's two arrays of numbers and nulls. -/
structure Series where
  temp : List (Option ℚ)
  target : List (Option ℚ)
  deriving DecidableEq

/-- What the query returns. -/
structure Chart where
  t : List ℤ
  mode : List ℤ
  setpoint : List ℚ
  u : List ℚ
  probes : List (String × Series)
  deriving DecidableEq

/-- The bytes of a C string. -/
def bytes (s : String) : List UInt8 := s.toUTF8.data.toList

/-- `PF_LABEL_LEN` -/
def labelLen : ℕ := 32

/-- What a label's buffer holds of a label. -/
def copied (label : String) : List UInt8 := (bytes label).take (labelLen - 1)

/-- The series so far: those done with, the one that is open, the label it is open for and
the place on the axis. -/
structure Merge where
  done : List (String × Series)
  current : Option (String × Series)
  curLabel : List UInt8
  idx : ℕ

namespace Series

/-- A number of nulls, with zero for the target. -/
def pad (n : ℕ) (s : Series) : Series :=
  ⟨s.temp ++ List.replicate n none, s.target ++ List.replicate n (some 0)⟩

/-- Padded to the length of the axis. -/
def padTo (nt : ℕ) (s : Series) : Series := s.pad (nt - s.temp.length)

def add (temp : Option ℚ) (target : ℚ) (s : Series) : Series :=
  ⟨s.temp ++ [temp], s.target ++ [some target]⟩

end Series

namespace Merge

variable (t : List ℤ)

def start : Merge := ⟨[], none, [], 0⟩

/-- The open series is padded to full length, and done with. -/
def close (m : Merge) : List (String × Series) :=
  m.done ++ (m.current.map fun (label, s) => (label, s.padTo t.length)).toList

/-- A row with another label opens a series. -/
def openFor (row : SeriesRow) (m : Merge) : Merge :=
  if bytes row.label ≠ m.curLabel then
    { done := m.close t
      current := some (row.label, ⟨[], []⟩)
      curLabel := copied row.label
      idx := 0 }
  else m

/-- How many buckets of the axis are passed over on the way to a row's. -/
def skipped (row : SeriesRow) (m : Merge) : ℕ :=
  ((t.drop m.idx).takeWhile fun b : ℤ => (b : ℚ) < row.b - 1 / 2).length

/-- The buckets before a row's are padded. -/
def align (row : SeriesRow) (m : Merge) : Merge :=
  { m with
    current := m.current.map fun (label, s) => (label, s.pad (m.skipped t row))
    idx := m.idx + m.skipped t row }

/-- A row goes to its bucket, if the axis has it. -/
def place (row : SeriesRow) (m : Merge) : Merge :=
  match t[m.idx]? with
  | none => m
  | some b =>
      if (b : ℚ) > row.b + 1 / 2 then m
      else
        { m with
          current := m.current.map fun (label, s) =>
            (label, s.add row.temp (columnDouble row.target))
          idx := m.idx + 1 }

def step (m : Merge) (row : SeriesRow) : Merge := place t row (align t row (openFor t row m))

end Merge

/-- `res_s` as it is used. -/
def resolution (resS : ℤ) : ℤ := if resS < 1 then 1 else resS

/-- `pf_db_history_query` -/
def historyQueryChart (from_ to_ : ℚ) (resS : ℤ) (d : Tables) : Chart :=
  let res := resolution resS
  let rows := d.axisRows from_ to_ res
  let t := rows.map AxisRow.b
  { t := t
    mode := rows.map AxisRow.mode
    setpoint := rows.map fun row => columnDouble row.setpoint
    u := rows.map fun row => columnDouble row.u
    probes := ((d.seriesRows from_ to_ res).foldl (Merge.step t) Merge.start).close t }

/-! ## Laying the rows onto the axis -/

variable {t : List ℤ} {rows past : List SeriesRow} {r : SeriesRow} {i : ℕ} {s : Series}

/-- What a row has for the target. -/
def SeriesRow.aim (r : SeriesRow) : Option ℚ := some (columnDouble r.target)

/-- What the rows of one label say of the buckets before a place. -/
def upTo (t : List ℤ) (rows : List SeriesRow) (i : ℕ) : Series :=
  ⟨column t SeriesRow.b SeriesRow.temp none rows i,
    column t SeriesRow.b SeriesRow.aim (some 0) rows i⟩

/-- What they say of every bucket. -/
def onAxis (t : List ℤ) (rows : List SeriesRow) : Series :=
  ⟨t.map (sayOf SeriesRow.b SeriesRow.temp none rows),
    t.map (sayOf SeriesRow.b SeriesRow.aim (some 0) rows)⟩

theorem lt_sub_half {b c : ℤ} : (b : ℚ) < c - 1 / 2 ↔ b < c := by
  constructor
  · intro early
    have early : (b : ℚ) < c := by linarith
    exact_mod_cast early
  · intro early
    have early : (b : ℚ) + 1 ≤ c := by exact_mod_cast early
    linarith

theorem gt_add_half {b c : ℤ} : (b : ℚ) > c + 1 / 2 ↔ c < b := by
  constructor
  · intro late
    have late : (c : ℚ) < b := by linarith
    exact_mod_cast late
  · intro late
    have late : (c : ℚ) + 1 ≤ b := by exact_mod_cast late
    linarith

theorem skipped_eq (m : Merge) : m.idx + m.skipped t r = placeFrom t r.b m.idx := by
  rw [Merge.skipped, placeFrom]
  simp only [lt_sub_half]

theorem meets_iff {b : ℤ} (here : t[placeFrom t r.b i]? = some b) :
    ¬(b : ℚ) > r.b + 1 / 2 ↔ t[placeFrom t r.b i]? = some r.b := by
  have notBelow : ¬b < r.b := by
    have head := List.head?_dropWhile_not (· < r.b) (t.drop i)
    rw [← drop_placeFrom, List.head?_drop, here] at head
    simpa using head
  rw [gt_add_half, here, Option.some_inj]
  omega

theorem place_align (t : List ℤ) (r : SeriesRow) {m : Merge} {label : String}
    (open_ : m.current = some (label, s)) :
    (Merge.place t r (Merge.align t r m)).idx = placeAfter t SeriesRow.b r m.idx ∧
      (Merge.place t r (Merge.align t r m)).current = some (label,
        ⟨addRow t SeriesRow.b SeriesRow.temp none r m.idx s.temp,
          addRow t SeriesRow.b SeriesRow.aim (some 0) r m.idx s.target⟩) ∧
      (Merge.place t r (Merge.align t r m)).done = m.done ∧
      (Merge.place t r (Merge.align t r m)).curLabel = m.curLabel := by
  have at_ : (Merge.align t r m).idx = placeFrom t r.b m.idx := skipped_eq m
  have count : m.skipped t r = placeFrom t r.b m.idx - m.idx := by
    rw [← skipped_eq, Nat.add_sub_cancel_left]
  have padded : (Merge.align t r m).current = some (label, s.pad (m.skipped t r)) := by
    rw [Merge.align, open_]
    rfl
  have missed (misses : t[placeFrom t r.b m.idx]? ≠ some r.b) :
      (Merge.align t r m).idx = placeAfter t SeriesRow.b r m.idx ∧
        (Merge.align t r m).current = some (label,
          ⟨addRow t SeriesRow.b SeriesRow.temp none r m.idx s.temp,
            addRow t SeriesRow.b SeriesRow.aim (some 0) r m.idx s.target⟩) := by
    rw [placeAfter_of_misses misses, addRow_of_misses misses, addRow_of_misses misses, padded,
      count]
    exact ⟨at_, rfl⟩
  rw [Merge.place, at_]
  cases here : t[placeFrom t r.b m.idx]? with
  | none =>
      obtain ⟨idx, current⟩ := missed (by simp [here])
      exact ⟨idx, current, rfl, rfl⟩
  | some b =>
      have meets := meets_iff here
      dsimp only
      split_ifs with past
      · obtain ⟨idx, current⟩ := missed fun same => meets.mpr same past
        exact ⟨idx, current, rfl, rfl⟩
      · have same := meets.mp past
        rw [placeAfter_of_meets same, addRow_of_meets same, addRow_of_meets same, padded, count]
        exact ⟨rfl, rfl, rfl, rfl⟩

/-- The rows of a label. -/
def rowsOf (label : String) (rows : List SeriesRow) : List SeriesRow :=
  rows.filter (·.label = label)

theorem rowsOf_append_self (rows : List SeriesRow) (r : SeriesRow) :
    rowsOf r.label (rows ++ [r]) = rowsOf r.label rows ++ [r] := by
  simp [rowsOf]

theorem rowsOf_append_ne {label : String} (apart : r.label ≠ label) :
    rowsOf label (rows ++ [r]) = rowsOf label rows := by
  simp [rowsOf, apart]

theorem rowsOf_eq_nil {label : String} (none_ : ∀ q ∈ rows, q.label ≠ label) :
    rowsOf label rows = [] := by
  rw [rowsOf, List.filter_eq_nil_iff]
  intro q inside
  simpa using none_ q inside

theorem bytes_inj {label other : String} (same : bytes label = bytes other) : label = other :=
  String.toByteArray_inj.mp (ByteArray.ext (Array.toList_inj.mp same))

/-- A label that its buffer has room for. -/
def Fits (label : String) : Prop := (bytes label).length < labelLen

theorem copied_of_fits {label : String} (fits : Fits label) : copied label = bytes label :=
  List.take_of_length_le (Nat.le_pred_of_lt fits)

theorem padTo_upTo (before : Before t SeriesRow.b rows i) :
    (upTo t rows i).padTo t.length = onAxis t rows := by
  have length : (upTo t rows i).temp.length = i := by
    rw [upTo, column, List.length_map, List.length_take, min_eq_left before.le]
  rw [Series.padTo, length, Series.pad, upTo, onAxis, column_full before, column_full before]

theorem upTo_next (before : Before t SeriesRow.b rows i) (new : ∀ q ∈ rows, q.b < r.b) :
    (⟨addRow t SeriesRow.b SeriesRow.temp none r i (upTo t rows i).temp,
      addRow t SeriesRow.b SeriesRow.aim (some 0) r i (upTo t rows i).target⟩ : Series) =
        upTo t (rows ++ [r]) (placeAfter t SeriesRow.b r i) :=
  congrArg₂ Series.mk (column_next before new) (column_next before new)

/-- A row comes after others, by label and then by bucket. -/
def After (q r : SeriesRow) : Prop := q.label < r.label ∨ q.label = r.label ∧ q.b < r.b

/-- A series that is done with says what its label's rows do, and no later row has its label. -/
def Closed (t : List ℤ) (past : List SeriesRow) (p : String × Series) : Prop :=
  p.2 = onAxis t (rowsOf p.1 past) ∧ ∃ q ∈ past, p.1 < q.label

/-- The series that is open. -/
structure Opened (t : List ℤ) (past : List SeriesRow) (m : Merge) (label : String) : Prop where
  series : m.current = some (label, upTo t (rowsOf label past) m.idx)
  before : Before t SeriesRow.b (rowsOf label past) m.idx
  curLabel : m.curLabel = bytes label
  last : ∃ q ∈ past, q.label = label
  least : ∀ q ∈ past, q.label ≤ label

/-- Before any label that is not empty there is no series. -/
structure Unopened (past : List SeriesRow) (m : Merge) : Prop where
  none_ : m.current = none
  done : m.done = []
  curLabel : m.curLabel = []
  empty : ∀ q ∈ past, bytes q.label = []

/-- What the merge has made of the rows so far. -/
structure Charted (t : List ℤ) (past : List SeriesRow) (m : Merge) : Prop where
  done : ∀ p ∈ m.done, Closed t past p
  current : Unopened past m ∨ ∃ label, Opened t past m label

theorem kept_start : Charted t [] Merge.start :=
  ⟨nofun, Or.inl ⟨rfl, rfl, rfl, nofun⟩⟩

theorem Closed.later {p : String × Series} (closed : Closed t past p)
    (after : ∀ q ∈ past, After q r) : Closed t (past ++ [r]) p := by
  obtain ⟨series, q, inside, less⟩ := closed
  have apart : r.label ≠ p.1 := by
    rcases after q inside with later | ⟨same, -⟩
    · exact (less.trans later).ne'
    · exact same ▸ less.ne'
  exact ⟨by rw [rowsOf_append_ne apart]; exact series, q, List.mem_append_left _ inside, less⟩

theorem Opened.place {m : Merge} (opened : Opened t past m r.label) (after : ∀ q ∈ past, After q r)
    (sorted : t.SortedLT) :
    Opened t (past ++ [r]) (Merge.place t r (Merge.align t r m)) r.label ∧
      (Merge.place t r (Merge.align t r m)).done = m.done := by
  obtain ⟨idx, current, done, curLabel⟩ := place_align t r opened.series
  have new : ∀ q ∈ rowsOf r.label past, q.b < r.b := by
    intro q inside
    obtain ⟨inside, same⟩ := List.mem_filter.mp inside
    rcases after q inside with later | ⟨-, later⟩
    · exact absurd (of_decide_eq_true same) later.ne
    · exact later
  refine ⟨⟨?_, ?_, curLabel.trans opened.curLabel, ?_, ?_⟩, done⟩
  · rw [current, idx, rowsOf_append_self, ← upTo_next opened.before new]
  · rw [idx, rowsOf_append_self]
    exact opened.before.next sorted new
  · exact ⟨r, List.mem_append_right _ List.mem_cons_self, rfl⟩
  · intro q inside
    rcases List.mem_append.mp inside with inside | last
    · exact opened.least q inside
    · rw [List.mem_singleton.mp last]

theorem opened_fresh {m : Merge} (fits : Fits r.label) (new : ∀ q ∈ past, q.label < r.label)
    (done : List (String × Series)) (sorted : t.SortedLT) :
    let fresh : Merge := { m with
      done := done, current := some (r.label, ⟨[], []⟩), curLabel := copied r.label, idx := 0 }
    Opened t (past ++ [r]) (Merge.place t r (Merge.align t r fresh)) r.label ∧
      (Merge.place t r (Merge.align t r fresh)).done = done := by
  intro fresh
  obtain ⟨idx, current, done', curLabel⟩ :=
    place_align t r (m := fresh) rfl
  have none_ : rowsOf r.label past = [] := rowsOf_eq_nil fun q inside => (new q inside).ne
  have before : Before t SeriesRow.b (rowsOf r.label past) 0 := by
    rw [none_]
    exact before_nil
  have nothing : ∀ q ∈ rowsOf r.label past, q.b < r.b := by
    rw [none_]
    exact List.forall_mem_nil _
  refine ⟨⟨?_, ?_, curLabel.trans (copied_of_fits fits), ?_, ?_⟩, done'⟩
  · rw [current, idx, rowsOf_append_self, ← upTo_next before nothing]
    rfl
  · rw [idx, rowsOf_append_self]
    exact before.next sorted nothing
  · exact ⟨r, List.mem_append_right _ List.mem_cons_self, rfl⟩
  · intro q inside
    rcases List.mem_append.mp inside with inside | last
    · exact (new q inside).le
    · rw [List.mem_singleton.mp last]

theorem Charted.close {m : Merge} (kept : Charted t past m) :
    ∀ p ∈ m.close t, p.2 = onAxis t (rowsOf p.1 past) := by
  intro p inside
  rcases List.mem_append.mp inside with done | open_
  · exact (kept.done p done).1
  · rcases kept.current with unopened | ⟨label, opened⟩
    · rw [unopened.none_] at open_
      cases open_
    · rw [opened.series, Option.map_some, Option.toList_some, List.mem_singleton] at open_
      rw [open_]
      exact padTo_upTo opened.before

theorem Charted.step {m : Merge} (kept : Charted t past m) (sorted : t.SortedLT)
    (fits : Fits r.label) (after : ∀ q ∈ past, After q r) : Charted t (past ++ [r]) (m.step t r) := by
  have done : ∀ p ∈ m.done, Closed t (past ++ [r]) p := fun p inside =>
    (kept.done p inside).later after
  rcases kept.current with unopened | ⟨label, opened⟩
  · by_cases empty : bytes r.label = []
    · -- a row with an empty label comes before all others, and has no series
      have same : m.openFor t r = m := by
        rw [Merge.openFor, if_neg (by rw [empty, unopened.curLabel]; simp)]
      have still : (Merge.align t r m).current = none := by
        rw [Merge.align, unopened.none_]
        rfl
      have left : Unopened (past ++ [r]) (Merge.place t r (Merge.align t r m)) := by
        have all : ∀ q ∈ past ++ [r], bytes q.label = [] := by
          intro q inside
          rcases List.mem_append.mp inside with inside | last
          · exact unopened.empty q inside
          · rw [List.mem_singleton.mp last]
            exact empty
        rw [Merge.place]
        split
        · exact ⟨still, unopened.done, unopened.curLabel, all⟩
        · split_ifs
          · exact ⟨still, unopened.done, unopened.curLabel, all⟩
          · exact ⟨by simp [still], unopened.done, unopened.curLabel, all⟩
      rw [Merge.step, same]
      refine ⟨?_, Or.inl left⟩
      rw [left.done]
      exact List.forall_mem_nil _
    · have opens : bytes r.label ≠ m.curLabel := by rwa [unopened.curLabel]
      have new : ∀ q ∈ past, q.label < r.label := by
        intro q inside
        rcases after q inside with later | ⟨same, -⟩
        · exact later
        · rw [← same] at empty
          exact absurd (unopened.empty q inside) empty
      obtain ⟨fresh, closed⟩ := opened_fresh (m := m) fits new (m.close t) sorted
      rw [Merge.step, Merge.openFor, if_pos opens]
      refine ⟨?_, Or.inr ⟨r.label, fresh⟩⟩
      rw [closed, Merge.close, unopened.none_, unopened.done]
      exact List.forall_mem_nil _
  · by_cases same : bytes r.label = m.curLabel
    · have label_ : r.label = label := bytes_inj (same.trans opened.curLabel)
      subst label_
      obtain ⟨placed, unmoved⟩ := opened.place after sorted
      rw [Merge.step, Merge.openFor, if_neg (not_not.mpr same)]
      exact ⟨by rwa [unmoved], Or.inr ⟨r.label, placed⟩⟩
    · obtain ⟨q, inside, rfl⟩ := opened.last
      have further : q.label < r.label := by
        rcases after q inside with later | ⟨equal, -⟩
        · exact later
        · rw [opened.curLabel, equal] at same
          exact absurd rfl same
      have new : ∀ q' ∈ past, q'.label < r.label := fun q' inside' =>
        (opened.least q' inside').trans_lt further
      obtain ⟨fresh, closed⟩ := opened_fresh (m := m) fits new (m.close t) sorted
      rw [Merge.step, Merge.openFor, if_pos same]
      refine ⟨?_, Or.inr ⟨r.label, fresh⟩⟩
      rw [closed]
      intro p member
      have full := kept.close p member
      rcases List.mem_append.mp member with before | last
      · exact done p before
      · rw [opened.series, Option.map_some, Option.toList_some, List.mem_singleton] at last
        have name : p.1 = q.label := by rw [last]
        refine ⟨?_, r, List.mem_append_right _ List.mem_cons_self, by rwa [name]⟩
        rw [full, rowsOf_append_ne (by rw [name]; exact further.ne')]

theorem kept_foldl (sorted : t.SortedLT) (fits : ∀ r ∈ rows, Fits r.label) {m : Merge}
    (kept : Charted t past m) (ordered : (past ++ rows).Pairwise After) :
    Charted t (past ++ rows) (rows.foldl (Merge.step t) m) := by
  induction rows generalizing past m with
  | nil => rwa [List.append_nil]
  | cons r rows ih =>
      obtain ⟨fits_r, fits⟩ := List.forall_mem_cons.mp fits
      have after : ∀ q ∈ past, After q r := fun q inside =>
        (List.pairwise_append.mp ordered).2.2 q inside r List.mem_cons_self
      rw [List.append_cons] at ordered ⊢
      exact ih fits (kept.step sorted fits_r after) ordered

/-! ## The chart of the tables -/

namespace Tables

variable (from_ to_ : ℚ) (res : ℤ) (d : Tables)

theorem axisRows_b : (d.axisRows from_ to_ res).map AxisRow.b =
    keys ((d.history.filter fun row => from_ ≤ row.ts ∧ row.ts ≤ to_).map fun row =>
      bucket res row.ts) := by
  rw [axisRows, List.map_map]
  exact List.map_id' _

theorem seriesRows_ordered : (d.seriesRows from_ to_ res).Pairwise After := by
  rw [seriesRows, List.pairwise_map]
  apply (sorted_keys _).pairwise.imp
  intro k k' less
  rcases Prod.Lex.lt_iff.mp less with first | second
  · exact Or.inl first
  · exact Or.inr second

theorem seriesRows_fits (fits : ∀ row ∈ d.probes, Fits row.label) :
    ∀ r ∈ d.seriesRows from_ to_ res, Fits r.label := by
  intro r inside
  obtain ⟨k, key, rfl⟩ := List.mem_map.mp inside
  obtain ⟨row, chosen, rfl⟩ := List.mem_map.mp (mem_keys.mp key)
  exact fits row (List.mem_of_mem_filter chosen)

end Tables

/-- A series has as many entries as the axis. -/
structure Full (t : List ℤ) (s : Series) : Prop where
  temps : s.temp.length = t.length
  targets : s.target.length = t.length

/-- Every bucket of the axis has an entry: that of the probe's row for the bucket, or null for
the temperature and something for the target where it has none. -/
structure Entries (t : List ℤ) (rows : List SeriesRow) (missing : Option ℚ) (label : String)
    (s : Series) : Prop where
  full : Full t s
  temp : ∀ (i : ℕ) b, t[i]? = some b →
    s.temp[i]? = some (sayOf SeriesRow.b SeriesRow.temp none (rowsOf label rows) b)
  target : ∀ (i : ℕ) b, t[i]? = some b →
    s.target[i]? = some (sayOf SeriesRow.b SeriesRow.aim missing (rowsOf label rows) b)

theorem entries_onAxis (t : List ℤ) (rows : List SeriesRow) (label : String) :
    Entries t rows (some 0) label (onAxis t (rowsOf label rows)) := by
  refine ⟨⟨List.length_map _, List.length_map _⟩, ?_, ?_⟩
  · intro i b here
    rw [onAxis, List.getElem?_map, here]
    rfl
  · intro i b here
    rw [onAxis, List.getElem?_map, here]
    rfl

/-- What the merge keeps of lengths, whatever the labels: the series that is open has an entry
for every place before the next. -/
structure Sized (t : List ℤ) (m : Merge) : Prop where
  done : ∀ p ∈ m.done, Full t p.2
  inside : m.idx ≤ t.length
  current : ∀ p, m.current = some p → p.2.temp.length = m.idx ∧ p.2.target.length = m.idx

theorem sized_start : Sized t Merge.start := ⟨nofun, Nat.zero_le _, nofun⟩

theorem Sized.close {m : Merge} (sized : Sized t m) : ∀ p ∈ m.close t, Full t p.2 := by
  intro p inside
  rcases List.mem_append.mp inside with done | open_
  · exact sized.done p done
  · obtain ⟨⟨label, s⟩, current, rfl⟩ := Option.map_eq_some_iff.mp (Option.mem_toList.mp open_)
    obtain ⟨temps, targets⟩ : s.temp.length = m.idx ∧ s.target.length = m.idx :=
      sized.current _ current
    have room := sized.inside
    constructor
    · simp only [Series.padTo, Series.pad, List.length_append, List.length_replicate]
      omega
    · simp only [Series.padTo, Series.pad, List.length_append, List.length_replicate]
      omega

theorem Sized.openFor {m : Merge} (sized : Sized t m) : Sized t (m.openFor t r) := by
  rw [Merge.openFor]
  split_ifs
  · refine ⟨sized.close, Nat.zero_le _, ?_⟩
    intro p new
    rw [← Option.some_inj.mp new]
    exact ⟨rfl, rfl⟩
  · exact sized

theorem length_addRow {α : Type} (value : SeriesRow → α) (blank : α) {entries : List α}
    (length : entries.length = i) :
    (addRow t SeriesRow.b value blank r i entries).length = placeAfter t SeriesRow.b r i := by
  have le : i ≤ placeFrom t r.b i := Nat.le_add_right _ _
  rw [addRow, placeAfter]
  split_ifs
  · simp only [List.length_append, List.length_replicate, List.length_singleton]
    omega
  · simp only [List.length_append, List.length_replicate]
    omega

theorem placeAfter_le (inside : i ≤ t.length) : placeAfter t SeriesRow.b r i ≤ t.length := by
  rw [placeAfter]
  split_ifs with meets
  · exact (List.getElem?_eq_some_iff.mp meets).1
  · exact placeFrom_le _ inside

theorem Sized.step {m : Merge} (sized : Sized t m) (r : SeriesRow) : Sized t (m.step t r) := by
  rw [Merge.step]
  have sized := sized.openFor (r := r)
  generalize m.openFor t r = m at sized
  cases open_ : m.current with
  | none =>
      have still : (Merge.align t r m).current = none := by rw [Merge.align, open_]; rfl
      have at_ : (Merge.align t r m).idx = placeFrom t r.b m.idx := skipped_eq m
      have inside : (Merge.align t r m).idx ≤ t.length := at_ ▸ placeFrom_le _ sized.inside
      rw [Merge.place]
      split
      · exact ⟨sized.done, inside, by simp [still]⟩
      · rename_i here
        split_ifs
        · exact ⟨sized.done, inside, by simp [still]⟩
        · exact ⟨sized.done, (List.getElem?_eq_some_iff.mp here).1, by simp [still]⟩
  | some p =>
      obtain ⟨idx, current, done, -⟩ := place_align t r open_
      obtain ⟨temps, targets⟩ := sized.current p open_
      refine ⟨by rw [done]; exact sized.done, by rw [idx]; exact placeAfter_le sized.inside, ?_⟩
      intro q new
      rw [← Option.some_inj.mp (current.symm.trans new), idx]
      exact ⟨length_addRow _ _ temps, length_addRow _ _ targets⟩

theorem sized_foldl {m : Merge} (sized : Sized t m) (rows : List SeriesRow) :
    Sized t (rows.foldl (Merge.step t) m) := by
  induction rows generalizing m with
  | nil => exact sized
  | cons r rows ih => exact ih (sized.step r)

/-- Every series of the chart has an entry for each bucket of the axis, and where the labels fit
their buffers it is the row's, or null with zero for the target. -/
theorem series_on_axis (from_ to_ : ℚ) (resS : ℤ) (d : Tables) :
    ∀ label s, (label, s) ∈ (historyQueryChart from_ to_ resS d).probes →
      Full (historyQueryChart from_ to_ resS d).t s ∧
        ((∀ row ∈ d.probes, Fits row.label) →
          Entries (historyQueryChart from_ to_ resS d).t
            (d.seriesRows from_ to_ (resolution resS)) (some 0) label s) := by
  intro label s inside
  have sorted : (historyQueryChart from_ to_ resS d).t.SortedLT := by
    rw [historyQueryChart, Tables.axisRows_b]
    exact sorted_keys _
  refine ⟨(sized_foldl sized_start _).close _ inside, fun fits => ?_⟩
  have kept := kept_foldl sorted (d.seriesRows_fits from_ to_ (resolution resS) fits) kept_start
    (d.seriesRows_ordered from_ to_ (resolution resS))
  have series := kept.close (label, s) inside
  rw [List.nil_append] at series
  rw [show s = _ from series]
  exact entries_onAxis _ _ label

/-- Two buckets, and a probe that has a row for the first. -/
def benchTables : Tables :=
  { history := [⟨10, 6, some 110, some (3 / 10)⟩, ⟨20, 6, some 110, some (3 / 10)⟩]
    probes := [⟨10, "Grill", some 108, some 0⟩] }

theorem series_on_axis_on_bench :
    Full (historyQueryChart 0 100 1 benchTables).t ⟨[some 108, none], [some 0, some 0]⟩ ∧
      Entries (historyQueryChart 0 100 1 benchTables).t (benchTables.seriesRows 0 100 1)
        (some 0) "Grill" ⟨[some 108, none], [some 0, some 0]⟩ :=
  have both := series_on_axis 0 100 1 benchTables "Grill" ⟨[some 108, none], [some 0, some 0]⟩
    (by decide +kernel)
  ⟨both.1, both.2 (by unfold Fits; decide +kernel)⟩

/-- A probe with a label too long for its buffer, and a row for each of the two buckets. -/
def longTables : Tables :=
  { benchTables with
    probes := [⟨10, "Left side of the upper grill rack", some 108, some 0⟩,
      ⟨20, "Left side of the upper grill rack", some 109, some 0⟩] }

/-- Where a probe has no row, the target is zero and not null; and a label that does not fit its
buffer starts a series with every row. -/
theorem not_on_axis :
    (¬∀ from_ to_ resS d label s, (label, s) ∈ (historyQueryChart from_ to_ resS d).probes →
      Entries (historyQueryChart from_ to_ resS d).t (d.seriesRows from_ to_ (resolution resS))
        none label s) ∧
      ¬∀ from_ to_ resS d label s, (label, s) ∈ (historyQueryChart from_ to_ resS d).probes →
        Entries (historyQueryChart from_ to_ resS d).t (d.seriesRows from_ to_ (resolution resS))
          (some 0) label s := by
  constructor
  · intro right
    have series := right 0 100 1 benchTables "Grill" ⟨[some 108, none], [some 0, some 0]⟩
      (by decide +kernel)
    exact absurd (series.target 1 20 (by decide +kernel)) (by decide +kernel)
  · intro right
    have series := right 0 100 1 longTables "Left side of the upper grill rack"
      ⟨[some 108, none], [some 0, some 0]⟩ (by decide +kernel)
    exact absurd (series.temp 1 20 (by decide +kernel)) (by decide +kernel)

end PiFire.History
