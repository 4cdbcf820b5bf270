import PiFire.History.Samples
import Mathlib.Data.List.Dedup

/-!
# The file of a cook

When a cook ends the control thread leaves a request in the one pending slot. The services
thread looks there once in each turn of its loop, after a flush that is only sometimes
due, and then reads the cook's history, inserts its row and writes its file. The loop ends
at the shutdown with one more flush. Statements and writes succeed here; the steps of the
two threads, and rows that others insert over the same connection, interleave in any order.
-/

namespace PiFire.Cooks

open History

/-- What a cook that has ended leaves in the slot. -/
structure Request where
  start : ℚ
  end_ : ℚ
  augerOnS : ℚ
  maxPitC : ℚ
  deriving DecidableEq

/-- The settings a file is written under. -/
structure Settings where
  augerrate : ℚ
  units : Units
  deriving DecidableEq

/-- The metrics of a cook. -/
structure Metrics where
  durationS : ℚ
  augerOnS : ℚ
  pelletsG : ℚ
  maxPit : ℚ
  deriving DecidableEq

def metricsOf (s : Settings) (r : Request) : Metrics :=
  { durationS := r.end_ - r.start
    augerOnS := r.augerOnS
    pelletsG := r.augerOnS * s.augerrate
    maxPit := fromC r.maxPitC s.units }

/-- A second of a cook's history, with the samples that are put together in it: their
greatest mode, and the means of their numbers. -/
structure Bucket where
  t : ℤ
  samples : List HistSample
  deriving DecidableEq

/-- The second a sample is put in. -/
def second (sample : HistSample) : ℤ := truncate sample.ts

/-- The history between two times, by seconds. -/
def historyQuery (from_ to_ : ℚ) (stored : List HistSample) : List Bucket :=
  let chosen := stored.filter fun sample => from_ ≤ sample.ts ∧ sample.ts ≤ to_
  ((chosen.map second).dedup.mergeSort (· ≤ ·)).map fun t =>
    { t := t, samples := chosen.filter (second · = t) }

/-- A row of the table of cooks. -/
structure CookRow where
  id : ℕ
  start : ℚ
  end_ : ℚ
  metrics : Metrics
  deriving DecidableEq

/-- The file of a cook. -/
structure CookFile where
  id : ℕ
  start : ℚ
  end_ : ℚ
  units : Units
  metrics : Metrics
  history : List Bucket
  deriving DecidableEq

/-- A cook shorter than this is not kept. -/
def minCookS : ℚ := 120

/-- Whether a cook is worth keeping. -/
def Request.long (r : Request) : Bool := !(r.end_ - r.start < minCookS)

/-- The row number the database gives next: one more than the greatest in use. -/
def nextId (rows : List CookRow) : ℕ := (rows.map CookRow.id).foldr max 0 + 1

/-- Where the services thread is in its loop. -/
inductive Services where
  | top
  | flushing (batch : List HistSample)
  | handing
  | querying (r : Request)
  | inserting (r : Request) (history : List Bucket)
  | naming (s : Settings) (r : Request) (history : List Bucket) (row : CookRow)
  | pruning
  | lastFlush (batch : List HistSample)
  | done
  deriving DecidableEq

/-- The two threads and what they share. -/
structure State where
  running : Bool
  buffer : Buffer
  stored : List HistSample
  cookStart : ℚ
  clearing : Bool
  slot : Option Request
  services : Services
  now : ℚ
  lastFlush : ℚ
  lastPrune : ℚ
  cooks : List CookRow
  lastRowid : ℕ
  files : ℕ → Option CookFile

/-- What happens next. Taking a sample, entering Startup or Stop and the second half of a
clear are the control thread's; `insertElsewhere` is a row of another table inserted by
some thread but the services thread. -/
inductive Event where
  | record (s : Status) (now sampleS : ℚ)
  | startup (wall : ℚ) (fromStop clears : Bool)
  | wipe
  | stop (wall augerOnS maxPitC : ℚ)
  | shutDown
  | insertElsewhere (id : ℕ)
  | serve (now cutoff : ℚ) (s : Settings)

/-- How often the buffer is flushed, and the history pruned. -/
def flushS : ℚ := 15
def pruneS : ℚ := 600

/-- Take the buffer for a flush; an empty one is not written. -/
def takeBatch (write : List HistSample → Services) (other : Services) (s : State) : State :=
  { s with
    buffer := { s.buffer with pending := [], dropped := 0 }
    services := if s.buffer.pending = [] then other else write s.buffer.pending }

/-- The next step of the services thread. -/
def serve (now cutoff : ℚ) (set : Settings) (s : State) : State :=
  match s.services with
  | .top =>
      if s.running then
        let timed := { s with now := now }
        if now - s.lastFlush > flushS then
          takeBatch .flushing .handing { timed with lastFlush := now }
        else { timed with services := .handing }
      else takeBatch .lastFlush .done s
  | .flushing batch => { s with stored := s.stored ++ batch, services := .handing }
  | .handing =>
      match s.slot with
      | none => { s with services := .pruning }
      | some r => { s with slot := none, services := if r.long then .querying r else .pruning }
  | .querying r => { s with services := .inserting r (historyQuery r.start r.end_ s.stored) }
  | .inserting r history =>
      let row : CookRow :=
        { id := nextId s.cooks, start := r.start, end_ := r.end_, metrics := metricsOf set r }
      { s with
        cooks := s.cooks ++ [row], lastRowid := row.id, services := .naming set r history row }
  | .naming under r history row =>
      -- the number of the row is asked of the connection, not of the statement
      let file : CookFile :=
        { id := s.lastRowid, start := r.start, end_ := r.end_, units := under.units
          metrics := row.metrics, history := history }
      { s with files := Function.update s.files s.lastRowid (some file), services := .pruning }
  | .pruning =>
      if s.now - s.lastPrune > pruneS then
        { s with
          lastPrune := s.now, stored := s.stored.filter (cutoff ≤ ·.ts), services := .top }
      else { s with services := .top }
  | .lastFlush batch => { s with stored := s.stored ++ batch, services := .done }
  | .done => s

/-- Enter Startup: a cook begins, with a clear when it is asked for. -/
def startup (wall : ℚ) (fromStop clears : Bool) (s : State) : State :=
  let begun := { s with cookStart := wall }
  if clears && fromStop then
    { begun with buffer := { s.buffer with pending := [] }, clearing := true }
  else begun

/-- Enter Stop: a cook that was running ends. -/
def stop (wall augerOnS maxPitC : ℚ) (s : State) : State :=
  if s.cookStart > 0 then
    let r : Request :=
      { start := s.cookStart, end_ := wall, augerOnS := augerOnS, maxPitC := maxPitC }
    { s with slot := some r, cookStart := 0 }
  else s

/-- One event. The control thread takes nothing else up in the middle of a clear. -/
def step : Event → State → State
  | .record st now sampleS, s =>
      if s.clearing then s else { s with buffer := record st now sampleS s.buffer }
  | .startup wall fromStop clears, s => if s.clearing then s else startup wall fromStop clears s
  | .wipe, s => if s.clearing then { s with stored := [], clearing := false } else s
  | .stop wall augerOnS maxPitC, s => if s.clearing then s else stop wall augerOnS maxPitC s
  | .shutDown, s => { s with running := false }
  | .insertElsewhere id, s => { s with lastRowid := id }
  | .serve now cutoff set, s => serve now cutoff set s

/-- The threads as they start, over what the database and the folder hold. A cook that is
picked up again keeps its start. -/
def init (now cookStart : ℚ) (stored : List HistSample) (cooks : List CookRow)
    (files : ℕ → Option CookFile) : State :=
  { running := true
    buffer := { pending := [], lastSampleT := 0, dropped := 0 }
    stored := stored
    cookStart := cookStart
    clearing := false
    slot := none
    services := .top
    now := now
    lastFlush := now
    lastPrune := now
    cooks := cooks
    lastRowid := 0
    files := files }

end PiFire.Cooks
