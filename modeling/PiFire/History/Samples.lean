import PiFire.Control.Common
import PiFire.Transition.Run

/-!
# History samples on their way to the database

The control thread takes a sample now and then into a short buffer and may clear the
history; the services thread copies the buffer and writes the batch in one transaction, a
statement at a time. Any statement may fail, and the steps of the two threads interleave
in any order.
-/

namespace PiFire.History

/-- A probe in the published status. -/
structure ProbeReading where
  label : String
  enabled : Bool
  aux : Bool
  tempC : Option ℚ
  targetC : ℚ
  rawC : Option ℚ
  ohms : ℚ

/-- The terms the controller shows of its last answer. -/
structure CtrlDbg where
  p : ℚ
  i : ℚ
  d : ℚ
  ff : ℚ

/-- What a sample takes of the published status. -/
structure Status where
  wall : ℚ
  mode : Mode
  setpointC : ℚ
  uRaw : ℚ
  uApplied : ℚ
  outputs : ℕ
  fanPct : ℤ
  uFf : ℚ
  ctrlDbg : CtrlDbg
  ambientC : Option ℚ
  cycleS : ℚ
  lidOpen : Bool
  sPlus : Bool
  pwmControl : Bool
  targetReached : Bool
  ssActive : Bool
  ssProven : Bool
  saturated : ℤ
  pmode : ℤ
  sensors : List ProbeReading

/-- A probe in a sample. -/
structure HistProbe where
  label : String
  temp : Option ℚ
  target : ℚ
  raw : Option ℚ
  ohms : ℚ
  deriving DecidableEq

/-- A sample of the history. -/
structure HistSample where
  ts : ℚ
  mode : Mode
  setpoint : ℚ
  uRaw : ℚ
  uApplied : ℚ
  fanPct : ℤ
  outputs : ℕ
  uFf : ℚ
  p : ℚ
  i : ℚ
  d : ℚ
  ff : ℚ
  ambient : Option ℚ
  cycleS : ℚ
  flags : ℕ
  pmode : ℤ
  probes : List HistProbe
  deriving DecidableEq

/-- How many probes a sample has room for. -/
def maxProbes : ℕ := 16

/-- The bit of the fan among the outputs. -/
def fanBit : ℕ := 1

/-- A flag's bit when it is set. -/
def flagBit (on : Bool) (bit : ℕ) : ℕ := if on then bit else 0

/-- The flags of a sample. -/
def flagsOf (s : Status) : ℕ :=
  flagBit s.lidOpen 1 ||| flagBit s.sPlus 2 ||| flagBit s.pwmControl 4 |||
    flagBit s.targetReached 8 ||| flagBit (s.ssActive && !s.ssProven) 16 |||
    flagBit (s.saturated < 0) 32 ||| flagBit (s.saturated > 0) 64

/-- The fan's duty: full speed where it runs without one. -/
def fanDuty (s : Status) : ℤ :=
  if s.outputs.testBit fanBit then (if s.fanPct ≠ 0 then s.fanPct else 100) else 0

/-- The sample of a status. -/
def sampleOf (s : Status) : HistSample :=
  { ts := s.wall
    mode := s.mode
    setpoint := if s.mode = .hold then s.setpointC else 0
    uRaw := s.uRaw
    uApplied := s.uApplied
    fanPct := fanDuty s
    outputs := s.outputs
    uFf := s.uFf
    p := s.ctrlDbg.p
    i := s.ctrlDbg.i
    d := s.ctrlDbg.d
    ff := s.ctrlDbg.ff
    ambient := s.ambientC
    cycleS := s.cycleS
    flags := flagsOf s
    pmode := s.pmode
    probes := ((s.sensors.filter fun probe => probe.enabled && !probe.aux).take maxProbes).map
      fun probe =>
        { label := probe.label, temp := probe.tempC, target := probe.targetC
          raw := probe.tempC.bind fun _ => probe.rawC, ohms := probe.ohms } }

/-- How many samples wait at most. -/
def pendingMax : ℕ := 64

/-- The samples that wait to be written. -/
structure Buffer where
  pending : List HistSample
  lastSampleT : ℚ
  dropped : ℕ

/-- Whether a sample is taken now: the grill is not off, and the last one is long enough
ago. -/
def sampleDue (s : Status) (now sampleS : ℚ) (b : Buffer) : Bool :=
  s.mode != .stop && now - b.lastSampleT ≥ max sampleS 1

/-- Take a sample when it is due; one that finds the buffer full is counted only. -/
def record (s : Status) (now sampleS : ℚ) (b : Buffer) : Buffer :=
  if sampleDue s now sampleS b then
    let stamped := { b with lastSampleT := now }
    if b.pending.length ≥ pendingMax then { stamped with dropped := b.dropped + 1 }
    else { stamped with pending := b.pending ++ [sampleOf s] }
  else b

/-- A row of one of the three history tables. -/
inductive Row where
  | history (ts : ℚ) (mode : Mode) (setpoint uRaw uApplied : ℚ) (fanPct : ℤ) (outputs : ℕ)
  | probe (ts : ℚ) (label : String) (temp : Option ℚ) (target : ℚ) (raw : Option ℚ) (ohms : ℚ)
  | ctrl (ts uFf p i d ff : ℚ) (ambient : Option ℚ) (flags : ℕ) (pmode : ℤ) (cycleS : ℚ)
  deriving DecidableEq

/-- The history tables, in the order a clear empties them. -/
inductive Table where
  | history
  | historyProbe
  | historyCtrl
  deriving DecidableEq

def Row.table : Row → Table
  | .history .. => .history
  | .probe .. => .historyProbe
  | .ctrl .. => .historyCtrl

/-- The rows of a sample, in the order they are inserted. -/
def HistSample.inserts (s : HistSample) : List Row :=
  .history s.ts s.mode s.setpoint s.uRaw s.uApplied s.fanPct s.outputs ::
    .ctrl s.ts s.uFf s.p s.i s.d s.ff s.ambient s.flags s.pmode s.cycleS ::
    s.probes.map fun probe => .probe s.ts probe.label probe.temp probe.target probe.raw probe.ohms

/-- The rows of the history, and those from before the open transaction if one is. -/
structure Db where
  rows : List Row
  before : Option (List Row)
  deriving DecidableEq

/-- How a statement ends: done, failed by itself, or failed with the transaction rolled
back by the database. -/
inductive Outcome where
  | done
  | failed
  | aborted
  deriving DecidableEq

namespace Db

def begin_ (db : Db) : Db := { db with before := some db.rows }

def insert (row : Row) (db : Db) : Db := { db with rows := db.rows ++ [row] }

def commit (db : Db) : Db := { db with before := none }

def rollback (db : Db) : Db := { rows := db.before.getD db.rows, before := none }

/-- Delete the rows of some tables. -/
def delete (tables : List Table) (db : Db) : Db :=
  { db with rows := db.rows.filter fun row => row.table ∉ tables }

end Db

/-- Where the flush is: nowhere, about to prepare and begin with its batch, at a row or
past the last one at the commit, or rolling back. -/
inductive Flush where
  | idle
  | copied (batch : List HistSample)
  | prepared (batch : List HistSample)
  | writing (todo : List Row)
  | rollingBack
  deriving DecidableEq

/-- The state of the buffer, the database and the two threads. A clear has emptied the
buffer while `clearing`, but not yet the tables. What the flush said it dropped is
`reported`. -/
structure State where
  buffer : Buffer
  db : Db
  flush : Flush
  clearing : Bool
  reported : ℕ

/-- What a thread does next. Taking a sample, clearing and emptying the tables are the
control thread's; the copy and the statements are the services thread's. -/
inductive Event where
  | record (s : Status) (now sampleS : ℚ)
  | clear
  | wipe (deleted : ℕ)
  | copy
  | serve (outcome : Outcome)

/-- The next statement of the flush. -/
def serve (outcome : Outcome) (s : State) : State :=
  match s.flush with
  | .idle => s
  | .copied batch =>
      match outcome with
      | .done => { s with flush := .prepared batch }
      | _ => { s with flush := .idle }
  | .prepared batch =>
      match outcome with
      | .done =>
          { s with db := s.db.begin_, flush := .writing (batch.flatMap HistSample.inserts) }
      | _ => { s with flush := .idle }
  | .writing (row :: todo) =>
      -- nobody looks at how an insert ends
      let db :=
        match outcome with
        | .done => s.db.insert row
        | .failed => s.db
        | .aborted => s.db.rollback
      { s with db := db, flush := .writing todo }
  | .writing [] =>
      if outcome = .done ∧ s.db.before.isSome then { s with db := s.db.commit, flush := .idle }
      else { s with flush := .rollingBack }
  | .rollingBack =>
      { s with db := if outcome = .done then s.db.rollback else s.db, flush := .idle }

/-- Copy the buffer: an empty batch is not written. -/
def copy (s : State) : State :=
  match s.flush with
  | .idle =>
      { s with
        buffer := { s.buffer with pending := [], dropped := 0 }
        reported := s.reported + s.buffer.dropped
        flush := if s.buffer.pending = [] then .idle else .copied s.buffer.pending }
  | _ => s

/-- Empty the tables: one call, which stops at the first statement that fails. -/
def wipe (deleted : ℕ) (s : State) : State :=
  if s.clearing then
    { s with
      db := s.db.delete ([Table.history, .historyProbe, .historyCtrl].take deleted)
      clearing := false }
  else s

/-- One event. A thread that is at something else does not take it. -/
def step : Event → State → State
  | .record st now sampleS, s =>
      if s.clearing then s else { s with buffer := record st now sampleS s.buffer }
  | .clear, s =>
      if s.clearing then s
      else { s with buffer := { s.buffer with pending := [] }, clearing := true }
  | .wipe deleted, s => wipe deleted s
  | .copy, s => copy s
  | .serve outcome, s => serve outcome s

/-- A daemon just started, over the rows it finds. -/
def init (rows : List Row) : State :=
  { buffer := { pending := [], lastSampleT := 0, dropped := 0 }
    db := { rows := rows, before := none }
    flush := .idle
    clearing := false
    reported := 0 }

/-- The status of a grill in Hold at this time, with its pit probe. -/
def benchStatus (wall : ℚ) : Status :=
  { wall := wall, mode := .hold, setpointC := 110, uRaw := 1 / 5, uApplied := 1 / 5, outputs := 3
    fanPct := 0, uFf := 1 / 5, ctrlDbg := { p := 0, i := 0, d := 0, ff := 0 }
    ambientC := some 20, cycleS := 25, lidOpen := false, sPlus := false, pwmControl := false
    targetReached := true, ssActive := false, ssProven := true, saturated := 0, pmode := 2
    sensors := [{ label := "pit", enabled := true, aux := false, tempC := some 109
                  targetC := 0, rawC := some 109, ohms := 0 }] }

end PiFire.History
