import Mathlib.Algebra.Order.Field.Rat
import Mathlib.Logic.Function.Basic

/-!
# Live events

Events are kept in a short ring with a generation count. A thread looks at the counts of the
status, of the events and of the alarms about ten times a second, and posts what is new into
the mailbox of every client; a writer for each client sends what is in its mailbox. The
newest status replaces one that is not sent yet, everything else queues in order. A thread
that has a new client posts the status as well.

The model has one client, which is there throughout. Between two steps of a thread any other
thread may take one; each step is one critical section. A status is the number of its
publication.
-/

namespace PiFire.Live

/-- `RING` -/
def ringSize : ℕ := 32

/-- How far a generation counts before it starts over. -/
def generations : ℕ := 2 ^ 32

/-- The last events, and how many there were. -/
structure EventRing (E : Type) where
  slots : ℕ → Option E
  head : ℕ
  len : ℕ
  gen : ℕ
  head_lt : head < ringSize

namespace EventRing

variable {E : Type}

/-- `emit_v`, as far as the ring goes. -/
def emit (e : E) (r : EventRing E) : EventRing E where
  slots := Function.update r.slots r.head (some e)
  head := (r.head + 1) % ringSize
  len := if r.len < ringSize then r.len + 1 else r.len
  gen := (r.gen + 1) % generations
  head_lt := Nat.mod_lt _ (by decide)

/-- `pf_events_recent_json`: the last events, the oldest of them first. -/
def recent (max_ : ℕ) (r : EventRing E) : List E :=
  let count := min r.len max_
  let start := (r.head + ringSize - count) % ringSize
  (List.range count).filterMap fun i => r.slots ((start + i) % ringSize)

end EventRing

/-- What is queued for a client. -/
inductive Message (E : Type) where
  | event (e : E)
  | alarms (gen : ℕ)

/-- What is written to a client. -/
inductive Frame (E : Type) where
  | message (m : Message E)
  | status (n : ℕ)

/-- The room for queued messages. -/
def queueSize : ℕ := 16

/-- `wsc`: the mailbox, what its writer has taken out of it, and what it has written. -/
structure Client (E : Type) where
  status : Option ℕ := none
  q : List (Message E) := []
  dead : Bool := false
  /-- the writer has taken what there was and is writing it -/
  writing : Bool := false
  batch : List (Message E) := []
  taken : Option ℕ := none
  /-- a write of this turn failed -/
  failed : Bool := false
  written : List (Frame E) := []

namespace Client

variable {E : Type}

/-- `ws_broadcast`: a message that there is no room for is dropped. -/
def broadcast (m : Message E) (c : Client E) : Client E :=
  if c.dead then c
  else if c.q.length < queueSize then { c with q := c.q ++ [m] }
  else c

/-- `ws_broadcast_ex` of a status: it replaces one that is not taken yet. -/
def broadcastStatus (n : ℕ) (c : Client E) : Client E :=
  if c.dead then c else { c with status := some n }

/-- The writer takes what is in the mailbox. -/
def take (c : Client E) : Client E :=
  if c.writing = false ∧ (c.status ≠ none ∨ c.q ≠ []) then
    { c with
      writing := true
      batch := c.q
      q := []
      taken := c.status
      status := none
      failed := c.dead }
  else c

/-- One frame is written, unless a write failed before. -/
def put (f : Frame E) (ok : Bool) (c : Client E) : Client E :=
  if c.failed then c
  else if ok then { c with written := c.written ++ [f] }
  else { c with failed := true }

/-- The writer writes the next of what it has taken, the status last; then its turn is
over. -/
def write (ok : Bool) (c : Client E) : Client E :=
  if c.writing then
    match c.batch, c.taken with
    | m :: rest, _ => { put (.message m) ok c with batch := rest }
    | [], some n => { put (.status n) ok c with taken := none }
    | [], none => { c with writing := false, dead := c.dead || c.failed }
  else c

end Client

/-- Where the push thread is in its turn. -/
inductive Place (E : Type) where
  /-- to look at the status -/
  | poll
  /-- to copy the status -/
  | copying
  /-- to post this status -/
  | posting (n : ℕ)
  /-- to look at the events -/
  | events
  /-- to read the last event -/
  | recent
  /-- to post this event -/
  | sending (e : E)
  /-- to look at the alarms -/
  | alarms
  /-- to post this change of the alarms -/
  | noting (gen : ℕ)

/-- The push thread. -/
structure Pusher (E : Type) where
  place : Place E := .poll
  lastGen : ℕ := 0
  lastEv : ℕ
  lastAlm : ℕ
  lastPush : ℚ := 0

/-- The threads with what they share; and the events that were emitted. -/
structure World (E : Type) where
  ring : EventRing E
  /-- the number of the status there is -/
  status : ℕ
  statusGen : ℕ
  alarmsGen : ℕ
  pusher : Pusher E
  /-- the statuses that threads with a new client have copied and not posted -/
  copies : List ℕ
  client : Client E
  emitted : List E

/-- A step of one of the threads. -/
inductive Move (E : Type) where
  | emit (e : E)
  /-- a status is published -/
  | publish
  /-- the alarms change -/
  | alarm
  /-- the push thread goes on, at this time -/
  | push (now : ℚ)
  /-- a thread with a new client copies the status -/
  | copy
  /-- one of these posts its copy -/
  | post (i : ℕ)
  | take
  | write (ok : Bool)

namespace World

variable {E : Type}

/-- `push_thread`, one step. -/
def push (now : ℚ) (w : World E) : World E :=
  let p := w.pusher
  match p.place with
  | .poll =>
      if (w.statusGen ≠ p.lastGen ∧ now - p.lastPush ≥ 1) ∨ now - p.lastPush ≥ 5 then
        { w with pusher := { p with lastGen := w.statusGen, lastPush := now, place := .copying } }
      else { w with pusher := { p with place := .events } }
  | .copying => { w with pusher := { p with place := .posting w.status } }
  | .posting n =>
      { w with client := w.client.broadcastStatus n, pusher := { p with place := .events } }
  | .events =>
      if w.ring.gen ≠ p.lastEv then
        { w with pusher := { p with lastEv := w.ring.gen, place := .recent } }
      else { w with pusher := { p with place := .alarms } }
  | .recent =>
      match w.ring.recent 1 with
      | e :: _ => { w with pusher := { p with place := .sending e } }
      | [] => { w with pusher := { p with place := .alarms } }
  | .sending e =>
      { w with
        client := w.client.broadcast (.event e)
        pusher := { p with place := .alarms } }
  | .alarms =>
      if w.alarmsGen ≠ p.lastAlm then
        { w with pusher := { p with lastAlm := w.alarmsGen, place := .noting w.alarmsGen } }
      else { w with pusher := { p with place := .poll } }
  | .noting gen =>
      { w with
        client := w.client.broadcast (.alarms gen)
        pusher := { p with place := .poll } }

def step (m : Move E) (w : World E) : World E :=
  match m with
  | .emit e => { w with ring := w.ring.emit e, emitted := w.emitted ++ [e] }
  | .publish =>
      { w with status := w.status + 1, statusGen := (w.statusGen + 1) % generations }
  | .alarm => { w with alarmsGen := (w.alarmsGen + 1) % generations }
  | .push now => w.push now
  | .copy => { w with copies := w.copies ++ [w.status] }
  | .post i =>
      match w.copies[i]? with
      | some n =>
          { w with client := w.client.broadcastStatus n, copies := w.copies.eraseIdx i }
      | none => w
  | .take => { w with client := w.client.take }
  | .write ok => { w with client := w.client.write ok }

/-- The push thread as it starts, with a client that has just come: what was emitted before
is in the ring. -/
def start (ring : EventRing E) (status statusGen alarmsGen : ℕ) : World E where
  ring := ring
  status := status
  statusGen := statusGen
  alarmsGen := alarmsGen
  pusher := { lastEv := ring.gen, lastAlm := alarmsGen }
  copies := []
  client := {}
  emitted := []

end World

end PiFire.Live
