import PiFire.Transition.Run
import Mathlib.Data.Fintype.Basic
import Mathlib.Data.List.FinRange

/-!
# The Bluetooth manager

Drivers register a device and get a slot, and unregister it before they free what
the callbacks are given. Unregistering marks the slot; the manager's thread gives it
free when it next comes by. Until then the thread also handles signals of the bus
and the queue of writes, which hold on to slots. This file has these steps; what the
bus and the clock say is given with each.
-/

namespace PiFire.Ble

open Transition

/-- `MAX_DEVS`. -/
def maxDevs : ℕ := 16

/-- `QLEN`. -/
def queueLength : ℕ := 32

/-- `state_t`. -/
inductive Link
  | idle
  | found
  | connecting
  | connected
  | ready
  | backoff
  deriving DecidableEq

/-- The callbacks of a device. -/
inductive Callback
  | connected
  | disconnected
  | value
  deriving DecidableEq

/-- `pf_ble_spec`. `login` is what the driver's `on_connected` writes. -/
structure Spec where
  passive : Bool
  manufacturerId : ℕ
  address : Option String
  has : Callback → Bool
  login : List String

/-- `pf_ble_dev`. `reg` numbers the registration that the slot is for; the callbacks are
given the context of that registration. -/
structure Slot where
  used : Bool
  wantRelease : Bool
  spec : Spec
  reg : ℕ
  st : Link
  path : Option String
  /-- the characteristics, with their objects on the bus -/
  chars : List (String × String)
  connected : Bool

/-- A slot before anything is registered. -/
def Slot.zero : Slot :=
  { used := false
    wantRelease := false
    spec := ⟨false, 0, none, fun _ => false, []⟩
    reg := 0
    st := .idle
    path := none
    chars := []
    connected := false }

/-- `wreq_t`, and the registration it was queued for. -/
structure Write where
  slot : Fin maxDevs
  uuid : String
  reg : ℕ

/-- A callback that was invoked with the context of a registration, and those that had
been unregistered by then. -/
structure Call where
  callback : Callback
  reg : ℕ
  gone : List ℕ
  deriving DecidableEq

/-- A write that was sent. -/
structure Sent where
  queuedFor : ℕ
  sentTo : ℕ

/-- Where the manager's thread is in its loop. -/
inductive Doing
  /-- It handles messages of the bus. -/
  | polling
  /-- In `process_writes`, for the next of the queue. -/
  | draining
  /-- It has taken this write from the queue. -/
  | sending (w : Write)
  /-- It found the queue empty and comes to its round over the slots. -/
  | stepping

/-- The manager's data. -/
structure Manager where
  slots : Fin maxDevs → Slot
  queue : List Write
  doing : Doing
  /-- how many registrations there were, and the slot each got -/
  registered : ℕ
  handle : ℕ → Option (Fin maxDevs)
  /-- the registrations whose `pf_ble_unregister` has returned -/
  gone : List ℕ
  calls : List Call
  sent : List Sent

/-- What the bus and the clock say to one slot in a step of the manager. -/
structure Answers where
  /-- the time of the slot's next action has come -/
  due : Bool
  late : Bool
  /-- nothing was heard for a minute -/
  silent : Bool
  /-- an object that matches -/
  object : Option String
  connected : Option Bool
  /-- `Connect` succeeds, or fails as the object is unknown -/
  connects : Bool
  unknown : Bool
  resolved : Bool
  chars : List (String × String)
  /-- the polled characteristics that gave a value -/
  values : List String
  /-- the length of the manufacturer data, `none` where the object is gone -/
  mfr : Option ℕ

namespace Manager

def start : Manager :=
  { slots := fun _ => Slot.zero
    queue := []
    doing := .polling
    registered := 0
    handle := fun _ => none
    gone := []
    calls := []
    sent := [] }

/-- A slot is changed. -/
def update (m : Manager) (i : Fin maxDevs) (f : Slot → Slot) : Manager :=
  { m with slots := Function.update m.slots i (f (m.slots i)) }

/-- `pf_ble_write`. -/
def enqueue (m : Manager) (w : Write) : Manager :=
  if m.queue.length < queueLength then { m with queue := m.queue ++ [w] } else m

/-- What a driver's callback does: `on_connected` sends its login. -/
def react (m : Manager) (i : Fin maxDevs) : Callback → Manager
  | .connected =>
    (m.slots i).spec.login.foldl (fun m uuid => enqueue m ⟨i, uuid, (m.slots i).reg⟩) m
  | _ => m

/-- A callback of the slot's device, where it has one. -/
def invoke (m : Manager) (i : Fin maxDevs) (callback : Callback) : Manager :=
  if (m.slots i).spec.has callback then
    react { m with calls := m.calls ++ [⟨callback, (m.slots i).reg, m.gone⟩] } i callback
  else m

/-- The device is heard of as connected, for the first time or again. -/
def connect (m : Manager) (i : Fin maxDevs) : Manager :=
  if (m.slots i).connected then m
  else (m.update i fun d => { d with connected := true }).invoke i .connected

/-- `dev_disconnected`. -/
def disconnect (m : Manager) (i : Fin maxDevs) : Manager :=
  let was := (m.slots i).connected
  let m := m.update i fun d => { d with connected := false }
  let m := if was then m.invoke i .disconnected else m
  m.update i fun d => { d with st := .backoff, chars := [] }

/-- `passive_step`. -/
def passiveStep (m : Manager) (i : Fin maxDevs) (a : Answers) : Manager :=
  if !a.due then m
  else match (m.slots i).path with
    | none =>
      match a.object with
      | some path => m.update i fun d => { d with path := some path, st := .ready }
      | none => m
    | some _ =>
      match a.mfr with
      | none =>
        (m.update i fun d => { d with path := none, st := .idle, connected := false }).invoke i
          .disconnected
      | some length =>
        if 0 < length then (m.connect i).invoke i .value
        else if (m.slots i).connected && a.silent then
          (m.update i fun d => { d with connected := false }).invoke i .disconnected
        else m

/-- The polled characteristics of a device that is ready. -/
def deliver (m : Manager) (i : Fin maxDevs) (values : List String) : Manager :=
  values.foldl (fun m _ => m.invoke i .value) m

/-- `dev_step`. -/
def devStep (m : Manager) (i : Fin maxDevs) (a : Answers) : Manager :=
  if (m.slots i).spec.passive then m.passiveStep i a
  else match (m.slots i).st with
    | .idle =>
      match a.object with
      | some path => m.update i fun d => { d with path := some path, st := .found }
      | none => m
    | .backoff =>
      if a.due then
        m.update i fun d => { d with st := if d.path.isSome then .found else .idle }
      else m
    | .found =>
      if a.connected = some true ∨ a.connects = true then
        m.update i fun d => { d with st := .connecting }
      else m.update i fun d =>
        { d with path := if a.unknown then none else d.path, st := .backoff }
    | .connecting =>
      if a.connected = some true ∧ a.resolved = true then
        (m.update i fun d =>
          { d with chars := a.chars, connected := true, st := .ready }).invoke i .connected
      else if a.connected ≠ some true ∧ a.due = true ∨ a.late = true then m.disconnect i
      else m
    | .ready => if a.connected = some true then m.deliver i a.values else m.disconnect i
    | .connected => m

/-- The manager comes by a slot. -/
def visit (answers : Fin maxDevs → Answers) (m : Manager) (i : Fin maxDevs) : Manager :=
  if (m.slots i).wantRelease then
    m.update i fun d => { d with used := false, wantRelease := false }
  else if (m.slots i).used then m.devStep i (answers i)
  else m

/-- One round of the manager over all slots, under the lock. -/
def round (m : Manager) (answers : Fin maxDevs → Answers) : Manager :=
  (List.finRange maxDevs).foldl (visit answers) m

/-- The slot that listens to an object. -/
def listener (m : Manager) (path : String) : Option (Fin maxDevs) :=
  (List.finRange maxDevs).find? fun i =>
    (m.slots i).used && (m.slots i).spec.passive && (m.slots i).path == some path

/-- A slot pinned to an address that has no object yet. -/
def claimant (m : Manager) (address : Option String) : Option (Fin maxDevs) :=
  (List.finRange maxDevs).find? fun i =>
    (m.slots i).used && (m.slots i).spec.passive && (m.slots i).path == none &&
      address.isSome && (m.slots i).spec.address == address

/-- The slot a signal of `Device1` is for. -/
def receiver (m : Manager) (path : String) (address : Option String) : Option (Fin maxDevs) :=
  match m.listener path with
  | some i => some i
  | none => m.claimant address

/-- A slot that had no object listens to this one. -/
def listen (path : String) (d : Slot) : Slot :=
  match d.path with
  | none => { d with path := some path, st := .ready }
  | some _ => d

/-- The payloads of an advertisement, company and length: those of the device's maker are
handed on. -/
def hear (m : Manager) (i : Fin maxDevs) : List (ℕ × ℕ) → Manager
  | [] => m
  | (id, length) :: payloads =>
    if id = (m.slots i).spec.manufacturerId ∧ 0 < length then
      hear ((m.connect i).invoke i .value) i payloads
    else hear m i payloads

/-- `on_device_props_changed`. -/
def onDevice (m : Manager) (path : String) (address : Option String)
    (payloads : List (ℕ × ℕ)) : Manager :=
  match m.receiver path address with
  | some i => (m.update i (listen path)).hear i payloads
  | none => m

/-- A slot's part of `on_props_changed` for a characteristic. -/
def onValueAt (path : String) (m : Manager) (i : Fin maxDevs) : Manager :=
  if (m.slots i).used && (m.slots i).st == .ready then
    m.deliver i (((m.slots i).chars.filter fun c => c.2 == path).map Prod.fst)
  else m

/-- `on_props_changed` for a characteristic. -/
def onValue (m : Manager) (path : String) : Manager :=
  (List.finRange maxDevs).foldl (onValueAt path) m

/-- A slot of a passive device that waits for its release needs no bus call. -/
def reclaim (d : Slot) : Slot :=
  if d.used && d.wantRelease && d.spec.passive then
    { d with used := false, wantRelease := false }
  else d

/-- A slot is given to a new registration. -/
def give (m : Manager) (i : Fin maxDevs) (spec : Spec) : Manager :=
  { m with
    slots := Function.update m.slots i
      { Slot.zero with used := true, spec := spec, reg := m.registered }
    registered := m.registered + 1
    handle := Function.update m.handle m.registered (some i) }

/-- `pf_ble_register`. -/
def register (m : Manager) (spec : Spec) : Manager :=
  let m := { m with slots := fun i => reclaim (m.slots i) }
  match (List.finRange maxDevs).find? fun i => !(m.slots i).used with
  | some i => m.give i spec
  | none => m

/-- The slot of a registration that is not unregistered. -/
def slotOf (m : Manager) (reg : ℕ) : Option (Fin maxDevs) :=
  if reg ∈ m.gone then none else m.handle reg

/-- `pf_ble_unregister`. -/
def unregister (m : Manager) (reg : ℕ) : Manager :=
  match m.slotOf reg with
  | some i => { m.update i fun d => { d with wantRelease := true } with gone := reg :: m.gone }
  | none => m

/-- A driver queues a write for its device. -/
def write (m : Manager) (reg : ℕ) (uuid : String) : Manager :=
  match m.slotOf reg with
  | some i => m.enqueue ⟨i, uuid, reg⟩
  | none => m

/-- A second has passed and the adapter is ready. -/
def wake (m : Manager) : Manager :=
  match m.doing with
  | .polling => { m with doing := .draining }
  | _ => m

/-- The first part of `process_writes`: a write leaves the queue. -/
def take (m : Manager) : Manager :=
  match m.doing, m.queue with
  | .draining, w :: queue => { m with queue := queue, doing := .sending w }
  | .draining, [] => { m with doing := .stepping }
  | _, _ => m

/-- A write can be sent to its slot: the device there is ready and has the
characteristic. -/
def sendable (m : Manager) (w : Write) : Bool :=
  (m.slots w.slot).st == .ready && (m.slots w.slot).chars.any fun c => c.1 == w.uuid

/-- The second part: it is sent, if it can be. -/
def send (m : Manager) : Manager :=
  match m.doing with
  | .sending w =>
    if m.sendable w then
      { m with doing := .draining, sent := m.sent ++ [⟨w.reg, (m.slots w.slot).reg⟩] }
    else { m with doing := .draining }
  | _ => m

/-- What may happen next: a call of a driver, or the next thing the manager's thread
does. -/
inductive Event
  | register (spec : Spec)
  | unregister (reg : ℕ)
  | write (reg : ℕ) (uuid : String)
  | wake
  | take
  | send
  | round (answers : Fin maxDevs → Answers)
  | onDevice (path : String) (address : Option String) (payloads : List (ℕ × ℕ))
  | onValue (path : String)

/-- One event; what the manager's thread is not at changes nothing. -/
def step : Event → Manager → Manager
  | .register spec, m => m.register spec
  | .unregister reg, m => m.unregister reg
  | .write reg uuid, m => m.write reg uuid
  | .wake, m => m.wake
  | .take, m => m.take
  | .send, m => m.send
  | .round answers, m =>
    match m.doing with
    | .stepping => { m.round answers with doing := .polling }
    | _ => m
  | .onDevice path address payloads, m =>
    match m.doing with
    | .polling => m.onDevice path address payloads
    | _ => m
  | .onValue path, m =>
    match m.doing with
    | .polling => m.onValue path
    | _ => m

/-- No callback was invoked for a device that was unregistered. -/
def NoneAfter (m : Manager) : Prop := ∀ c ∈ m.calls, c.reg ∉ c.gone

/-- No write was sent to another device than the one it was queued for. -/
def NoneStray (m : Manager) : Prop := ∀ w ∈ m.sent, w.queuedFor = w.sentTo

end Manager

end PiFire.Ble
