import PiFire.Transition.Threads
import PiFire.Transition.Run

/-!
# Probes polled while they are loaded anew

A poll reads the devices outside the lock, after it has counted itself as a reader
under it. A load or a shutdown waits under the lock until no reader is counted; it
then destroys the devices, clears the map and, for a load, builds both from the
settings. This file has the steps of any number of threads in these calls, between
the operations on the lock and on the condition.
-/

namespace PiFire.Probes

open Transition

/-- A driver's instance, by the number it was created as. -/
abbrev Inst := ℕ

/-- `PF_MAX_DEVICES`. -/
def maxDevices : ℕ := 8

/-- `PF_MAX_PROBES`. -/
def maxProbes : ℕ := 16

/-- `PF_MAX_PORTS`. -/
def maxPorts : ℕ := 8

/-- A device in the settings. `known` says whether there is a driver for its module,
`opens` whether that driver makes an instance. -/
structure DeviceSetting where
  name : String
  known : Bool
  opens : Bool
  ports : List String

/-- A probe in the settings. -/
structure ProbeSetting where
  label : String
  device : String
  port : String
  enabled : Bool

/-- `probe_settings.probe_map`. -/
structure ProbeMap where
  devices : List DeviceSetting
  probes : List ProbeSetting

/-- An entry of `g_dev`. -/
structure Device where
  name : String
  inst : Inst
  ports : List String

/-- What one device gave in a poll, and the instance it was read from. -/
structure Reading (ρ : Type) where
  device : ℕ
  inst : Inst
  samples : List ρ

/-- A probe of the map: where it is read, and the sample applied last. -/
structure Probe (ρ : Type) where
  label : String
  enabled : Bool
  dev : Option ℕ
  port : Option ℕ
  sample : Option ρ

/-- What `teardown` is called for. -/
inductive Job
  | init (map : Option ProbeMap)
  | shutdown

/-- Where a thread is. `load` is the number of the map that was in place when the poll
counted itself. -/
inductive Stage (ρ : Type)
  | out
  | entering
  /-- It has the lock, to read `g_ndev` and count itself. -/
  | counting
  /-- Between the devices; `i` is next. -/
  | polling (load ndev i : ℕ) (readings : List (Reading ρ))
  /-- In the driver's `read`. -/
  | inRead (load ndev i : ℕ) (inst : Inst) (readings : List (Reading ρ))
  | returning (load : ℕ) (readings : List (Reading ρ))
  /-- It has the lock, to apply what it read. -/
  | applying (load : ℕ) (readings : List (Reading ρ))
  | calling (job : Job)
  /-- It has the lock and looks at the count of readers. -/
  | testing (job : Job)
  /-- In `pthread_cond_wait`. -/
  | waiting (job : Job)
  /-- Woken, to take the lock again. -/
  | woken (job : Job)
  /-- It has the lock and these instances to destroy. -/
  | destroying (job : Job) (left : List Inst)
  /-- It has the lock and these devices to create. -/
  | creating (left : List DeviceSetting) (probes : List ProbeSetting)

namespace Stage

variable {ρ : Type}

/-- It has the lock. -/
def Inside : Stage ρ → Prop
  | counting | applying _ _ | testing _ | destroying _ _ | creating _ _ => True
  | _ => False

/-- It is counted in `g_reading`. -/
def Reads : Stage ρ → Prop
  | polling _ _ _ _ | inRead _ _ _ _ _ | returning _ _ | applying _ _ => True
  | _ => False

/-- It changes the devices and the map. -/
def Changes : Stage ρ → Prop
  | destroying _ _ | creating _ _ => True
  | _ => False

/-- The instance it is reading. -/
def inFlight : Stage ρ → Option Inst
  | inRead _ _ _ inst _ => some inst
  | _ => none

/-- `pthread_cond_broadcast`. -/
def signal : Stage ρ → Stage ρ
  | waiting job => woken job
  | s => s

end Stage

/-- What a poll applied: the map it read for, the one it applied to, what it read, and
the devices in place. -/
structure Applied (ρ : Type) where
  readFor : ℕ
  appliedTo : ℕ
  readings : List (Reading ρ)
  devices : List Device

/-- The data of the probe layer, and the threads. `loads` numbers the maps: it counts
how often the map was cleared. -/
structure State (Thread ρ : Type) where
  owner : Option Thread
  reading : ℕ
  devices : List Device
  probes : List (Probe ρ)
  loads : ℕ
  created : ℕ
  destroyed : List Inst
  applied : List (Applied ρ)
  stage : Thread → Stage ρ

namespace State

variable {Thread ρ : Type}

/-- Before the first load. -/
def start : State Thread ρ :=
  { owner := none
    reading := 0
    devices := []
    probes := []
    loads := 0
    created := 0
    destroyed := []
    applied := []
    stage := fun _ => .out }

/-- A probe as `pf_probes_init` builds it. -/
def buildProbe (devices : List Device) (p : ProbeSetting) : Probe ρ :=
  let dev := devices.findIdx? fun d => d.name == p.device
  { label := p.label
    enabled := p.enabled
    dev := dev
    port := (dev.bind (devices[·]?)).bind fun d => d.ports.findIdx? (· == p.port)
    sample := none }

/-- The sample a poll has for a probe: that of its port, where its device was read. -/
def sampleFor (readings : List (Reading ρ)) (p : Probe ρ) : Option ρ :=
  match p.dev, p.port with
  | some dev, some port =>
    ((readings.find? fun r => r.device == dev).map Reading.samples).bind (·[port]?)
  | _, _ => none

/-- The loop of `pf_probes_poll` over the map. -/
def applySamples (readings : List (Reading ρ)) (probes : List (Probe ρ)) : List (Probe ρ) :=
  probes.map fun p =>
    match sampleFor readings p with
    | some sample => if p.enabled then { p with sample := some sample } else p
    | none => p

variable [DecidableEq Thread]

/-- The thread comes to a stage. -/
def go (s : State Thread ρ) (t : Thread) (here : Stage ρ) : State Thread ρ :=
  { s with stage := Function.update s.stage t here }

/-- The thread takes the lock, where that is free, and comes to a stage. -/
def lock (s : State Thread ρ) (t : Thread) (here : Stage ρ) : State Thread ρ :=
  if s.owner = none then { s with owner := some t }.go t here else s

/-- The thread gives the lock back and comes to a stage. -/
def unlock (s : State Thread ρ) (t : Thread) (here : Stage ρ) : State Thread ρ :=
  { s with owner := none }.go t here

/-- A device is created, unless it is unknown, its driver makes no instance or the
table is full. -/
def create (s : State Thread ρ) (d : DeviceSetting) : State Thread ρ :=
  if s.devices.length < maxDevices ∧ d.known = true ∧ d.opens = true then
    { s with
      devices := s.devices ++ [⟨d.name, s.created, d.ports.take maxPorts⟩]
      created := s.created + 1 }
  else s

/-- The end of a poll: the thread is counted no more, those that wait are woken when it
was the last, and what it read is applied. -/
def apply (s : State Thread ρ) (load : ℕ) (readings : List (Reading ρ)) : State Thread ρ :=
  { s with
    reading := s.reading - 1
    stage := if s.reading - 1 = 0 then fun t => (s.stage t).signal else s.stage
    probes := applySamples readings s.probes
    applied := s.applied ++ [⟨load, s.loads, readings, s.devices⟩] }

/-- The next step of a thread in its call. `due` says whether a poll finds the time of
the device come. -/
def advance (s : State Thread ρ) (t : Thread) (due : Bool) : State Thread ρ :=
  match s.stage t with
  | .out | .inRead _ _ _ _ _ | .waiting _ => s
  | .entering => s.lock t .counting
  | .counting =>
    { s with reading := s.reading + 1 }.unlock t (.polling s.loads s.devices.length 0 [])
  | .polling load ndev i readings =>
    if i < ndev then
      match s.devices[i]? with
      | some d =>
        if due then s.go t (.inRead load ndev i d.inst readings)
        else s.go t (.polling load ndev (i + 1) readings)
      | none => s.go t (.polling load ndev (i + 1) readings)
    else s.go t (.returning load readings)
  | .returning load readings => s.lock t (.applying load readings)
  | .applying load readings => (s.apply load readings).unlock t .out
  | .calling job | .woken job => s.lock t (.testing job)
  | .testing job =>
    if 0 < s.reading then s.unlock t (.waiting job)
    else s.go t (.destroying job (s.devices.map Device.inst))
  | .destroying job (inst :: left) =>
    { s with destroyed := s.destroyed ++ [inst] }.go t (.destroying job left)
  | .destroying job [] =>
    let cleared := { s with devices := [], probes := [], loads := s.loads + 1 }
    match job with
    | .init (some map) => cleared.go t (.creating map.devices map.probes)
    | .init none | .shutdown => cleared.unlock t .out
  | .creating (d :: left) probes => (s.create d).go t (.creating left probes)
  | .creating [] probes =>
    { s with probes := (probes.take maxProbes).map (buildProbe s.devices) }.unlock t .out

/-- What may happen to a thread. -/
inductive Event (ρ : Type)
  /-- It calls `pf_probes_poll`. -/
  | poll
  /-- It calls `pf_probes_init` or `pf_probes_shutdown`. -/
  | call (job : Job)
  | advance (due : Bool)
  /-- The driver's `read` returns. -/
  | returns (samples : List ρ)
  /-- `pthread_cond_wait` wakes by itself. -/
  | wake

/-- One event of a thread; what it is not at a stage for changes nothing. -/
def happen (s : State Thread ρ) (t : Thread) (event : Event ρ) : State Thread ρ :=
  match event, s.stage t with
  | .poll, .out => s.go t .entering
  | .call job, .out => s.go t (.calling job)
  | .advance due, _ => s.advance t due
  | .returns samples, .inRead load ndev i inst readings =>
    s.go t (.polling load ndev (i + 1) (readings ++ [⟨i, inst, samples⟩]))
  | .wake, .waiting job => s.go t (.woken job)
  | _, _ => s

def step (i : Thread × Event ρ) (s : State Thread ρ) : State Thread ρ := s.happen i.1 i.2

/-- No instance that a thread is reading has been destroyed. -/
def NoneFreedInUse (s : State Thread ρ) : Prop :=
  ∀ t, ∀ inst ∈ (s.stage t).inFlight, inst ∉ s.destroyed

/-- What polls read was applied to the map it was read for, each device's samples to a
device of the instance they were read from. -/
def AppliedToOwn (s : State Thread ρ) : Prop :=
  ∀ a ∈ s.applied, a.readFor = a.appliedTo ∧
    ∀ r ∈ a.readings, (a.devices[r.device]?).map Device.inst = some r.inst

end State

end PiFire.Probes
