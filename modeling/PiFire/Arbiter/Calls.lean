import PiFire.Control.Common
import PiFire.Transition.Run
import Mathlib.Data.Bool.Basic

/-!
# Platform drivers

A platform switches the four output lines and drives the fan. The arbiter needs
little of one: driving everything off leaves every line off, and no write that
switches off switches anything on. The simulator and the relay board are two
such platforms; on both the driver's own writes succeed.
-/

namespace PiFire

/-- The operations of a platform on an instance of it, each write with the code
it returns. -/
structure PlatformOps where
  Inst : Type
  /-- Whether an output line is on. -/
  line : Inst → Output → Bool
  /-- Whether the fan's duty line is driven. -/
  fanDriven : Inst → Bool
  setOutput : Inst → Output → Bool → Inst × ℤ
  setFanPct : Inst → ℤ → Inst × ℤ
  setPwmFrequency : Inst → ℤ → Inst × ℤ
  allOff : Inst → Inst

/-- No line of the instance is on. -/
def PlatformOps.Dark (ops : PlatformOps) (inst : ops.Inst) : Prop :=
  (∀ o, ops.line inst o = false) ∧ ops.fanDriven inst = false

/-- A platform whose writes do what they say. -/
structure Platform extends PlatformOps where
  allOff_dark : ∀ inst, toPlatformOps.Dark (allOff inst)
  setOutput_off_dark : ∀ inst o, toPlatformOps.Dark inst →
    toPlatformOps.Dark (setOutput inst o false).1
  setFanPct_dark : ∀ inst pct, pct ≤ 0 → toPlatformOps.Dark inst →
    toPlatformOps.Dark (setFanPct inst pct).1
  setPwmFrequency_dark : ∀ inst hz, toPlatformOps.Dark inst →
    toPlatformOps.Dark (setPwmFrequency inst hz).1

/-- The output side of the simulated grill. -/
structure SimState where
  out : Output → Bool
  fanPct : ℤ

def simSetOutput (m : SimState) (o : Output) (on : Bool) : SimState × ℤ :=
  let pct := if o = .fan ∧ on = false then 0 else m.fanPct
  ({ out := Function.update m.out o on
     fanPct := if o = .fan ∧ on = true ∧ pct = 0 then 100 else pct }, 0)

/-- The simulator. -/
def simOps : PlatformOps where
  Inst := SimState
  line m o := m.out o
  fanDriven m := 0 < m.fanPct
  setOutput := simSetOutput
  setFanPct m pct := ({ m with fanPct := pct }, 0)
  setPwmFrequency m _ := (m, 0)
  allOff _ := { out := fun _ => false, fanPct := 0 }

/-- Nothing of the simulated grill is on. -/
def SimState.Dark (m : SimState) : Prop :=
  (∀ o, m.out o = false) ∧ m.fanPct ≤ 0

theorem simOps_dark {m : SimState} : simOps.Dark m ↔ m.Dark := by
  simp [PlatformOps.Dark, SimState.Dark, simOps]

theorem simSetOutput_dark {m : SimState} (dark : m.Dark) (o : Output) :
    (simSetOutput m o false).1.Dark := by
  constructor
  · intro other
    by_cases same : other = o
    · simp [simSetOutput, same]
    · simpa [simSetOutput, Function.update_of_ne same] using dark.1 other
  · by_cases fan : o = .fan
    · simp [simSetOutput, fan]
    · simpa [simSetOutput, fan] using dark.2

def platformSim : Platform where
  toPlatformOps := simOps
  allOff_dark _ := simOps_dark.mpr ⟨fun _ => rfl, le_refl 0⟩
  setOutput_off_dark _ o dark := simOps_dark.mpr (simSetOutput_dark (simOps_dark.mp dark) o)
  setFanPct_dark _ _ off dark := simOps_dark.mpr ⟨(simOps_dark.mp dark).1, off⟩
  setPwmFrequency_dark _ _ dark := dark

/-- The board's instance: which lines it could claim, what each was last driven
to, and the fan's hardware PWM where it has one. -/
structure RpiState where
  claimed : Output → Bool
  state : Output → Bool
  /-- Whether the PWM is enabled, where it is there. -/
  pwm : Option Bool
  pwmHz : ℤ
  fanPct : ℤ
  dcFan : Bool

/-- Setting the PWM's period and duty; the frequency must be positive. -/
def pwmConfig (hz : ℤ) : ℤ :=
  if hz ≤ 0 then -22 else 0

def rpiSetOutput (r : RpiState) (o : Output) (on : Bool) : RpiState × ℤ :=
  if r.claimed o = false then (r, -1)
  else
    let driven := { r with state := Function.update r.state o on }
    if o = .fan ∧ r.pwm.isSome then
      ({ driven with
         pwm := some on
         fanPct := if on then (if r.fanPct = 0 then 100 else r.fanPct) else 0 }, 0)
    else (driven, 0)

def rpiSetFanPct (r : RpiState) (pct : ℤ) : RpiState × ℤ :=
  if r.dcFan = false then (r, 0)
  else
    ({ r with fanPct := min 100 (max 0 pct) }, if r.pwm.isSome then pwmConfig r.pwmHz else 0)

def rpiSetPwmFrequency (r : RpiState) (hz : ℤ) : RpiState × ℤ :=
  if hz ≤ 0 then (r, -1)
  else ({ r with pwmHz := hz }, if r.pwm.isSome then pwmConfig hz else 0)

def rpiAllOff (r : RpiState) : RpiState :=
  { r with
    state := fun o => if r.claimed o then false else r.state o
    pwm := r.pwm.map fun _ => false
    fanPct := 0 }

/-- The relay board. -/
def rpiOps : PlatformOps where
  Inst := RpiState
  line r o := r.claimed o && r.state o
  fanDriven r := r.pwm.getD false
  setOutput := rpiSetOutput
  setFanPct := rpiSetFanPct
  setPwmFrequency := rpiSetPwmFrequency
  allOff := rpiAllOff

/-- No line the board has claimed is on, and its PWM is not enabled. -/
def RpiState.Dark (r : RpiState) : Prop :=
  (∀ o, r.claimed o = true → r.state o = false) ∧ r.pwm ≠ some true

theorem rpiOps_dark {r : RpiState} : rpiOps.Dark r ↔ r.Dark := by
  rcases pwm : r.pwm with _ | enabled <;>
    simp [PlatformOps.Dark, RpiState.Dark, rpiOps, pwm]

theorem rpiAllOff_dark (r : RpiState) : (rpiAllOff r).Dark := by
  constructor
  · intro o claimed
    exact if_pos claimed
  · rcases pwm : r.pwm with _ | enabled <;> simp [rpiAllOff, pwm]

theorem rpiSetOutput_dark {r : RpiState} (dark : r.Dark) (o : Output) :
    (rpiSetOutput r o false).1.Dark := by
  have driven : ∀ other, r.claimed other = true →
      Function.update r.state o false other = false := by
    intro other claimed
    by_cases same : other = o
    · simp [same]
    · simpa [Function.update_of_ne same] using dark.1 other claimed
  unfold rpiSetOutput
  split
  · exact dark
  · simp only
    split
    · exact ⟨driven, by simp⟩
    · exact ⟨driven, dark.2⟩

theorem rpiSetFanPct_dark {r : RpiState} (dark : r.Dark) (pct : ℤ) :
    (rpiSetFanPct r pct).1.Dark := by
  unfold rpiSetFanPct
  split <;> exact dark

theorem rpiSetPwmFrequency_dark {r : RpiState} (dark : r.Dark) (hz : ℤ) :
    (rpiSetPwmFrequency r hz).1.Dark := by
  unfold rpiSetPwmFrequency
  split <;> exact dark

def platformRpi : Platform where
  toPlatformOps := rpiOps
  allOff_dark r := rpiOps_dark.mpr (rpiAllOff_dark r)
  setOutput_off_dark _ o dark := rpiOps_dark.mpr (rpiSetOutput_dark (rpiOps_dark.mp dark) o)
  setFanPct_dark _ pct _ dark := rpiOps_dark.mpr (rpiSetFanPct_dark (rpiOps_dark.mp dark) pct)
  setPwmFrequency_dark _ hz dark :=
    rpiOps_dark.mpr (rpiSetPwmFrequency_dark (rpiOps_dark.mp dark) hz)

end PiFire

/-!
# Calls of the output arbiter

The arbiter is called from any number of threads at once. A call checks the
latch, waits for the lock, checks again, drives the platform, brings its books
up to date and gives the lock back; each of these is one step of its thread. The
emergency off sets the latch first and waits for the lock only so long: if it
does not obtain it, it drives the outputs off without.
-/

namespace PiFire

open Transition

/-- The calls of the arbiter, with what names an output. -/
inductive Call (O Inst : Type) where
  | set (o : O) (on : Bool)
  | fanPct (pct : ℤ)
  | pwmFrequency (hz : ℤ)
  | allOff
  /-- An input's level or the platform's status is read. -/
  | read
  | init (inst : Inst)
  | shutdown
  | emergencyOff

/-- Whether the call switches something on. -/
def Call.energises {O Inst : Type} : Call O Inst → Bool
  | .set _ on => on
  | .fanPct pct => 0 < pct
  | _ => false

/-- Where a thread is in its call. -/
inductive Stage (Inst : Type) where
  /-- In no call; its last one returned the code. -/
  | returned (rc : ℤ)
  | waiting (call : Call Output Inst)
  /-- It has the lock; the second check is next. -/
  | holding (call : Call Output Inst)
  | writing (call : Call Output Inst)
  /-- The platform returned the code; the books are next. -/
  | booking (call : Call Output Inst) (rc : ℤ)
  | leaving (call : Call Output Inst) (rc : ℤ)
  /-- An emergency off that did not obtain the lock. -/
  | forcing
  | forced

namespace Stage

variable {Inst : Type}

/-- Whether a thread at this stage holds the lock. -/
def Inside : Stage Inst → Prop
  | holding _ | writing _ | booking _ _ | leaving _ _ => True
  | _ => False

/-- Whether the next step drives the platform with something to switch on. -/
def Energising : Stage Inst → Prop
  | writing call => call.energises = true
  | _ => False

end Stage

/-- The arbiter's data, and the threads that call it. -/
structure Arbiter (P : Platform) (Thread : Type) where
  latched : Bool
  owner : Option Thread
  /-- The platform's instance, where there is one. -/
  inst : Option P.Inst
  state : Output → Bool
  fanPct : ℤ
  stage : Thread → Stage P.Inst

namespace Arbiter

variable {P : Platform} {Thread : Type}

/-- The arbiter as the process finds it, no thread in a call. -/
def start (inst : Option P.Inst) : Arbiter P Thread :=
  { latched := false
    owner := none
    inst := inst
    state := fun _ => false
    fanPct := 0
    stage := fun _ => .returned 0 }

/-- The books as the rest of the program reads them. -/
def outputs (a : Arbiter P Thread) : Outputs :=
  { power := a.state .power
    fan := a.state .fan
    auger := a.state .auger
    igniter := a.state .igniter
    fanPct := a.fanPct }

/-- No output line is on. -/
def Dark (a : Arbiter P Thread) : Prop :=
  ∀ inst ∈ a.inst, P.Dark inst

/-- A call up to its wait for the lock: the range of the output, the latch. Only
these calls look at the latch here; the emergency off sets it. -/
def begin (a : Arbiter P Thread) : Call ℕ P.Inst → Stage P.Inst
  | .set o on =>
      match Output.all[o]? with
      | none => .returned (-22)
      | some output => if a.latched then .returned (-1) else .waiting (.set output on)
  | .fanPct pct => if a.latched then .returned (-1) else .waiting (.fanPct pct)
  | .pwmFrequency hz => if a.latched then .returned (-1) else .waiting (.pwmFrequency hz)
  | .allOff => .waiting .allOff
  | .read => .waiting .read
  | .init inst => .waiting (.init inst)
  | .shutdown => .waiting .shutdown
  | .emergencyOff => .waiting .emergencyOff

/-- The latch after the first step of a call. -/
def latchedBy (latched : Bool) : Call ℕ P.Inst → Bool
  | .emergencyOff => true
  | _ => latched

/-- The second check, under the lock: a call that switches something on is
refused when the latch is set. -/
def recheck (a : Arbiter P Thread) (call : Call Output P.Inst) : Stage P.Inst :=
  if a.latched = true ∧ call.energises = true then .leaving call (-1) else .writing call

/-- Drive the platform: the instance afterwards, and the stage the call comes to. -/
def write (a : Arbiter P Thread) (call : Call Output P.Inst) : Option P.Inst × Stage P.Inst :=
  match call, a.inst with
  | .set o on, some inst =>
      if a.state o ≠ on then
        let written := P.setOutput inst o on
        (some written.1, .booking call written.2)
      else (some inst, .leaving call 0)
  | .fanPct pct, some inst =>
      let written := P.setFanPct inst pct
      (some written.1, .booking call written.2)
  | .pwmFrequency hz, some inst =>
      let written := P.setPwmFrequency inst hz
      (some written.1, .leaving call written.2)
  | .set _ _, none => (none, .leaving call (-19))
  | .fanPct _, none => (none, .leaving call (-19))
  | .pwmFrequency _, none => (none, .leaving call (-19))
  | .allOff, inst => (inst.map P.allOff, .booking call 0)
  | .emergencyOff, inst => (inst.map P.allOff, .booking call 0)
  | .read, inst => (inst, .leaving call 0)
  | .init inst, _ => (some (P.allOff inst), .booking call 0)
  -- The instance is driven off before it is destroyed.
  | .shutdown, _ => (none, .leaving call 0)

/-- The books after the platform returned a code. -/
def book (a : Arbiter P Thread) (rc : ℤ) : Call Output P.Inst → (Output → Bool) × ℤ
  | .set o on =>
      (if rc = 0 then Function.update a.state o on else a.state,
        if o = .fan ∧ on = false then 0 else a.fanPct)
  | .fanPct pct => (a.state, if rc = 0 then pct else a.fanPct)
  | .allOff | .init _ | .emergencyOff => (fun _ => false, 0)
  | _ => (a.state, a.fanPct)

variable [DecidableEq Thread]

/-- The thread comes to a stage. -/
def go (a : Arbiter P Thread) (t : Thread) (s : Stage P.Inst) : Arbiter P Thread :=
  { a with stage := Function.update a.stage t s }

/-- What may happen to a thread. -/
inductive Event (Inst : Type) where
  | call (call : Call ℕ Inst)
  | advance
  /-- The emergency off's wait for the lock runs out. -/
  | timeout

/-- A thread that is in no call makes one. -/
def enter (a : Arbiter P Thread) (t : Thread) (call : Call ℕ P.Inst) : Arbiter P Thread :=
  match a.stage t with
  | .returned _ => { a with latched := latchedBy a.latched call }.go t (a.begin call)
  | _ => a

/-- The next step of a thread's call. -/
def advance (a : Arbiter P Thread) (t : Thread) : Arbiter P Thread :=
  match a.stage t with
  | .returned _ => a
  | .waiting call =>
      if a.owner = none then { a with owner := some t }.go t (.holding call) else a
  | .holding call => a.go t (a.recheck call)
  | .writing call => { a with inst := (a.write call).1 }.go t (a.write call).2
  | .booking call rc =>
      { a with state := (a.book rc call).1, fanPct := (a.book rc call).2 }.go t
        (.leaving call rc)
  | .leaving _ rc => { a with owner := none }.go t (.returned rc)
  | .forcing => { a with inst := a.inst.map P.allOff }.go t .forced
  | .forced => { a with state := fun _ => false, fanPct := 0 }.go t (.returned (-16))

/-- One event of a thread; what a thread is not at a stage for changes nothing. -/
def step : Thread × Event P.Inst → Arbiter P Thread → Arbiter P Thread
  | (t, .call call), a => a.enter t call
  | (t, .advance), a => a.advance t
  | (t, .timeout), a =>
      match a.stage t with
      | .waiting .emergencyOff => a.go t .forcing
      | _ => a

end Arbiter

end PiFire
