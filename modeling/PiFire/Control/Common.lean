import Mathlib.Algebra.Order.Field.Rat
import Mathlib.Data.Rat.Floor

/-!
# Common types of the grill

Temperatures, seconds and duties are exact rationals. The control loop works
in Celsius; the settings and the commands carry the grill's display units. A
quantity that the source lets be NaN is an `Option`, with `none` for NaN.
-/

namespace PiFire

/-- The display units of the grill. -/
inductive Units where
  | f
  | c
  deriving DecidableEq, Repr

/-- A temperature in the given units, in Celsius. -/
def toC (v : ℚ) : Units → ℚ
  | .c => v
  | .f => (v - 32) * 5 / 9

/-- A Celsius temperature in the given units. -/
def fromC (v : ℚ) : Units → ℚ
  | .c => v
  | .f => v * 9 / 5 + 32

/-- A temperature difference in the given units, in Celsius degrees. -/
def deltaToC (d : ℚ) : Units → ℚ
  | .c => d
  | .f => d * 5 / 9

/-- Hold a value between two bounds, the lower one first. -/
def clamp (v lo hi : ℚ) : ℚ :=
  if v < lo then lo else if v > hi then hi else v

theorem clamp_mem {v lo hi : ℚ} (ordered : lo ≤ hi) :
    lo ≤ clamp v lo hi ∧ clamp v lo hi ≤ hi := by
  unfold clamp
  split_ifs <;> constructor <;> linarith

theorem clamp_eq_self {v lo hi : ℚ} (above : lo ≤ v) (below : v ≤ hi) :
    clamp v lo hi = v := by
  simp [clamp, not_lt.mpr above, not_lt.mpr below]

/-- The C conversion of a double to an int: towards zero. -/
def truncate (x : ℚ) : ℤ :=
  if x < 0 then ⌈x⌉ else ⌊x⌋

theorem truncate_intCast (n : ℤ) : truncate n = n := by
  unfold truncate
  split_ifs <;> simp

/-- A valid reading compared with a bound; a NaN compares false. -/
def readsAtLeast (reading : Option ℚ) (bound : ℚ) : Bool :=
  reading.any (bound ≤ ·)

/-- A reading under a bound; a NaN compares false. -/
def readsBelow (reading : Option ℚ) (bound : ℚ) : Bool :=
  reading.any (· < bound)

/-- A reading over a bound; a NaN compares false. -/
def readsAbove (reading : Option ℚ) (bound : ℚ) : Bool :=
  reading.any (bound < ·)

/-- The modes of the grill. -/
inductive Mode where
  | stop
  | monitor
  | prime
  | startup
  | reignite
  | smoke
  | hold
  | shutdown
  | manual
  | error
  deriving DecidableEq, Repr

namespace Mode

/-- The modes in the order of their numbers. -/
def all : List Mode :=
  [stop, monitor, prime, startup, reignite, smoke, hold, shutdown, manual, error]

/-- The name a mode is published and saved under. -/
def name : Mode → String
  | stop => "Stop"
  | monitor => "Monitor"
  | prime => "Prime"
  | startup => "Startup"
  | reignite => "Relight"
  | smoke => "Smoke"
  | hold => "Hold"
  | shutdown => "Shutdown"
  | manual => "Manual"
  | error => "Error"

/-- A fire the grill is keeping alight: being lit, or being fed. -/
def isFiring : Mode → Bool
  | startup | reignite | smoke | hold => true
  | _ => false

/-- The modes that burn nothing under control; Smoke or Hold asked for from
one of them goes through Startup. -/
def isIdle : Mode → Bool
  | stop | monitor | manual | prime | shutdown => true
  | _ => false

/-- The modes that light the fire. -/
def isLighting : Mode → Bool
  | startup | reignite => true
  | _ => false

/-- The modes that cook on a burning fire. -/
def isRunning : Mode → Bool
  | smoke | hold => true
  | _ => false

end Mode

/-- Comparison of two names without regard to ASCII case. -/
def strcasecmp (s t : String) : Bool :=
  s.toList.map Char.toLower == t.toList.map Char.toLower

theorem strcasecmp_self (s : String) : strcasecmp s s = true := by
  simp [strcasecmp]

/-- The mode with a given name, in any case; Relight also answers to its
former name. -/
def modeFromName (s : String) : Option Mode :=
  match Mode.all.find? fun m => strcasecmp s m.name with
  | some m => some m
  | none => if strcasecmp s "Reignite" then some .reignite else none

@[simp]
theorem modeFromName_name (m : Mode) : modeFromName m.name = some m := by
  cases m <;> decide

/-- The relays of the grill. -/
inductive Output where
  | power
  | fan
  | auger
  | igniter
  deriving DecidableEq, Repr

namespace Output

/-- The outputs in the order of their numbers. -/
def all : List Output :=
  [power, fan, auger, igniter]

/-- The name a manual command gives an output by. -/
def name : Output → String
  | power => "power"
  | fan => "fan"
  | auger => "auger"
  | igniter => "igniter"

end Output

end PiFire

/-!
# Auger cycle and output arbiter

The cycle engine turns a feed ratio into auger on and off time within a fixed
cycle. The arbiter is the single gate through which the relays and the fan are
driven. Here the platform is present, its writes succeed and the emergency
latch is clear; a latched arbiter refuses every write and ends the process.
-/

namespace PiFire

/-- The limits of a cycle. -/
structure CycleCfg where
  cycleS : ℚ
  uMin : ℚ
  uMax : ℚ
  /-- The cap on continuous auger time. -/
  maxOnS : ℚ

/-- The cycle running now. -/
structure Cycle where
  start : ℚ
  cycleS : ℚ
  onS : ℚ
  uRaw : Option ℚ
  uApplied : ℚ
  /-- `-1` at the lower limit, `1` at the upper one. -/
  saturated : ℤ
  active : Bool

/-- No cycle has run yet. -/
def Cycle.idle : Cycle :=
  { start := 0, cycleS := 0, onS := 0, uRaw := some 0, uApplied := 0, saturated := 0,
    active := false }

/-- Start a cycle with the requested ratio, held to the limits and to the cap
on continuous auger time. -/
def cycleBegin (cfg : CycleCfg) (now : ℚ) (uRaw : Option ℚ) : Cycle :=
  let asked := uRaw.getD cfg.uMin
  let low := if asked < cfg.uMin then (cfg.uMin, -1) else (asked, 0)
  let held := if low.1 > cfg.uMax then (cfg.uMax, 1) else low
  let on := cfg.cycleS * held.1
  let capped := cfg.maxOnS > 0 ∧ on > cfg.maxOnS
  { start := now
    cycleS := cfg.cycleS
    onS := if capped then cfg.maxOnS else on
    uRaw := uRaw
    uApplied := if capped then cfg.maxOnS / cfg.cycleS else held.1
    saturated := if capped then 1 else held.2
    active := true }

/-- Stop the cycle: no auger time is left in it. -/
def cycleStop (cycle : Cycle) : Cycle :=
  { cycle with active := false, onS := 0 }

/-- Start a fixed on and off cycle; only the cap of the limits applies. -/
def cycleBeginFixed (cfg : CycleCfg) (now on off : ℚ) (cycle : Cycle) : Cycle :=
  if ¬0 < on + off then cycleStop cycle
  else
    cycleBegin { cycleS := on + off, uMin := 0, uMax := 1, maxOnS := cfg.maxOnS } now
      (some (on / (on + off)))

/-- Whether the cycle has the auger on at this time. -/
def cycleAugerOn (cycle : Cycle) (now : ℚ) : Bool :=
  cycle.active && now - cycle.start < cycle.onS

/-- Whether the cycle has run its length. -/
def cycleDone (cycle : Cycle) (now : ℚ) : Bool :=
  !cycle.active || cycle.cycleS ≤ now - cycle.start

/-- The state of the relays and the fan's duty. -/
structure Outputs where
  power : Bool
  fan : Bool
  auger : Bool
  igniter : Bool
  fanPct : ℤ
  deriving DecidableEq, Repr

/-- Whether an output is on. -/
def Outputs.get (outputs : Outputs) : Output → Bool
  | .power => outputs.power
  | .fan => outputs.fan
  | .auger => outputs.auger
  | .igniter => outputs.igniter

/-- Switch one relay. Switching the fan off also clears its duty. -/
def outputsSet (o : Output) (on : Bool) (outputs : Outputs) : Outputs :=
  match o with
  | .power => { outputs with power := on }
  | .fan =>
      { outputs with
        fan := on
        fanPct := if outputs.fan ≠ on ∧ on = false then 0 else outputs.fanPct }
  | .auger => { outputs with auger := on }
  | .igniter => { outputs with igniter := on }

/-- Drive the fan at a duty. -/
def outputsFanPct (pct : ℤ) (outputs : Outputs) : Outputs :=
  { outputs with fanPct := pct }

/-- Everything off. -/
def outputsAllOff : Outputs :=
  { power := false, fan := false, auger := false, igniter := false, fanPct := 0 }

section Arbiter

variable (outputs : Outputs) (on : Bool) (pct : ℤ)

@[simp]
theorem outputsSet_auger_auger : (outputsSet .auger on outputs).auger = on := rfl

@[simp]
theorem outputsSet_auger_igniter :
    (outputsSet .auger on outputs).igniter = outputs.igniter := rfl

@[simp]
theorem outputsSet_igniter_igniter : (outputsSet .igniter on outputs).igniter = on := rfl

@[simp]
theorem outputsSet_igniter_auger :
    (outputsSet .igniter on outputs).auger = outputs.auger := rfl

@[simp]
theorem outputsSet_fan_auger : (outputsSet .fan on outputs).auger = outputs.auger := rfl

@[simp]
theorem outputsSet_fan_igniter : (outputsSet .fan on outputs).igniter = outputs.igniter := rfl

@[simp]
theorem outputsSet_power_auger : (outputsSet .power on outputs).auger = outputs.auger := rfl

@[simp]
theorem outputsSet_power_igniter :
    (outputsSet .power on outputs).igniter = outputs.igniter := rfl

@[simp]
theorem outputsFanPct_auger : (outputsFanPct pct outputs).auger = outputs.auger := rfl

@[simp]
theorem outputsFanPct_igniter : (outputsFanPct pct outputs).igniter = outputs.igniter := rfl

@[simp]
theorem outputsAllOff_auger : outputsAllOff.auger = false := rfl

@[simp]
theorem outputsAllOff_igniter : outputsAllOff.igniter = false := rfl

end Arbiter

end PiFire
