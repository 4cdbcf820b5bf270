import PiFire.Control.Step

/-!
# The relay core

The mode the grill is in, the caps on the auger and the igniter, and what Error
holds off are about a few fields only: the mode and the request for another one,
the set point, the two relays that make heat, the stamps of when they came on,
the igniter's lock and the auger's rest, under the limits in force and the pit
as it was last read. This file is the abstract machine of these fields, and how
entering a mode acts on it.
-/

namespace PiFire

/-- The modes that feed the pot. -/
def Mode.feeds : Mode → Bool
  | startup | reignite | smoke | hold | prime => true
  | _ => false

/-- The fields that decide whether the grill makes heat. -/
structure Relay where
  mode : Mode
  req : Option Request
  setpointC : ℚ
  auger : Bool
  igniter : Bool
  igniterOnSince : ℚ
  igniterLockedOut : Bool
  augerOnSince : ℚ
  augerRestUntil : ℚ
  cfg : Cfg
  pitC : Option ℚ
  pitValid : Bool

/-- The relay core of the control state. -/
def relayOf (c : Control) : Relay :=
  { mode := c.mode
    req := c.req
    setpointC := c.setpointC
    auger := c.outputs.auger
    igniter := c.outputs.igniter
    igniterOnSince := c.safety.igniterOnSince
    igniterLockedOut := c.safety.igniterLockedOut
    augerOnSince := c.augerOnSince
    augerRestUntil := c.augerRestUntil
    cfg := c.cfg
    pitC := c.pitC
    pitValid := c.pitValid }

/-- A mode being entered, with whether a prime runs the igniter. -/
structure Entry where
  mode : Mode
  ignites : Bool
  deriving DecidableEq

/-- A mode entered without the igniter of a prime. -/
abbrev Entry.plain (m : Mode) : Entry := { mode := m, ignites := false }

/-- Whether an entry switches the igniter on. -/
def Entry.lights (e : Entry) : Bool :=
  e.mode.isLighting || (e.mode == .prime && e.ignites)

/-- Entering a mode: both relays are parked, the mode switches on what it needs,
and the stamps begin again. -/
def Relay.enter (now : ℚ) (e : Entry) (r : Relay) : Relay :=
  { r with
    mode := e.mode
    auger := e.mode.feeds
    igniter := e.lights
    igniterOnSince := 0
    igniterLockedOut := false
    augerOnSince := now }

/-- Enter a mode, when one is. -/
def Relay.enterIf (now : ℚ) (e : Option Entry) (r : Relay) : Relay :=
  match e with
  | none => r
  | some e => r.enter now e

/-- Another set point. -/
def Relay.aimAt (sp : ℚ) (r : Relay) : Relay :=
  { r with setpointC := sp }

@[simp]
theorem Relay.enterIf_none (now : ℚ) (r : Relay) : r.enterIf now none = r := rfl

@[simp]
theorem Relay.enterIf_some (now : ℚ) (e : Entry) (r : Relay) :
    r.enterIf now (some e) = r.enter now e := rfl

section Frame

variable (t : Tick) (c : Control)

@[simp]
theorem relayOf_mode : (relayOf c).mode = c.mode := rfl

@[simp]
theorem relayOf_mapRecipe (f : RecipeRun → RecipeRun) : relayOf (mapRecipe f c) = relayOf c := rfl

@[simp]
theorem relayOf_setFanPct (pct : ℤ) : relayOf (setFanPct pct c) = relayOf c := rfl

@[simp]
theorem relayOf_setOutput_fan (on : Bool) : relayOf (setOutput .fan on c) = relayOf c := rfl

@[simp]
theorem relayOf_setOutput_power (on : Bool) : relayOf (setOutput .power on c) = relayOf c := rfl

@[simp]
theorem relayOf_fanOn (pct : ℤ) : relayOf (fanOn pct c) = relayOf c := by
  unfold fanOn
  simp only
  split <;> rfl

@[simp]
theorem relayOf_smokeCycle : relayOf (smokeCycle t c) = relayOf c := by
  unfold smokeCycle
  simp only
  split <;> rfl

@[simp]
theorem relayOf_autotuneFinish : relayOf (autotuneFinish c) = relayOf c := rfl

@[simp]
theorem relayOf_onRunEnter (prev : Mode) : relayOf (onRunEnter t prev c) = relayOf c := rfl

@[simp]
theorem relayOf_onStartupExit : relayOf (onStartupExit t c) = relayOf c := rfl

@[simp]
theorem relayOf_setError (fault : Fault) : relayOf (setError fault c) = relayOf c := rfl

theorem relayOf_setOutput_auger (on : Bool) :
    relayOf (setOutput .auger on c) = { relayOf c with auger := on } := rfl

theorem relayOf_setOutput_igniter (on : Bool) :
    relayOf (setOutput .igniter on c) = { relayOf c with igniter := on } := rfl

end Frame

section Enter

variable (t : Tick) (m : Mode) (c : Control)

theorem relayOf_leaveMode :
    relayOf (leaveMode t m c) =
      { relayOf c with
        mode := m, auger := false, igniter := false, igniterOnSince := 0
        igniterLockedOut := false, augerOnSince := t.now } := by
  unfold leaveMode
  split <;> rfl

theorem relayOf_beginCook :
    relayOf (beginCook t c) = { relayOf c with igniterOnSince := 0, igniterLockedOut := false } :=
  rfl

theorem relayOf_setupLight :
    relayOf (setupLight t c) =
      { relayOf c with
        auger := true, igniter := true, igniterOnSince := 0, igniterLockedOut := false } := by
  have lit : relayOf (onStartupEnter t (selectSmartstartProfile (setOutput .igniter true
      (fanOn (if c.cfg.dcFan then c.cfg.startupPwmDuty else 100)
        (setOutput .power true c))))) =
      { relayOf c with igniter := true, igniterOnSince := 0, igniterLockedOut := false } := by
    have blown := relayOf_fanOn (setOutput .power true c)
      (if c.cfg.dcFan then c.cfg.startupPwmDuty else 100)
    simp only [relayOf_setOutput_power] at blown
    rw [← blown]
    rfl
  rw [setupLight, relayOf_setOutput_auger, relayOf_smokeCycle, lit]

theorem relayOf_setupSmoke (prev : Mode) :
    relayOf (setupSmoke t prev c) = { relayOf c with auger := true } := by
  rw [setupSmoke, relayOf_setOutput_auger, relayOf_smokeCycle, relayOf_fanOn,
    relayOf_setOutput_power, relayOf_onRunEnter]

theorem relayOf_setupHold (prev : Mode) :
    relayOf (setupHold t prev c) = { relayOf c with auger := true } := by
  have fed (cycle : Cycle) (c : Control) : relayOf (applyCycle cycle c) = relayOf c := rfl
  rw [setupHold, relayOf_setOutput_auger, fed, relayOf_fanOn, relayOf_setOutput_power,
    relayOf_onRunEnter]

theorem relayOf_setupPrime :
    relayOf (setupPrime t c) =
      { relayOf c with auger := true, igniter := primeIgnites c || c.outputs.igniter } := by
  unfold setupPrime
  simp only
  cases ignites : primeIgnites c <;> rfl

theorem relayOf_setupError :
    relayOf (setupError t c) = relayOf c ∨
      relayOf (setupError t c) = { relayOf c with auger := false, igniter := false } := by
  unfold setupError
  extract_lets
  split
  · left
    rw [relayOf_fanOn, relayOf_setOutput_power]
    rfl
  · right
    rfl

theorem relayOf_enterMode :
    relayOf (enterMode t m c) =
      (relayOf c).enter t.now { mode := m, ignites := primeIgnites c } := by
  have left := relayOf_leaveMode t m c
  cases m with
  | stop =>
      have stopped : relayOf (setupStop (leaveMode t .stop c)) =
          { relayOf (leaveMode t .stop c) with auger := false, igniter := false } := rfl
      rw [enterMode, stopped, left]
      rfl
  | monitor | manual =>
      rw [enterMode, setupParked, relayOf_setOutput_power, relayOf_setOutput_fan, left]
      rfl
  | prime =>
      have ignites : primeIgnites (leaveMode t .prime c) = primeIgnites c := by
        unfold leaveMode
        split <;> rfl
      have parked : (leaveMode t .prime c).outputs.igniter = false :=
        congrArg Relay.igniter left
      rw [enterMode, relayOf_setupPrime, ignites, parked, left]
      simp [Relay.enter, Mode.feeds, Entry.lights, Mode.isLighting, relayOf]
  | startup =>
      rw [enterMode, relayOf_setupLight, relayOf_beginCook, left]
      rfl
  | reignite =>
      rw [enterMode, relayOf_setupLight, left]
      rfl
  | smoke =>
      rw [enterMode, relayOf_setupSmoke, left]
      rfl
  | hold =>
      rw [enterMode, relayOf_setupHold, left]
      rfl
  | shutdown =>
      rw [enterMode, setupShutdown, relayOf_fanOn, relayOf_setOutput_power, left]
      rfl
  | error =>
      rw [enterMode]
      rcases relayOf_setupError t (leaveMode t .error c) with same | dark
      · rw [same, left]
        rfl
      · rw [dark, left]
        rfl

@[simp]
theorem enterMode_mode : (enterMode t m c).mode = m :=
  congrArg Relay.mode (relayOf_enterMode t m c)

theorem relayOf_enterMode_plain (notPrime : m ≠ .prime) :
    relayOf (enterMode t m c) = (relayOf c).enter t.now (.plain m) := by
  rw [relayOf_enterMode]
  cases m <;> first | rfl | contradiction

end Enter

end PiFire
