import PiFire.Control.State

/-!
# Entering a mode

Every change of mode goes through `enterMode`: it parks the igniter and the
auger, restarts the timers that belong to a mode, and then sets up the outputs
and the supervision of the new one.
-/

namespace PiFire

/-- Switch one relay of the grill. -/
def setOutput (o : Output) (on : Bool) (c : Control) : Control :=
  { c with outputs := outputsSet o on c.outputs }

/-- Drive the grill's fan at a duty. -/
def setFanPct (pct : ℤ) (c : Control) : Control :=
  { c with outputs := outputsFanPct pct c.outputs }

/-- Every output of the grill off. -/
def allOff (c : Control) : Control :=
  { c with outputs := outputsAllOff }

/-- The fan on, at a duty when it has one. -/
def fanOn (pct : ℤ) (c : Control) : Control :=
  let on := setOutput .fan true c
  let driven := if c.cfg.dcFan then setFanPct (if pct > 0 then pct else 100) on else on
  { driven with fanRamping := false }

/-- The controller's feed takes the ratio a cycle applies. -/
def applyCycle (cycle : Cycle) (c : Control) : Control :=
  { c with cycle := cycle, uRaw := cycle.uApplied, uApplied := cycle.uApplied }

/-- Whether a ratio is above `on` out of `total`; with no total the quotient is
a NaN or an infinity of the sign of `on`. -/
def exceedsRatio (u on total : ℚ) : Bool :=
  if total = 0 then on < 0 else u > on / total

/-- The times of the fixed cycle: Smoke's own, or the startup profile's. -/
def smokeTimes (c : Control) : ℚ × ℚ :=
  if c.mode.isLighting then
    let profile := c.cfg.ssProf.getD c.ssProfile { augerontime := 0, pMode := 0 }
    (profile.augerontime, c.cfg.smokeOffS + profile.pMode * 10)
  else (c.cfg.smokeOnS, c.cfg.smokeOffS + c.cfg.pmode * 10)

/-- The learned feed for a light in a hot barrel: three exit rises above the
pit, so that the feed can raise it. -/
def lightingFeed (t : Tick) (c : Control) : Option ℚ :=
  if c.mode.isLighting then
    c.validPit.map fun pit =>
      t.services.learningUff (pit + 3 * c.cfg.ssExitRiseC) c.ambientC c.cfg.uMin c.cfg.uMax
  else none

/-- Start the fixed feed of Smoke or of a light. -/
def smokeCycle (t : Tick) (c : Control) : Control :=
  let times := smokeTimes c
  let learned := (lightingFeed t c).filter fun uff =>
    exceedsRatio uff times.1 (times.1 + times.2)
  match learned with
  | some uff => applyCycle (cycleBegin c.ccfg t.now (some uff)) c
  | none => applyCycle (cycleBeginFixed c.ccfg t.now times.1 times.2 c.cycle) c

/-- The startup profile for the pit as it is now. -/
def selectSmartstartProfile (c : Control) : Control :=
  { c with ssProfile := c.cfg.ssRangesC.findIdx fun range => readsBelow c.pitC range }

/-- The hottest reading that can be outdoor air. -/
def ambientMaxC : ℚ := 50

/-- The ambient temperature when nothing measures it: a pit that can be
outdoor air, the last plausible value, the one kept in the database, or 20. -/
def ambientProvisional (t : Tick) (c : Control) : Option ℚ :=
  match c.validPit.filter (· ≤ ambientMaxC), c.ambientC.filter (· ≤ ambientMaxC),
      t.ambientLast.filter fun v => -40 < v ∧ v ≤ ambientMaxC with
  | some pit, _, _ => some pit
  | none, some ambient, _ => some ambient
  | none, none, some kept => some kept
  | none, none, none => some 20

/-- End the relay autotune. The controller comes back from the feed that holds
the set point. -/
def autotuneFinish (c : Control) : Control :=
  let steady := if c.autotune.lastLoad > 0 then c.autotune.lastLoad else c.autotune.uCenter
  let held := if steady > 0 then clamp steady c.cfg.uMin c.cfg.uMax else c.uApplied
  { c with
    autotune := { c.autotune with active := false }
    uRaw := if steady > 0 then held else c.uRaw
    uApplied := held }

/-- Smart Start as a light begins. -/
def onStartupEnter (t : Tick) (c : Control) : Control :=
  { c with
    safety := { c.safety with
      igniterOnSince := 0
      igniterLockedOut := false
      ssActive := true
      ssProven := false
      ssAboveSince := 0
      filtC := c.validPit
      ssBaselineC := c.validPit
      ssDeadline := t.now + c.cfg.ssProveS
      ssStart := t.now
      ssEntryC := c.validPit
      ssHeld := false
      ssFlatT := 0
      peakC := none
      heating := false
      proving := false
      stepdownArmed := false } }

/-- Smart Start as a light ends. -/
def onStartupExit (t : Tick) (c : Control) : Control :=
  { c with
    safety := { c.safety with
      ssActive := false
      heating := true
      established := false
      peakC := c.validPit
      progressC := c.validPit
      progressT := t.now
      handoverC := c.validPit } }

/-- The temperature Smoke or Hold works at. -/
def workC (c : Control) : ℚ :=
  if c.mode = .hold then c.setpointC else c.cfg.smokeMinC

/-- Flame supervision as Smoke or Hold is entered. -/
def onRunEnter (t : Tick) (prev : Mode) (c : Control) : Control :=
  { c with
    safety := { c.safety with
      peakC := if c.safety.peakC.isNone then c.validPit else c.safety.peakC
      progressC := if c.validPit.isSome then c.validPit else c.safety.progressC
      progressT := if c.validPit.isSome then t.now else c.safety.progressT
      established := if prev.isLighting then c.safety.established else true
      reached := false
      stallSaid := false
      stepdownArmed := workC c > 0 && readsAbove c.validPit (workC c) } }

/-- What every change of mode does before the new mode sets itself up. -/
def leaveMode (t : Tick) (m : Mode) (c : Control) : Control :=
  let quiet := if c.autotune.active then autotuneFinish c else c
  { quiet with
    recoveries := if m = .stop then 0 else c.recoveries
    mode := m
    modeStart := t.now
    aimSince := t.now
    lidOpen := false
    fanPidActive := false
    fanRamping := false
    targetReached := false
    manualUntil := .none
    cycle := cycleStop c.cycle
    safety := { c.safety with
      igniterLockedOut := false, igniterOnSince := 0, primaryInvalidSince := 0 }
    ccfg := cycleCfgFor c.cfg
    outputs := outputsSet .auger false (outputsSet .igniter false c.outputs)
    augerOnSince := t.now }

/-- Set up Stop. -/
def setupStop (c : Control) : Control :=
  { allOff c with
    sPlus := false
    nextMode := .stop
    cookStartWall := if c.cookStartWall > 0 then 0 else c.cookStartWall }

/-- Set up Monitor or Manual. -/
def setupParked (c : Control) : Control :=
  setOutput .power false (setOutput .fan false c)

/-- How long a prime runs: the amount at the auger's rate, at most one
continuous run of the auger. -/
def primeDuration (cfg : Cfg) (amountG : ℚ) : ℚ :=
  let seconds := if cfg.augerrate > 0 then amountG / cfg.augerrate else 0
  if cfg.augerMaxOnS > 0 ∧ seconds > cfg.augerMaxOnS then cfg.augerMaxOnS else seconds

/-- Whether the igniter runs during a prime. -/
def primeIgnites (c : Control) : Bool :=
  c.cfg.primeIgnition && c.nextMode == .startup

/-- Set up Prime. -/
def setupPrime (t : Tick) (c : Control) : Control :=
  let amount := if c.primeAmountG < 0 then 0 else c.primeAmountG
  let powered := setOutput .power true (setOutput .fan false c)
  let ignited := if primeIgnites c then setOutput .igniter true powered else powered
  let timed := { ignited with
    primeAmountG := amount
    primeDurationS := primeDuration c.cfg amount
    cycle := cycleBeginFixed c.ccfg t.now (primeDuration c.cfg amount) 1 c.cycle }
  setOutput .auger true timed

/-- The books of a new cook. -/
def beginCook (t : Tick) (c : Control) : Control :=
  { c with
    cookStartWall := t.wall
    augerTotalOnS := 0
    cookMaxPitC := 0
    safety := safetyReset c.cfg.reigniteRetries
    ambientC := if c.ambientFromProbe then c.ambientC else ambientProvisional t c }

/-- Set up a light: fan, igniter, the startup profile and its feed. -/
def setupLight (t : Tick) (c : Control) : Control :=
  let powered := setOutput .power true c
  let blown := fanOn (if c.cfg.dcFan then c.cfg.startupPwmDuty else 100) powered
  let lit := selectSmartstartProfile (setOutput .igniter true blown)
  setOutput .auger true (smokeCycle t (onStartupEnter t lit))

/-- Set up Smoke. -/
def setupSmoke (t : Tick) (prev : Mode) (c : Control) : Control :=
  let blown := fanOn c.dutyCycle (setOutput .power true (onRunEnter t prev c))
  setOutput .auger true (smokeCycle t blown)

/-- Set up Hold. -/
def setupHold (t : Tick) (prev : Mode) (c : Control) : Control :=
  let blown := fanOn c.dutyCycle (setOutput .power true (onRunEnter t prev c))
  setOutput .auger true (applyCycle (cycleBegin c.ccfg t.now (some c.cfg.uMin)) blown)

/-- Set up Shutdown. -/
def setupShutdown (c : Control) : Control :=
  fanOn c.dutyCycle (setOutput .power true c)

/-- Set up Error: a hot pot is blown cool, everything else is off. -/
def setupError (t : Tick) (c : Control) : Control :=
  let fanUntil :=
    if readsAbove c.validPit c.cfg.restartHotC then t.now + c.cfg.errorCooldownFanS else 0
  let noted := { c with
    safety := { c.safety with errorPitC := c.validPit, errorFanUntil := fanUntil } }
  if fanUntil > t.now then fanOn 100 (setOutput .power true noted) else allOff noted

/-- Enter a mode. -/
def enterMode (t : Tick) (m : Mode) (c : Control) : Control :=
  let left := leaveMode t m c
  match m with
  | .stop => setupStop left
  | .monitor | .manual => setupParked left
  | .prime => setupPrime t left
  | .startup => setupLight t (beginCook t left)
  | .reignite => setupLight t left
  | .smoke => setupSmoke t c.mode left
  | .hold => setupHold t c.mode left
  | .shutdown => setupShutdown left
  | .error => setupError t left

end PiFire
