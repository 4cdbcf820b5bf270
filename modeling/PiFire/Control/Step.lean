import PiFire.Control.Feed
import PiFire.Control.Recovery

/-!
# One step of the control loop

A step drains the commands, reads the probes, applies the pending request,
holds the set point to its range, and then lets the targets, the recipe, the
supervision, the mode and the physical input act, in this order.
-/

namespace PiFire

/-- The ambient reading of a probe designated for it. -/
def ambientProbe (s : Sensors) : Option ℚ :=
  s.readings.findSome? fun reading => if reading.ambient then reading.temp else none

/-- The best outdoor reading of this tick: a probe outside the grill, else the
local weather. -/
def outdoorReading (t : Tick) : Option ℚ :=
  match (ambientProbe t.sensors).filter (· ≤ ambientMaxC) with
  | some ambient => some ambient
  | none => t.weatherC.filter (· ≤ ambientMaxC)

/-- The ambient temperature: measured, else the low of a light, else a
provisional one. -/
def readAmbient (t : Tick) (c : Control) : Control :=
  match outdoorReading t with
  | some ambient => { c with ambientC := some ambient, ambientFromProbe := true }
  | none =>
      let probed := (ambientProbe t.sensors).or c.ambientC
      let low := if c.safety.ssActive then c.safety.ssBaselineC.filter (· ≤ ambientMaxC) else none
      let estimated := { c with ambientC := low.or probed, ambientFromProbe := false }
      if estimated.ambientC.any (· ≤ ambientMaxC) then estimated
      else { estimated with ambientC := ambientProvisional t estimated }

/-- Read the probes. An invalid pit keeps its last temperature. -/
def readSensors (t : Tick) (c : Control) : Control :=
  let read :=
    match t.sensors.pit with
    | some pit =>
        { c with
          sensors := t.sensors, pitC := some pit, pitValid := true
          cookMaxPitC := if pit > c.cookMaxPitC then pit else c.cookMaxPitC }
    | none => { c with sensors := t.sensors, pitValid := false }
  readAmbient t read

/-- Over the limit with nothing running: said once. -/
def noticeIdleHeat (c : Control) : Control :=
  if (c.mode = .stop ∨ c.mode = .error) ∧ c.pitValid then
    let isOver := readsAbove c.validPit c.cfg.maxTempC
    let under := readsBelow c.validPit (c.cfg.maxTempC - deltaToC 20 .f)
    { c with
      safety := { c.safety with
        stopOvertempSaid :=
          if isOver ∧ c.safety.stopOvertempSaid = false then true
          else if under then false
          else c.safety.stopOvertempSaid } }
  else c

/-- How far outside its range a set point is left alone, in degrees. -/
def setpointSlackC : ℚ := 1 / 100

/-- Hold the set point to the targets the grill accepts. -/
def clampSetpoint (c : Control) : Control :=
  let held := clamp c.setpointC c.cfg.minTargetC c.cfg.maxTargetC
  if c.setpointC > 0 ∧ |held - c.setpointC| > setpointSlackC then { c with setpointC := held }
  else c

/-- What a met target or a finished timer asks of the grill. -/
def afterAction (t : Tick) (act : ℤ) (c : Control) : Control :=
  if act = afterShutdown ∧ c.mode.isFiring then
    if c.recipe.active then recipeFinishNow t c else enterMode t .shutdown c
  else if act = afterKeepwarm ∧ c.mode.isRunning then
    let warm := { c with
      setpointC := c.cfg.keepwarmC, sPlus := c.cfg.keepwarmSplus, targetReached := false }
    if c.mode = .hold then warm else enterMode t .hold warm
  else c

/-- The targets as a tick leaves them, the action they ask for still pending. -/
def tickNotify (t : Tick) (c : Control) : Notify :=
  let synced := notifySync c.sensors c.notify
  let aiming := c.mode = .hold ∨ c.mode.isLighting
  notifyTick t.services.estimates c.sensors c.mode t.now c.cfg.units
    { synced with cookTempC := if aiming ∧ c.setpointC > 0 then c.setpointC else 0 }

/-- The targets, the timer, and what they ask for. -/
def runNotify (t : Tick) (c : Control) : Control :=
  let ticked := tickNotify t c
  afterAction t ticked.pendingAction
    { c with notify := { ticked with pendingAction := afterNone } }

/-- Enter the mode the supervision asks for. -/
def carryAction (t : Tick) (judged : Control × Action) : Control :=
  match judged.2 with
  | .none => judged.1
  | .error => enterMode t .error judged.1
  | .reignite => enterMode t .reignite judged.1

/-- The supervision of a tick. -/
def supervise (t : Tick) (c : Control) : Control :=
  carryAction t (safetyTick t c)

/-- The physical shutdown input. -/
def shutdownInput (t : Tick) (c : Control) : Control :=
  if t.shutdownInput ∧ c.mode ≠ .stop then
    enterMode t (if c.mode.isRunning then .shutdown else .stop) c
  else c

/-- How often a checkpoint is written, in seconds. -/
def checkpointS : ℚ := 10

/-- The checkpoint after a step: written while a cook runs, and removed once it
is over. -/
def nextCheckpoint (t : Tick) (c : Control) : Checkpoint :=
  let k := c.checkpoint
  if k.enabled then
    if c.mode.isFiring then
      if t.now - k.writtenT < checkpointS then k
      else
        match resumeJson t c with
        | some snapshot => { k with writtenT := t.now, file := some snapshot, onDisk := true }
        | none => { k with writtenT := t.now }
    else if k.onDisk then { k with file := none, onDisk := false }
    else k
  else k

/-- Keep the checkpoint of the cook. -/
def checkpoint (t : Tick) (c : Control) : Control :=
  { c with checkpoint := nextCheckpoint t c }

/-- The start of a step: a grill that has never stepped enters its mode now. -/
def beginStep (t : Tick) (c : Control) : Control :=
  if c.modeStart = 0 then { c with modeStart := t.now } else c

/-- Drain the command queue. -/
def drain (t : Tick) (c : Control) : Control :=
  t.cmds.foldl (handleCmd t) c

/-- The end of a step. -/
def endStep (t : Tick) (c : Control) : Control :=
  { c with lastStep := t.now }

/-- One step of the control loop. -/
def controlStep (t : Tick) (c : Control) : Control :=
  let drained := drain t (beginStep t c)
  let aimed := clampSetpoint (noticeIdleHeat (applyRequest t (readSensors t drained)))
  let cooked := recipeAftercare (runRecipe t (runNotify t aimed))
  let acted := shutdownInput t (runMode t (supervise t cooked))
  endStep t (checkpoint t acted)

/-- No checkpoint is kept until its path is set. -/
def Checkpoint.init : Checkpoint :=
  { enabled := false, writtenT := 0, onDisk := false, file := none }

/-- The state of a daemon that has just started, for settings and a controller
plugin that came up. -/
def controlInit (settings : Json) (loadController : String → Option String) : Control :=
  let cfg := loadCfg { augerontime := 0, pMode := 0 } settings
  { cfg := cfg
    mode := .stop
    nextMode := .stop
    modeStart := 0
    aimSince := 0
    checkpoint := .init
    req := none
    setpointC := cfg.afterStartupSetpointC
    sPlus := cfg.splusDefault
    pwmControl := cfg.pwmControlDefault
    dutyCycle := cfg.pwmMaxDuty
    cycle := .idle
    ccfg := cycleCfgFor cfg
    controller := loadController cfg.controllerId
    uRaw := 0
    uApplied := 0
    saturated := 0
    targetReached := false
    fanPidActive := false
    lidOpen := false
    lidOpenUntil := 0
    lidLowC := some 0
    lidEvent := false
    lidEventT := 0
    restartResumed := false
    recoveries := 0
    augerRestUntil := 0
    lidHist := []
    lidHistLast := 0
    fanToggleT := 0
    fanUpdateT := 0
    fanRamping := false
    rampEndT := 0
    manualUntil := .none
    primeDurationS := 0
    primeAmountG := 0
    ssProfile := 0
    safety := safetyReset cfg.reigniteRetries
    notify := .init
    recipe := .init
    autotune := { active := false, uCenter := 0, lastLoad := 0 }
    sensors := .none
    pitC := none
    pitValid := false
    ambientC := none
    ambientFromProbe := false
    augerOnSince := 0
    augerTotalOnS := 0
    cookStartWall := 0
    cookMaxPitC := 0
    lastStep := 0
    powerOffRequested := false
    outputs := outputsAllOff }

end PiFire
