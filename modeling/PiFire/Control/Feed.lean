import PiFire.Control.Supervision

/-!
# The logic of a mode

Each tick a mode watches the lid, runs its auger cycle under the rest and the
cap, drives the fan, lets manual overrides expire and makes the changes of mode
that are a matter of time.
-/

namespace PiFire

/-- How fast a pit falls only when the lid is opened, in degrees a second. -/
def lidRateCS : ℚ := 3 / 10

/-- Over how long that fall is measured. -/
def lidSpanS : ℚ := 15

/-- How many samples of the pit are kept. -/
def lidHistLength : ℕ := 20

/-- Sample the pit once a second. -/
def sampleLid (t : Tick) (pit : ℚ) (c : Control) : Control :=
  if t.now - c.lidHistLast ≥ 1 then
    { c with
      lidHistLast := t.now
      lidHist := ((t.now, pit) :: c.lidHist).take lidHistLength }
  else c

/-- Whether the pit fell faster than a grill cools, from near its set point. -/
def pitDropped (t : Tick) (pit : ℚ) (c : Control) : Bool :=
  match c.lidHist.find? fun sample => t.now - sample.1 ≥ lidSpanS with
  | none => false
  | some (sampled, before) =>
      let drop := before - pit
      before ≥ c.setpointC - 8 && drop ≥ 4 && drop / (t.now - sampled) ≥ lidRateCS

/-- Watch for the lid: the state with the sample, and whether the pit just
dropped. -/
def lidWatch (t : Tick) (c : Control) : Control × Bool :=
  match c.validPit with
  | none => (c, false)
  | some pit =>
      let sampled := sampleLid t pit c
      (sampled, pitDropped t pit sampled)

/-- The pit under which the lid counts as open: a percentage off the set point
in the display units. -/
def lidThresholdC (c : Control) : ℚ :=
  toC (fromC c.setpointC c.cfg.units * (100 - c.cfg.lidThresholdPct) / 100) c.cfg.units

/-- A lid event begins with a drop, and ends with the pit recovered or after
five minutes. -/
def trackLidEvent (t : Tick) (dropped : Bool) (c : Control) : Control :=
  let begun :=
    if dropped ∧ c.lidEvent = false then
      { c with lidEvent := true, lidEventT := t.now, aimSince := t.now }
    else c
  let recovered := readsAtLeast c.pitC (c.setpointC - 3) || t.now - begun.lidEventT > 300
  if begun.lidEvent ∧ dropped = false ∧ recovered then { begun with lidEvent := false } else begun

/-- Whether the feed pauses for an open lid now. -/
def lidOpens (dropped : Bool) (c : Control) : Bool :=
  c.targetReached && c.cfg.lidDetect && !c.lidOpen &&
    (readsBelow c.pitC (lidThresholdC c) || dropped)

/-- Pause the feed for an open lid; the fan runs on. -/
def openLid (t : Tick) (c : Control) : Control :=
  let parked := fanOn c.dutyCycle (setOutput .auger false { c with
    lidOpen := true, lidOpenUntil := t.now + c.cfg.lidPauseS, lidLowC := c.pitC
    targetReached := false })
  { parked with cycle := cycleStop c.cycle }

/-- End the pause once the pit has climbed off its low, or its time is up. -/
def closeLid (t : Tick) (c : Control) : Control :=
  if c.lidOpen then
    let low := match c.validPit, c.lidLowC with
      | some pit, some low => some (if pit < low then pit else low)
      | _, low => low
    let risen := low.any fun low => readsAtLeast c.validPit (low + c.cfg.lidResumeRiseC)
    let tracked := { c with lidLowC := low }
    if risen ∨ t.now > c.lidOpenUntil then
      let closed := fanOn c.dutyCycle { tracked with lidOpen := false }
      if c.mode = .hold then closed
      else { closed with cycle := cycleBegin c.ccfg t.now (some c.cfg.uMin) }
    else tracked
  else c

/-- The lid in Smoke and Hold. -/
def watchLid (t : Tick) (c : Control) : Control :=
  if c.mode.isRunning then
    let arrived :=
      if c.mode = .hold ∧ readsAtLeast c.pitC c.setpointC then { c with targetReached := true }
      else c
    let watched := lidWatch t arrived
    let tracked := trackLidEvent t watched.2 watched.1
    closeLid t (if lidOpens watched.2 tracked then openLid t tracked else tracked)
  else c

/-- What the controller or the relay is shown. -/
def ctrlIn (t : Tick) (uFf : ℚ) (c : Control) : CtrlIn :=
  { now := t.now, pitC := c.pitC, setpointC := c.setpointC, ambientC := c.ambientC
    uPrevRaw := c.uRaw, uPrevApplied := c.uApplied, uFf := uFf, saturated := c.saturated
    targetReached := c.targetReached, lid := c.lidEvent || c.lidOpen }

/-- The learned feed that holds the set point. -/
def holdFeed (t : Tick) (c : Control) : ℚ :=
  t.services.learningUff c.setpointC (some (ambientOr20 c)) c.cfg.uMin c.cfg.uMax

/-- A controller that answered nothing usable: the feed falls back to the least
one, and a plugin that does so repeatedly gives way to the built-in one. -/
def controllerFault (t : Tick) (id : String) (c : Control) : Control :=
  let count := c.safety.ctrlFaultCount + 1
  let counted := { c with safety := { c.safety with ctrlFaultCount := count } }
  if count ≥ 3 ∧ id ≠ "pid" then
    controllerLoad t "pid" (setError (.controllerFault id) counted)
  else counted

/-- A usable feed from the controller. -/
def usableFeed (answer : Option ℚ) : Option ℚ :=
  answer.filter fun u => -5 ≤ u ∧ u ≤ 5

/-- Ask the loaded controller for its feed. -/
def askController (t : Tick) (id : String) (c : Control) : Control × ℚ :=
  match usableFeed (t.services.controllerUpdate id (ctrlIn t (holdFeed t c) c)) with
  | some u => ({ c with safety := { c.safety with ctrlFaultCount := 0 } }, u)
  | none => (controllerFault t id c, c.cfg.uMin)

/-- One answer of the relay autotune; it may have finished with it. -/
def autotuneStep (t : Tick) (c : Control) : Control × ℚ :=
  let answer := t.services.relayStep (ctrlIn t 0 c)
  let moved := { c with
    autotune := { c.autotune with uCenter := answer.uCenter, lastLoad := answer.lastLoad } }
  (if answer.finished then autotuneFinish moved else moved, answer.u)

/-- The feed of the next Hold cycle. Under an open lid it is the one learned to
hold the set point. -/
def holdRatio (t : Tick) (c : Control) : Control × ℚ :=
  match c.controller with
  | none => (c, c.cfg.uMin)
  | some id =>
      if c.lidOpen then (c, holdFeed t c)
      else if c.autotune.active then autotuneStep t c
      else askController t id c

/-- Begin the next Hold cycle once this one has run its length. -/
def runHoldCycle (t : Tick) (c : Control) : Control :=
  if cycleDone c.cycle t.now then
    let asked := holdRatio t c
    let cycle := cycleBegin asked.1.ccfg t.now (some asked.2)
    { asked.1 with
      uRaw := asked.2
      cycle := cycle
      uApplied := cycle.uApplied
      saturated := cycle.saturated
      fanPidActive := c.cfg.fanPid && !c.pwmControl && c.targetReached && asked.2 < c.cfg.uMin }
  else c

/-- Whether the auger cycle runs in this state: through an open lid only in
Hold. -/
def cycleRuns (c : Control) : Bool :=
  (c.mode.isFiring || c.mode == .prime) && (!c.lidOpen || c.mode == .hold)

/-- Begin the next cycle when it is due. -/
def nextCycle (t : Tick) (c : Control) : Control :=
  if c.mode = .hold then runHoldCycle t c
  else if c.mode ≠ .prime ∧ cycleDone c.cycle t.now then smokeCycle t c
  else c

/-- Switch the auger off and book the time it was on. -/
def bookAuger (t : Tick) (c : Control) : Control :=
  setOutput .auger false
    { c with augerTotalOnS := c.augerTotalOnS + (t.now - c.augerOnSince) }

/-- The auger follows its cycle, unless it is in the user's hands or resting. -/
def followCycle (t : Tick) (c : Control) : Control :=
  if c.manualUntil.auger ≤ t.now then
    let want := cycleAugerOn c.cycle t.now
    if want ∧ c.outputs.auger = false ∧ t.now ≥ c.augerRestUntil then
      { setOutput .auger true c with augerOnSince := t.now }
    else if want = false ∧ c.outputs.auger then bookAuger t c
    else c
  else c

/-- The auger where no cycle runs: off, unless it is in the user's hands. -/
def parkAuger (t : Tick) (c : Control) : Control :=
  if c.mode ≠ .manual ∧ c.outputs.auger ∧ c.manualUntil.auger ≤ t.now then
    setOutput .auger false c
  else c

/-- The cycle engine of a tick. -/
def driveCycle (t : Tick) (c : Control) : Control :=
  if cycleRuns c then followCycle t (nextCycle t c) else parkAuger t c

/-- Resting after the cap: off, whoever turned it on. -/
def restAuger (t : Tick) (c : Control) : Control :=
  if t.now < c.augerRestUntil ∧ c.outputs.auger then bookAuger t c else c

/-- How long the auger rests after the cap, in seconds. -/
def augerRestS : ℚ := 15

/-- The absolute cap on the auger, whoever turned it on; then it rests. -/
def capAuger (t : Tick) (c : Control) : Control :=
  if c.outputs.auger ∧ t.now - c.augerOnSince > c.cfg.augerMaxOnS then
    let booked := bookAuger t c
    { booked with
      manualUntil := c.manualUntil.set .auger 0, augerRestUntil := t.now + augerRestS }
  else c

/-- The duty for how far the pit is under the set point. -/
def pwmDuty (c : Control) : ℤ :=
  let duty :=
    if readsAbove c.pitC c.setpointC then c.cfg.pwmMinDuty
    else
      match c.cfg.pwmRangesC.findIdx? fun range => readsAtLeast c.pitC (c.setpointC - range) with
      | some i => c.cfg.pwmProfiles.getD i c.cfg.pwmMaxDuty
      | none => c.cfg.pwmMaxDuty
  truncate (clamp duty c.cfg.pwmMinDuty c.cfg.pwmMaxDuty)

/-- Update the duty of a variable-speed fan in Hold. -/
def choosePwmDuty (t : Tick) (c : Control) : Control :=
  if c.cfg.dcFan ∧ c.mode = .hold ∧ c.pwmControl ∧ t.now - c.fanUpdateT > c.cfg.pwmUpdateS then
    { c with fanUpdateT := t.now, dutyCycle := pwmDuty c }
  else c

/-- Below the least feed the fan is modulated instead. -/
def fanPidLogic (t : Tick) (c : Control) : Control :=
  let g := c.cfg
  let total := if c.sPlus then g.splusOnS + g.splusOffS else c.ccfg.cycleS
  let maxRatio := if c.sPlus then g.splusOnS / total else 1
  let ratio := max 0 (c.uRaw / g.uMin) * maxRatio
  if c.outputs.fan ∧ t.now - c.fanToggleT > total * ratio then
    { setOutput .fan false c with fanToggleT := t.now }
  else if c.outputs.fan = false ∧ t.now - c.fanToggleT > total * (1 - ratio) then
    { fanOn c.dutyCycle c with fanToggleT := t.now }
  else c

/-- The end of an off phase of Smoke Plus: a ramp, or the fan at its duty. -/
def splusFanOn (t : Tick) (c : Control) : Control :=
  let toggled := { c with fanToggleT := t.now }
  if c.cfg.dcFan ∧ c.cfg.splusRamp ∧ (c.mode = .smoke ∨ c.pwmControl = false) then
    { setFanPct c.cfg.pwmMinDuty (setOutput .fan true toggled) with
      fanRamping := true, rampEndT := t.now + c.cfg.splusOnS }
  else fanOn c.dutyCycle toggled

/-- The fan of Smoke Plus: on and off in turn, on outside its range. -/
def splusToggle (t : Tick) (c : Control) : Control :=
  let g := c.cfg
  let fan := c.outputs.fan
  if readsAbove c.pitC g.splusMaxC ∨ readsBelow c.pitC g.minTargetC then
    if fan then c else fanOn c.dutyCycle c
  else if fan ∧ t.now - c.fanToggleT > g.splusOnS then
    { setOutput .fan false c with fanToggleT := t.now }
  else if fan = false ∧ t.now - c.fanToggleT > g.splusOffS then splusFanOn t c
  else c

/-- A ramp of the fan in Smoke Plus. -/
def rampFan (t : Tick) (c : Control) : Control :=
  if c.fanRamping then
    let g := c.cfg
    let frac := 1 - max 0 (c.rampEndT - t.now) / g.splusOnS
    let target := truncate (g.pwmMaxDuty * g.splusDuty / 100)
    let driven := setFanPct (truncate (g.pwmMinDuty + (target - g.pwmMinDuty) * frac)) c
    if frac ≥ 1 then { driven with fanRamping := false } else driven
  else c

/-- The fan on at the configured duty. -/
def defaultFan (c : Control) : Control :=
  if c.outputs.fan = false then fanOn c.dutyCycle c
  else if c.cfg.dcFan then
    let want := if c.pwmControl ∧ c.mode = .hold then c.dutyCycle else c.cfg.pwmMaxDuty
    let held := if c.pwmControl then c else { c with dutyCycle := c.cfg.pwmMaxDuty }
    if c.outputs.fanPct ≠ want then setFanPct want held else held
  else c

/-- Whether Smoke Plus has the fan. -/
def splusPhase (c : Control) : Bool :=
  c.sPlus && (c.mode == .smoke || (c.mode == .hold && c.targetReached))

/-- The fan in Smoke and Hold; it stands aside for a hand on it and for an open
lid. -/
def runFanLogic (t : Tick) (c : Control) : Control :=
  if c.manualUntil.fan > t.now ∨ c.lidOpen then c
  else
    let chosen := choosePwmDuty t c
    if c.mode = .hold ∧ c.fanPidActive then fanPidLogic t chosen
    else if splusPhase c then rampFan t (splusToggle t chosen)
    else defaultFan chosen

/-- The fan of a tick. -/
def runFan (t : Tick) (c : Control) : Control :=
  if c.mode.isRunning then runFanLogic t c else c

/-- Overrides that have run out. -/
def ManualUntil.expire (now : ℚ) (m : ManualUntil) : ManualUntil :=
  let left (until_ : ℚ) : ℚ := if until_ ≤ now then 0 else until_
  { power := left m.power, fan := left m.fan, auger := left m.auger, igniter := left m.igniter }

/-- Manual overrides expire, except in Manual. -/
def expireManual (t : Tick) (c : Control) : Control :=
  if c.mode = .manual then c else { c with manualUntil := c.manualUntil.expire t.now }

/-- What a light hands over to. -/
def handoverMode (c : Control) : Mode :=
  let next := if c.mode = .reignite then c.safety.reigniteLast else c.nextMode
  if next.isRunning then next else .smoke

/-- Hand a proven light over. -/
def handOver (t : Tick) (c : Control) : Control :=
  let nm := handoverMode c
  let ended := onStartupExit t c
  let aimed := if nm = .hold then defaultSetpoint ended else ended
  enterMode t nm { aimed with sPlus := c.sPlus || c.cfg.splusDefault }

/-- The cool-down has run its time and the pit is below the hot mark, or it has
run three times as long. -/
def cooledDown (t : Tick) (c : Control) : Bool :=
  t.now - c.modeStart > c.cfg.shutdownS &&
    (!readsAbove c.validPit c.cfg.restartHotC || t.now - c.modeStart > 3 * c.cfg.shutdownS)

/-- A prime that has run its time. -/
def endPrime (t : Tick) (c : Control) : Control :=
  if c.nextMode = .startup then enterMode t .startup { c with nextMode := c.cfg.afterStartupMode }
  else enterMode t .stop c

/-- Stop the cool-down fan of Error. -/
def stopErrorFan (c : Control) : Control :=
  allOff (mapSafety (fun s => { s with errorFanUntil := 0 }) c)

/-- The cool-down fan of Error when its time is up. -/
def expireErrorFan (t : Tick) (c : Control) : Control :=
  if c.safety.errorFanUntil ≠ 0 ∧ t.now > c.safety.errorFanUntil then stopErrorFan c else c

/-- The cool-down fan stops when the pit climbs while it runs: it is feeding a
fire. -/
def stopFeedingFire (c : Control) : Control :=
  if c.safety.errorFanUntil ≠ 0 ∧
      c.safety.errorPitC.any fun pit => readsAbove c.validPit (pit + deltaToC 10 .f) then
    stopErrorFan c
  else c

/-- The fan in Error. -/
def errorFan (t : Tick) (c : Control) : Control :=
  stopFeedingFire (expireErrorFan t c)

/-- The changes of mode that are a matter of time. -/
def timedTransition (t : Tick) (c : Control) : Control :=
  match c.mode with
  | .startup | .reignite => if startupDone c then handOver t c else c
  | .shutdown =>
      if cooledDown t c then
        let stopped := enterMode t .stop c
        { stopped with powerOffRequested := c.powerOffRequested || c.cfg.autoPowerOff }
      else c
  | .prime => if t.now - c.modeStart > c.primeDurationS then endPrime t c else c
  | .error => errorFan t c
  | _ => c

/-- The auger of a tick: its cycle, the rest after a cap, the cap. -/
def feedAuger (t : Tick) (c : Control) : Control :=
  capAuger t (restAuger t (driveCycle t c))

/-- The logic of the mode the grill is in. -/
def runMode (t : Tick) (c : Control) : Control :=
  timedTransition t (expireManual t (runFan t (feedAuger t (watchLid t c))))

end PiFire
