import PiFire.Control.Runner

/-!
# Requests and commands

A mode asked for by a command waits in a single slot until the queue has been
drained and the probes have been read; a few commands act at once.
-/

namespace PiFire

/-- Ask for a mode. The slot holds one request: the last one asked for. -/
def controlRequest (m : Mode) (setpointC : ℚ) (c : Control) : Control :=
  { c with req := some { mode := m, setpointC := setpointC } }

/-- The requests a mode does not accept. In Error only Stop is. Relight and
Error are the grill's own decisions. Prime and Manual put the outputs in
somebody's hands, so only from a grill that is not burning. -/
def refuses (mode asked : Mode) : Bool :=
  match asked with
  | .stop => false
  | .reignite | .error => true
  | .prime | .manual => mode != .stop && mode != .monitor
  | _ => mode == .error

/-- Stop clears the error, and a recipe with it. -/
def clearForStop (c : Control) : Control :=
  let cleared := { c with safety := { c.safety with error := none } }
  if c.recipe.active then recipeDrop cleared else cleared

/-- A set point that is not positive gives way to the one startup ends with. -/
def defaultSetpoint (c : Control) : Control :=
  if c.setpointC ≤ 0 then { c with setpointC := c.cfg.afterStartupSetpointC } else c

/-- Start up, with the prime that goes before it from a grill at rest. -/
def requestStartup (t : Tick) (reqSetpointC : ℚ) (c : Control) : Control :=
  let usual := c.cfg.afterStartupMode = .hold ∧ reqSetpointC ≤ 0
  let aimed := { c with
    nextMode := c.cfg.afterStartupMode
    setpointC := if usual then c.cfg.afterStartupSetpointC else c.setpointC }
  if c.cfg.primeOnStartupG > 0 ∧ (c.mode = .stop ∨ c.mode = .monitor) then
    enterMode t .prime
      { aimed with primeAmountG := c.cfg.primeOnStartupG, nextMode := .startup }
  else enterMode t .startup aimed

/-- Smoke or Hold: an idle grill is lit first, one being lit keeps it for when
startup finishes. -/
def requestRunning (t : Tick) (m : Mode) (c : Control) : Control :=
  if c.mode.isIdle then enterMode t .startup { c with nextMode := m }
  else if c.mode = .hold ∧ m = .hold then { c with targetReached := false }
  else if c.mode = .reignite then { c with safety := { c.safety with reigniteLast := m } }
  else if c.mode = .startup then { c with nextMode := m }
  else enterMode t m c

/-- Carry out a request that was not refused. -/
def carryOut (t : Tick) (r : Request) (c : Control) : Control :=
  match r.mode with
  | .shutdown => if c.recipe.active then recipeFinishNow t c else enterMode t .shutdown c
  | .stop => enterMode t .stop (clearForStop c)
  | .startup => requestStartup t r.setpointC c
  | .hold => requestRunning t .hold (defaultSetpoint c)
  | .smoke => requestRunning t .smoke c
  | other => enterMode t other c

/-- Take the request from the slot: its set point first, then the mode unless
it is refused. -/
def applyRequest (t : Tick) (c : Control) : Control :=
  match c.req with
  | none => c
  | some r =>
      let taken := { c with
        req := none
        setpointC := if r.setpointC > 0 then r.setpointC else c.setpointC }
      if refuses c.mode r.mode then taken else carryOut t r taken

/-- Load a controller plugin. -/
def controllerLoad (t : Tick) (id : String) (c : Control) : Control :=
  let loaded := t.services.loadController id
  { c with
    controller := loaded
    safety := { c.safety with
      ctrlFaultCount := if loaded.isSome then 0 else c.safety.ctrlFaultCount } }

/-- The configuration read from the settings, over the one in force. -/
def reloadCfg (t : Tick) (c : Control) : Control :=
  { c with cfg := loadCfg (c.cfg.ssProf.headD { augerontime := 0, pMode := 0 }) t.settings }

/-- Read the settings again. -/
def controlReloadSettings (t : Tick) (c : Control) : Control :=
  let loaded := reloadCfg t c
  let fitted := { loaded with ccfg := cycleCfgFor loaded.cfg }
  if fitted.cfg.controllerId ≠ c.cfg.controllerId then
    controllerLoad t fitted.cfg.controllerId fitted
  else fitted

/-- How far from the set point the swing may start: 15 Fahrenheit degrees. -/
def autotuneBandC : ℚ := deltaToC 15 .f

/-- Whether the swing may start. -/
def autotuneReady (c : Control) : Bool :=
  c.mode == .hold && c.setpointC > 0 &&
    c.validPit.any fun pit => |pit - c.setpointC| ≤ autotuneBandC

/-- Start the relay autotune. Without a known load it does not run. -/
def autotuneStart (t : Tick) (c : Control) : Control :=
  if autotuneReady c then
    match t.services.relayStart c.setpointC with
    | none => { c with autotune := { active := false, uCenter := 0, lastLoad := 0 } }
    | some (centre, output) =>
        let centred := clamp centre (c.cfg.uMin + 1 / 20) (c.cfg.uMax - 1 / 20)
        applyCycle (cycleBegin c.ccfg t.now (some output))
          { c with autotune := { active := true, uCenter := centred, lastLoad := 0 } }
  else c

/-- Whether the user may drive the outputs directly: they are idle. -/
def outputsFree (m : Mode) : Bool :=
  m == .manual || m == .monitor

/-- A time no clock reaches. -/
def forever : ℚ := 10 ^ 18

/-- Whether a manual output command is accepted. An error holds the outputs. -/
def acceptsManual (c : Control) : Bool :=
  c.mode != .error && (outputsFree c.mode || c.cfg.allowManual)

/-- Switch one output by hand. A variable-speed fan asked for without a duty
runs at full speed. -/
def manualSwitch (t : Tick) (until_ : ℚ) (o : Output) (on : Bool) (c : Control) : Control :=
  let blown :=
    if o = .fan ∧ on ∧ c.cfg.dcFan ∧ c.outputs.fanPct ≤ 0 then
      setFanPct (if c.cfg.pwmMaxDuty > 0 then c.cfg.pwmMaxDuty else 100) c
    else c
  let switched := setOutput o on blown
  { switched with
    manualUntil := c.manualUntil.set o until_
    augerOnSince := if o = .auger ∧ on then t.now else c.augerOnSince }

/-- A manual output command. -/
def manualOutput (t : Tick) (str : String) (on : Bool) (num : ℚ) (c : Control) : Control :=
  if acceptsManual c then
    let until_ := if outputsFree c.mode then forever else t.now + c.cfg.manualOverrideS
    if str = "pwm" then
      { setFanPct (truncate num) c with manualUntil := c.manualUntil.set .fan until_ }
    else
      match Output.all.find? fun o => str == o.name with
      | some o => manualSwitch t until_ o on c
      | none => c
  else c

/-- Open or close the lid by hand; only Hold pauses for it. -/
def lidToggle (t : Tick) (c : Control) : Control :=
  if c.mode = .hold then
    if c.lidOpen then fanOn c.dutyCycle { c with lidOpen := false }
    else
      let parked := fanOn c.dutyCycle (setOutput .auger false { c with
        lidOpen := true, lidOpenUntil := t.now + c.cfg.lidPauseS, lidLowC := c.pitC })
      { parked with cycle := cycleStop c.cycle, targetReached := false }
  else c

/-- What a set point just given asks of the mode: while lighting it is where
startup finishes; in Smoke it asks for Hold. -/
def followSetpoint (c : Control) : Control :=
  match c.mode with
  | .startup => { c with nextMode := .hold }
  | .reignite => mapSafety (fun s => { s with reigniteLast := .hold }) c
  | .smoke => controlRequest .hold c.setpointC c
  | _ => c

/-- A new set point. -/
def commandSetpoint (t : Tick) (num : ℚ) (c : Control) : Control :=
  if num > 0 then
    followSetpoint { c with
      setpointC := toC num c.cfg.units, targetReached := false, aimSince := t.now }
  else c

/-- Whether a mode command ends the light by the user's judgement. -/
def forcesHandover (c : Control) (m : Mode) (flag : Bool) : Bool :=
  flag && c.mode.isLighting && m.isRunning

/-- The user ends startup: the fire is lit by their judgement. -/
def forceHandover (t : Tick) (m : Mode) (num : ℚ) (c : Control) : Control :=
  let asked := if num > 0 then toC num c.cfg.units else c.setpointC
  let sp := if m = .hold ∧ asked ≤ 0 then c.cfg.afterStartupSetpointC else asked
  let ended := onStartupExit t { c with setpointC := sp }
  enterMode t m { ended with sPlus := c.sPlus || c.cfg.splusDefault }

/-- A mode command. -/
def commandMode (t : Tick) (m : Mode) (num : ℚ) (flag : Bool) (c : Control) : Control :=
  if forcesHandover c m flag then forceHandover t m num c
  else controlRequest m (if num > 0 then toC num c.cfg.units else 0) c

/-- A prime: only a grill at rest starts it. -/
def commandPrime (t : Tick) (num : ℚ) (str : String) (c : Control) : Control :=
  let aimed := { c with
    primeAmountG := num
    nextMode := if strcasecmp str "Startup" then .startup else .stop }
  if c.mode = .stop ∨ c.mode = .monitor then enterMode t .prime aimed else aimed

/-- A target on a food probe: a rested temperature, or a take-off. -/
def commandTarget (t : Tick) (label : String) (num num2 : ℚ) (aux : ℤ) (flag : Bool)
    (meat done : String) (c : Control) : Control :=
  let u := c.cfg.units
  let synced := notifySync c.sensors c.notify
  let targeted :=
    if flag ∧ num > 0 then
      notifySetTargetNote label meat done (toC num u)
        (notifySetRest t.services.estimates label (toC num u) aux synced)
    else
      notifySetTargetNote label meat done (if num2 > 0 then toC num2 u else 0)
        (notifySetTarget label (if num > 0 then toC num u else 0) aux synced)
  { c with notify := targeted }

/-- Limits on a food probe. -/
def commandLimits (label : String) (num num2 : ℚ) (c : Control) : Control :=
  let u := c.cfg.units
  { c with
    notify := notifySetLimits label (if num > 0 then toC num u else 0)
      (if num2 > 0 then toC num2 u else 0) (notifySync c.sensors c.notify) }

/-- Change the timer. -/
def onTimer (f : Timer → Timer) (c : Control) : Control :=
  { c with notify := { c.notify with timer := f c.notify.timer } }

/-- Start a recipe. The recipe it loads into is the one in use: a load that
fails leaves that one cleared. -/
def commandRecipeStart (t : Tick) (num : ℚ) (c : Control) : Control :=
  if c.mode = .error then c
  else
    let load := recipeLoad t.services.recipes (settingsUnits t.settings) (truncate num)
    let stored := { c with recipe := { c.recipe with r := load.1 } }
    if load.2 then
      recipeBeginStep t { stored with
        recipe := { stored.recipe with
          active := true, step := 0, flags := clearFlags, leftRunning := false } }
    else stored

/-- The cook has answered the step; a pause they asked for is released too. -/
def commandRecipeNext (c : Control) : Control :=
  if c.recipe.active then
    let answered := { c.recipe with promptGiven := true, lastEval := 0 }
    { c with
      recipe := if c.recipe.pauses then answered.setFlag c.recipe.step 0 else answered }
  else c

/-- End the current step by hand. -/
def commandRecipeSkip (t : Tick) (c : Control) : Control :=
  if c.recipe.active then recipeAdvance t c else c

/-- Begin the step before again. -/
def commandRecipeBack (t : Tick) (c : Control) : Control :=
  if c.recipe.active ∧ c.recipe.step > 0 then
    recipeBeginStep t { c with recipe := { c.recipe with step := c.recipe.step - 1 } }
  else c

/-- The override of one step. -/
def commandRecipeFlag (num num2 : ℚ) (c : Control) : Control :=
  let i := truncate num
  if c.recipe.active ∧ 0 ≤ i ∧ i < c.recipe.r.nsteps ∧ i < recipeMaxSteps then
    { c with recipe := c.recipe.setFlag i.toNat (truncate num2 % 256).toNat.toUInt8 }
  else c

/-- What a stop takes with it: the recipe, the pending request and the error. -/
def clearAll (c : Control) : Control :=
  { c with
    recipe := { c.recipe with active := false }
    req := none
    safety := { c.safety with error := none } }

/-- The emergency stop: always honoured. -/
def commandStop (t : Tick) (c : Control) : Control :=
  clearAll (enterMode t .stop c)

/-- One command. The commands that only reach the probes, the learning or the
events change nothing here. -/
def handleCmd (t : Tick) (c : Control) : Cmd → Control
  | .stop => commandStop t c
  | .mode m num flag => commandMode t m num flag c
  | .setpoint num => commandSetpoint t num c
  | .smokePlus flag => { c with sPlus := flag }
  | .pwmControl flag => { c with pwmControl := flag }
  | .dutyCycle num =>
      let duty := truncate (clamp num c.cfg.pwmMinDuty c.cfg.pwmMaxDuty)
      let set := { c with dutyCycle := duty }
      if c.outputs.fan then setFanPct duty set else set
  | .manualOutput str flag num => manualOutput t str flag num c
  | .lidToggle => lidToggle t c
  | .prime num str => commandPrime t num str c
  | .settingsChanged => controlReloadSettings t c
  | .controllerChanged =>
      let loaded := reloadCfg t c
      controllerLoad t loaded.cfg.controllerId loaded
  | .clearError => if c.mode = .error then enterMode t .stop c else c
  | .notifyTarget label num num2 aux flag meat done =>
      commandTarget t label num num2 aux flag meat done c
  | .notifyLimits label num num2 => commandLimits label num num2 c
  | .timerStart num aux => onTimer (timerStart num aux t.now) c
  | .timerPause => onTimer (timerPause t.now) c
  | .timerResume => onTimer (timerResume t.now) c
  | .timerCancel => onTimer (fun _ => .none) c
  | .recipeStart num => commandRecipeStart t num c
  | .recipeNext => commandRecipeNext c
  | .recipeSkip => commandRecipeSkip t c
  | .recipeBack => commandRecipeBack t c
  | .recipeFlag num num2 => commandRecipeFlag num num2 c
  | .recipeStop => if c.recipe.active then recipeDrop c else c
  | .autotuneStart => autotuneStart t c
  | .autotuneStop => if c.autotune.active then autotuneFinish c else c
  | .probesChanged | .notifyTest | .probesInUse _ | .tuningApply | .forgetLearning _ _ => c

end PiFire
