import PiFire.Control.Json

/-!
# The configuration in force

The control loop works from a copy of the settings converted to Celsius. The
copy is read afresh at every reload, so a limit takes effect on the next tick.
The igniter's limit and the ignition rises are held to their ranges as they
are read, whatever the settings say; the configuration carries these facts.
-/

namespace PiFire

/-- The hard ceiling on the igniter's continuous time, in seconds. -/
def igniterMaxS : ℚ := 300

/-- How many Smart Start ranges and fan ranges are kept. -/
def ssMax : ℕ := 8

/-- The startup feed for one range of the pit. -/
structure StartupProfile where
  augerontime : ℚ
  pMode : ℤ

/-- The settings as the control loop uses them. -/
structure Cfg where
  units : Units
  holdCycleS : ℚ
  smokeOnS : ℚ
  smokeOffS : ℚ
  pmode : ℤ
  uMin : ℚ
  uMax : ℚ
  lidDetect : Bool
  lidThresholdPct : ℚ
  lidPauseS : ℚ
  /-- The climb off the low that says the lid is back on. -/
  lidResumeRiseC : ℚ
  fanPid : Bool
  maxTempC : ℚ
  restartHotC : ℚ
  /-- The set points the grill accepts. -/
  minTargetC : ℚ
  maxTargetC : ℚ
  /-- Smoke's working temperature. -/
  smokeMinC : ℚ
  powerLossRecovery : Bool
  powerLossMaxS : ℚ
  reigniteRetries : ℤ
  allowManual : Bool
  manualOverrideS : ℚ
  igniterMaxOnS : ℚ
  augerMaxOnS : ℚ
  probeFaultS : ℚ
  errorCooldownFanS : ℚ
  relightEnabled : Bool
  relightDropC : ℚ
  relightProveS : ℚ
  relightConfirmS : ℚ
  ssProveS : ℚ
  ssProveRiseC : ℚ
  ssExitRiseC : ℚ
  primeOnStartupG : ℚ
  afterStartupMode : Mode
  afterStartupSetpointC : ℚ
  ssRangesC : List ℚ
  ssProf : List StartupProfile
  startupPwmDuty : ℤ
  shutdownS : ℚ
  autoPowerOff : Bool
  splusDefault : Bool
  splusMaxC : ℚ
  splusOnS : ℚ
  splusOffS : ℚ
  splusDuty : ℤ
  splusRamp : Bool
  dcFan : Bool
  pwmControlDefault : Bool
  pwmUpdateS : ℚ
  pwmMinDuty : ℤ
  pwmMaxDuty : ℤ
  pwmRangesC : List ℚ
  pwmProfiles : List ℤ
  augerrate : ℚ
  primeIgnition : Bool
  keepwarmC : ℚ
  keepwarmSplus : Bool
  controllerId : String
  igniter_capped : 0 < igniterMaxOnS ∧ igniterMaxOnS ≤ igniterMaxS
  rises_ordered : 0 < ssProveRiseC ∧ ssProveRiseC < ssExitRiseC
  after_startup_runs : afterStartupMode.isRunning

/-- A number of seconds as the igniter's limit: the ceiling unless it is
positive and under it. -/
def igniterLimit (seconds : ℚ) : ℚ :=
  if ¬0 < seconds ∨ igniterMaxS < seconds then igniterMaxS else seconds

theorem igniterLimit_capped (seconds : ℚ) :
    0 < igniterLimit seconds ∧ igniterLimit seconds ≤ igniterMaxS := by
  unfold igniterLimit
  split_ifs with outside
  · constructor <;> norm_num [igniterMaxS]
  · push Not at outside
    exact outside

/-- The rise that proves ignition: three Fahrenheit degrees unless positive. -/
def proveRise (rise : ℚ) : ℚ :=
  if ¬0 < rise then deltaToC 3 .f else rise

/-- The rise that ends startup: above the one that proves ignition. -/
def exitRise (prove rise : ℚ) : ℚ :=
  if ¬prove < rise then prove + deltaToC 9 .f else rise

theorem proveRise_pos (rise : ℚ) : 0 < proveRise rise := by
  unfold proveRise
  split_ifs with positive
  · exact positive
  · norm_num [deltaToC]

theorem lt_exitRise (prove rise : ℚ) : prove < exitRise prove rise := by
  unfold exitRise
  split_ifs with above
  · exact above
  · norm_num [deltaToC]

/-- The numbers among the values of a list setting, at most `ssMax` of them. -/
def rangeList (r : Json) (path : List String) (convert : ℚ → ℚ) : List ℚ :=
  let values := ((jsonPath r path).map Json.children).getD []
  (values.filterMap fun
    | .num x => some (convert x)
    | _ => none).take ssMax

/-- One entry for each range and one past the last; a short list is filled up
with its last entry, an empty one with `fallback`. -/
def fillUp {α : Type} (given : List α) (fallback : α) : List α :=
  let kept := given.take (ssMax + 1)
  kept ++ List.replicate (ssMax + 1 - kept.length) (kept.getLast?.getD fallback)

/-- The startup profiles; an empty list keeps the first one of the
configuration before. -/
def startupProfiles (r : Json) (before : StartupProfile) : List StartupProfile :=
  let values := ((jsonPath r ["startup", "smartstart", "profiles"]).map Json.children).getD []
  fillUp (values.map fun profile =>
    { augerontime := jsonNum profile ["augerontime"] 15
      pMode := jsonInt profile ["p_mode"] 2 }) before

/-- The fan's duty for each range; ranges without one run at the maximum. -/
def fanProfiles (r : Json) (maxDuty : ℤ) : List ℤ :=
  let values := ((jsonPath r ["pwm", "profiles"]).map Json.children).getD []
  let given := (values.map fun profile => jsonInt profile ["duty_cycle"] 100).take (ssMax + 1)
  given ++ List.replicate (ssMax + 1 - given.length) maxDuty

/-- What startup hands over to: Hold when the settings say so, else Smoke. -/
def afterStartup (name : String) : Mode :=
  if strcasecmp name "Hold" then .hold else .smoke

theorem afterStartup_isRunning (name : String) : (afterStartup name).isRunning := by
  unfold afterStartup
  split_ifs <;> rfl

/-- The display units in the settings. -/
def settingsUnits (r : Json) : Units :=
  if (jsonStr r ["globals", "units"] "F").toList.head? == some 'C' then .c else .f

/-- Read the configuration from the settings tree. `before` is the first
startup profile of the configuration being replaced. -/
def loadCfg (before : StartupProfile) (r : Json) : Cfg :=
  let u := settingsUnits r
  let temp path dflt := toC (jsonNum r path dflt) u
  let delta path dflt := deltaToC (jsonNum r path dflt) u
  let prove := proveRise (delta ["startup", "smartstart", "prove_rise"] 3)
  let maxDuty := jsonInt r ["pwm", "max_duty_cycle"] 100
  { units := u
    holdCycleS := jsonNum r ["cycle_data", "HoldCycleTime"] 25
    smokeOnS := jsonNum r ["cycle_data", "SmokeOnCycleTime"] 15
    smokeOffS := jsonNum r ["cycle_data", "SmokeOffCycleTime"] 45
    pmode := jsonInt r ["cycle_data", "PMode"] 2
    uMin := jsonNum r ["cycle_data", "u_min"] (1 / 10)
    uMax := jsonNum r ["cycle_data", "u_max"] (9 / 10)
    lidDetect := jsonBool r ["cycle_data", "LidOpenDetectEnabled"] false
    lidThresholdPct := jsonNum r ["cycle_data", "LidOpenThreshold"] 15
    lidPauseS := jsonNum r ["cycle_data", "LidOpenPauseTime"] 60
    lidResumeRiseC := delta ["cycle_data", "LidOpenResumeRise"] 10
    fanPid := jsonBool r ["cycle_data", "FanPidEnabled"] false
    maxTempC := temp ["safety", "maxtemp"] 650
    minTargetC := temp ["safety", "min_target"] 160
    maxTargetC := temp ["safety", "max_target"] 550
    smokeMinC := temp ["safety", "smoke_min"] 180
    restartHotC := temp ["safety", "restart_hot_temp"] 150
    powerLossRecovery := jsonBool r ["safety", "power_loss", "recovery"] true
    powerLossMaxS := jsonNum r ["safety", "power_loss", "max_s"] 300
    reigniteRetries := jsonInt r ["safety", "reigniteretries"] 1
    allowManual := jsonBool r ["safety", "allow_manual_changes"] false
    manualOverrideS := jsonNum r ["safety", "manual_override_time"] 30
    igniterMaxOnS := igniterLimit (jsonNum r ["safety", "igniter_max_on_s"] igniterMaxS)
    augerMaxOnS := jsonNum r ["safety", "auger_max_on_s"] 60
    probeFaultS := jsonNum r ["safety", "probe_fault_s"] 10
    relightEnabled := jsonBool r ["safety", "relight_enabled"] true
    relightDropC := delta ["safety", "relight_drop"] 20
    relightConfirmS := clamp (jsonNum r ["safety", "relight_confirm_s"] 60) 0 600
    relightProveS := clamp (jsonNum r ["safety", "relight_prove_s"] 180) 0 igniterMaxS
    errorCooldownFanS := jsonNum r ["safety", "error_cooldown_fan_s"] 300
    ssProveS := clamp (jsonNum r ["startup", "smartstart", "prove_s"] 300) 60 igniterMaxS
    ssProveRiseC := prove
    ssExitRiseC := exitRise prove (delta ["startup", "smartstart", "exit_rise"] 12)
    primeOnStartupG := jsonNum r ["startup", "prime_on_startup"] 0
    afterStartupMode :=
      afterStartup (jsonStr r ["startup", "start_to_mode", "after_startup_mode"] "Smoke")
    afterStartupSetpointC := temp ["startup", "start_to_mode", "primary_setpoint"] 165
    ssRangesC := rangeList r ["startup", "smartstart", "temp_range_list"] (toC · u)
    ssProf := startupProfiles r before
    startupPwmDuty := jsonInt r ["startup", "pwm_duty_cycle"] 100
    shutdownS := jsonNum r ["shutdown", "shutdown_duration"] 240
    autoPowerOff := jsonBool r ["shutdown", "auto_power_off"] false
    splusDefault := jsonBool r ["smoke_plus", "enabled"] false
    splusMaxC := temp ["smoke_plus", "max_temp"] 220
    splusOnS := jsonNum r ["smoke_plus", "on_time"] 5
    splusOffS := jsonNum r ["smoke_plus", "off_time"] 5
    splusDuty := jsonInt r ["smoke_plus", "duty_cycle"] 75
    splusRamp := jsonBool r ["smoke_plus", "fan_ramp"] false
    dcFan := jsonBool r ["platform", "dc_fan"] false
    pwmControlDefault := jsonBool r ["pwm", "pwm_control"] false
    pwmUpdateS := jsonNum r ["pwm", "update_time"] 10
    pwmMinDuty := jsonInt r ["pwm", "min_duty_cycle"] 20
    pwmMaxDuty := maxDuty
    pwmRangesC := rangeList r ["pwm", "temp_range_list"] (deltaToC · u)
    pwmProfiles := fanProfiles r maxDuty
    augerrate := jsonNum r ["globals", "augerrate"] (3 / 10)
    primeIgnition := jsonBool r ["globals", "prime_ignition"] false
    keepwarmC := temp ["keep_warm", "temp"] 165
    keepwarmSplus := jsonBool r ["keep_warm", "s_plus"] false
    controllerId := jsonStr r ["controller", "selected"] "pid"
    igniter_capped := igniterLimit_capped _
    rises_ordered := ⟨proveRise_pos _, lt_exitRise _ _⟩
    after_startup_runs := afterStartup_isRunning _ }

end PiFire
