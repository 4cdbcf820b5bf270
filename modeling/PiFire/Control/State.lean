import PiFire.Control.Config
import PiFire.Control.Notify
import PiFire.Control.Recipe

/-!
# State, commands and input of the control loop

`Control` is the state one step hands to the next, the relays included.
`Tick` is everything a step reads from outside it: the clocks, the drained
commands, the settings, the snapshot of the probes, and the answers of the
parts that are not the loop's own (the learned feed, the controller plugin, the
relay autotune, the rules engine). The learning windows, the published status,
the history and the texts of the events are left out.
-/

namespace PiFire

/-- Why a recovery after a power loss was refused. -/
inductive Refusal where
  | repeatedRestarts
  | unprovenIgnition
  | outageUnknown
  | tooLong (age : ℚ)
  deriving DecidableEq, Repr

/-- The errors the grill reports, with the numbers their messages quote. -/
inductive Fault where
  | overtemp (pitC limitC : ℚ)
  | flameout (belowC referenceC heldS : ℚ)
  | relightFailed (proven : Bool) (proveS : ℚ)
  | startupFailed (proven : Bool) (proveS : ℚ)
  | notHeating (proveS : ℚ) (hold : Bool)
  | probeFault (invalidS : ℚ)
  | controllerFault (id : String)
  | powerLoss (why : Refusal)
  deriving DecidableEq, Repr

/-- The code an error is published under. -/
def Fault.code : Fault → String
  | .overtemp .. => "E01_OVERTEMP"
  | .flameout .. => "E02_FLAMEOUT"
  | .relightFailed .. | .startupFailed .. | .notHeating .. => "E04_STARTUP_FAILED"
  | .probeFault .. => "E05_PROBE_FAULT"
  | .controllerFault .. => "E06_CONTROLLER_FAULT"
  | .powerLoss .. => "E08_POWER_LOSS"

/-- What the supervision remembers between ticks. A time of zero means that
the thing it times is not happening. -/
structure Safety where
  ssActive : Bool
  ssProven : Bool
  /-- Proven by a hot pit held up, rather than by a rise. -/
  ssHeld : Bool
  /-- The lowest filtered pit since the light began. -/
  ssBaselineC : Option ℚ
  ssDeadline : ℚ
  ssAboveSince : ℚ
  ssStart : ℚ
  ssEntryC : Option ℚ
  ssFlatC : ℚ
  ssFlatT : ℚ
  filtC : Option ℚ
  /-- The slower filter the fire is judged on. -/
  fireC : Option ℚ
  fallSince : ℚ
  /-- The highest the pit has been since startup. -/
  peakC : Option ℚ
  heating : Bool
  handoverC : Option ℚ
  established : Bool
  progressC : Option ℚ
  progressT : ℚ
  /-- A coast down to a lower working temperature. -/
  stepdownArmed : Bool
  /-- The igniter proves the fire at the end of a coast. -/
  proving : Bool
  reached : Bool
  stallSaid : Bool
  proveUntil : ℚ
  lastSpC : ℚ
  reigniteRetriesLeft : ℤ
  /-- The mode a relight goes back to. -/
  reigniteLast : Mode
  primaryInvalidSince : ℚ
  igniterOnSince : ℚ
  igniterLockedOut : Bool
  ctrlFaultCount : ℕ
  errorFanUntil : ℚ
  errorPitC : Option ℚ
  stopOvertempSaid : Bool
  error : Option Fault

/-- The supervision as a new light begins. -/
def safetyReset (retries : ℤ) : Safety :=
  { ssActive := false, ssProven := false, ssHeld := false, ssBaselineC := none
    ssDeadline := 0, ssAboveSince := 0, ssStart := 0, ssEntryC := some 0, ssFlatC := 0
    ssFlatT := 0, filtC := none, fireC := none, fallSince := 0, peakC := none
    heating := false, handoverC := some 0, established := false, progressC := some 0
    progressT := 0, stepdownArmed := false, proving := false, reached := false
    stallSaid := false, proveUntil := 0, lastSpC := 0, reigniteRetriesLeft := retries
    reigniteLast := .stop, primaryInvalidSince := 0, igniterOnSince := 0
    igniterLockedOut := false, ctrlFaultCount := 0, errorFanUntil := 0
    errorPitC := some 0, stopOvertempSaid := false, error := none }

/-- A mode request waiting for the drain to end. -/
structure Request where
  mode : Mode
  /-- Not positive: keep the current set point. -/
  setpointC : ℚ
  deriving DecidableEq

/-- The relay autotune, as far as the loop depends on it. -/
structure Autotune where
  active : Bool
  uCenter : ℚ
  /-- The average feed of the last complete cycle of the swing. -/
  lastLoad : ℚ

/-- Until when each output is in the user's hands; zero for not at all. -/
structure ManualUntil where
  power : ℚ
  fan : ℚ
  auger : ℚ
  igniter : ℚ

/-- No output is in the user's hands. -/
def ManualUntil.none : ManualUntil :=
  { power := 0, fan := 0, auger := 0, igniter := 0 }

/-- Put one output in the user's hands. -/
def ManualUntil.set (o : Output) (until_ : ℚ) (m : ManualUntil) : ManualUntil :=
  match o with
  | .power => { m with power := until_ }
  | .fan => { m with fan := until_ }
  | .auger => { m with auger := until_ }
  | .igniter => { m with igniter := until_ }

/-- The checkpoint of the cook: whether it is written at all, when it last was,
and the file. -/
structure Checkpoint where
  enabled : Bool
  writtenT : ℚ
  onDisk : Bool
  file : Option Json

/-- The state of the control loop. -/
structure Control where
  cfg : Cfg
  mode : Mode
  nextMode : Mode
  modeStart : ℚ
  aimSince : ℚ
  checkpoint : Checkpoint
  /-- The single slot for a mode request. -/
  req : Option Request
  setpointC : ℚ
  sPlus : Bool
  pwmControl : Bool
  dutyCycle : ℤ
  cycle : Cycle
  ccfg : CycleCfg
  /-- The loaded controller plugin. -/
  controller : Option String
  uRaw : ℚ
  uApplied : ℚ
  saturated : ℤ
  targetReached : Bool
  fanPidActive : Bool
  lidOpen : Bool
  lidOpenUntil : ℚ
  lidLowC : Option ℚ
  lidEvent : Bool
  lidEventT : ℚ
  restartResumed : Bool
  /-- Recoveries already made during this cook. -/
  recoveries : ℤ
  augerRestUntil : ℚ
  /-- The pit once a second, newest first. -/
  lidHist : List (ℚ × ℚ)
  lidHistLast : ℚ
  fanToggleT : ℚ
  fanUpdateT : ℚ
  fanRamping : Bool
  rampEndT : ℚ
  manualUntil : ManualUntil
  primeDurationS : ℚ
  primeAmountG : ℚ
  ssProfile : ℕ
  safety : Safety
  notify : Notify
  recipe : RecipeRun
  autotune : Autotune
  sensors : Sensors
  pitC : Option ℚ
  pitValid : Bool
  ambientC : Option ℚ
  ambientFromProbe : Bool
  augerOnSince : ℚ
  augerTotalOnS : ℚ
  cookStartWall : ℚ
  cookMaxPitC : ℚ
  lastStep : ℚ
  powerOffRequested : Bool
  outputs : Outputs

/-- The pit while its reading is valid. -/
def Control.validPit (c : Control) : Option ℚ :=
  if c.pitValid then c.pitC else none

/-- Change the recipe being run. -/
def mapRecipe (f : RecipeRun → RecipeRun) (c : Control) : Control :=
  { c with recipe := f c.recipe }

/-- Change what the supervision remembers. -/
def mapSafety (f : Safety → Safety) (c : Control) : Control :=
  { c with safety := f c.safety }

/-- Limits of the auger cycle for the configuration in force. -/
def cycleCfgFor (cfg : Cfg) : CycleCfg :=
  { cycleS := cfg.holdCycleS, uMin := cfg.uMin, uMax := cfg.uMax, maxOnS := cfg.augerMaxOnS }

/-- The commands of the queue, with the fields each one reads. -/
inductive Cmd where
  | mode (mode : Mode) (num : ℚ) (flag : Bool)
  | setpoint (num : ℚ)
  | smokePlus (flag : Bool)
  | pwmControl (flag : Bool)
  | dutyCycle (num : ℚ)
  | manualOutput (str : String) (flag : Bool) (num : ℚ)
  | lidToggle
  | prime (num : ℚ) (str : String)
  | settingsChanged
  | controllerChanged
  | probesChanged
  | stop
  | clearError
  | notifyTarget (label : String) (num num2 : ℚ) (aux : ℤ) (flag : Bool) (meat done : String)
  | notifyLimits (label : String) (num num2 : ℚ)
  | timerStart (num : ℚ) (aux : ℤ)
  | timerPause
  | timerResume
  | timerCancel
  | notifyTest
  | probesInUse (labels : String)
  | recipeStart (num : ℚ)
  | recipeNext
  | recipeStop
  | recipeSkip
  | recipeBack
  | recipeFlag (num num2 : ℚ)
  | autotuneStart
  | autotuneStop
  | tuningApply
  | forgetLearning (aux : ℤ) (str : String)
  deriving DecidableEq

/-- What a controller plugin or the relay is shown. -/
structure CtrlIn where
  now : ℚ
  pitC : Option ℚ
  setpointC : ℚ
  ambientC : Option ℚ
  uPrevRaw : ℚ
  uPrevApplied : ℚ
  uFf : ℚ
  saturated : ℤ
  targetReached : Bool
  lid : Bool

/-- One answer of the running relay autotune. -/
structure RelayStep where
  u : ℚ
  uCenter : ℚ
  lastLoad : ℚ
  finished : Bool

/-- What a step's condition tree is evaluated against. -/
structure StepFacts where
  mode : Mode
  setpointC : ℚ
  lidOpen : Bool
  cookElapsed : ℚ
  aimingS : ℚ
  sensors : Sensors
  elapsed : ℚ
  prompt : Bool
  lid : Bool

/-- The parts the loop consults and does not own. -/
structure Services where
  recipes : RecipeStore
  estimates : RestEstimates
  /-- The learned feed for a temperature and an ambient within two limits. -/
  learningUff : ℚ → Option ℚ → ℚ → ℚ → ℚ
  /-- The controller that comes up when this one is asked for. -/
  loadController : String → Option String
  /-- A controller's feed; `none` for a NaN or an infinity. -/
  controllerUpdate : String → CtrlIn → Option ℚ
  /-- The relay's centre and first feed at a set point, when the feed that
  holds it is known. -/
  relayStart : ℚ → Option (ℚ × ℚ)
  relayStep : CtrlIn → RelayStep
  evalTree : Json → StepFacts → Bool
  /-- Seconds until a tree is due to become true; negative when unknown. -/
  treeEta : Json → StepFacts → ℚ

/-- The input of one step. -/
structure Tick where
  now : ℚ
  wall : ℚ
  bootId : String
  cmds : List Cmd
  settings : Json
  sensors : Sensors
  weatherC : Option ℚ
  /-- The last plausible outdoor reading kept in the database. -/
  ambientLast : Option ℚ
  shutdownInput : Bool
  services : Services

end PiFire
