import PiFire.Control.Command

/-!
# Supervision

Every tick judges the pit, the igniter and the fire. The answer is no change,
Error with its fault recorded, or a relight. The supervision may also switch
the igniter and the auger by itself.
-/

namespace PiFire

/-- The mode the supervision asks for. -/
inductive Action where
  | none
  | reignite
  | error
  deriving DecidableEq, Repr

/-- The filter Smart Start reads the pit through, in seconds. -/
def proveFilterS : ℚ := 10

/-- The filter the fire is judged through, in seconds. -/
def fireFilterS : ℚ := 30

/-- The drop is at least this much of the pit's rise above the outdoor air. -/
def fallFraction : ℚ := 6 / 100

/-- How long the proving rise must hold. -/
def proveHoldS : ℚ := 15

/-- How long a lid event holds the judgement back. -/
def lidAllowS : ℚ := 300

/-- A pit this far above the outdoor air cannot stop cooling without a fire. -/
def hotDeltaC : ℚ := 833 / 10

/-- How long a hot pit must stop falling. -/
def hotFlatS : ℚ := 120

/-- What still counts as not falling. -/
def hotSlipC : ℚ := 56 / 100

/-- Record a fault. -/
def setError (fault : Fault) (c : Control) : Control :=
  { c with safety := { c.safety with error := some fault } }

/-- Whether the pit is over the limit in a mode that is judged for it. -/
def overheated (c : Control) : Bool :=
  c.mode != .stop && c.mode != .error && readsAbove c.validPit c.cfg.maxTempC

/-- The cap on the igniter. Once it has tripped in a mode, the igniter is
refused for the rest of that mode. -/
def capIgniter (t : Tick) (c : Control) : Control :=
  if c.outputs.igniter then
    if c.safety.igniterLockedOut then setOutput .igniter false c
    else if c.safety.igniterOnSince = 0 then
      { c with safety := { c.safety with igniterOnSince := t.now } }
    else if t.now - c.safety.igniterOnSince > c.cfg.igniterMaxOnS then
      setOutput .igniter false { c with safety := { c.safety with igniterLockedOut := true } }
    else c
  else { c with safety := { c.safety with igniterOnSince := 0 } }

/-- A firing grill whose pit cannot be read. -/
def judgeProbe (t : Tick) (c : Control) : Control × Action :=
  if c.safety.primaryInvalidSince = 0 then
    ({ c with safety := { c.safety with primaryInvalidSince := t.now } }, .none)
  else if t.now - c.safety.primaryInvalidSince > c.cfg.probeFaultS then
    (setError (.probeFault c.cfg.probeFaultS) c, .error)
  else (c, .none)

/-- One step of a first-order filter; it starts at its first reading. -/
def filterStep (dt tau : ℚ) (before : Option ℚ) (pit : ℚ) : ℚ :=
  match before with
  | none => pit
  | some f => f + (pit - f) * (if dt / tau > 1 then 1 else dt / tau)

/-- The time since the step before. -/
def stepTime (t : Tick) (c : Control) : ℚ :=
  if c.lastStep > 0 then t.now - c.lastStep else 1 / 10

/-- The filtered pits of a firing grill. -/
def filterPit (t : Tick) (pit : ℚ) (c : Control) : Control :=
  let dt := stepTime t c
  { c with
    safety := { c.safety with
      primaryInvalidSince := 0
      filtC := some (filterStep dt proveFilterS c.safety.filtC pit)
      fireC := some (filterStep dt fireFilterS c.safety.fireC pit) } }

/-- The ambient temperature, 20 while it is unknown. -/
def ambientOr20 (c : Control) : ℚ := c.ambientC.getD 20

/-- The lowest filtered pit, after this reading. -/
def lowest (baseline : Option ℚ) (filt : ℚ) : ℚ :=
  match baseline with
  | none => filt
  | some b => if filt < b then filt else b

/-- The proof of ignition by a rise that holds. -/
def proveByRise (t : Tick) (filt : ℚ) (c : Control) : Control :=
  let s := c.safety
  let base := lowest s.ssBaselineC filt
  let risen := filt ≥ base + c.cfg.ssProveRiseC
  let held := risen ∧ s.ssAboveSince ≠ 0 ∧ t.now - s.ssAboveSince ≥ proveHoldS
  { c with
    safety := { s with
      ssBaselineC := some base
      ssAboveSince := if risen then (if s.ssAboveSince = 0 then t.now else s.ssAboveSince) else 0
      ssProven := if held then true else s.ssProven
      ssDeadline := if held then t.now + c.cfg.ssProveS else s.ssDeadline } }

/-- The proof of ignition by a hot pit that stops falling. -/
def proveByHold (t : Tick) (filt : ℚ) (c : Control) : Control :=
  let s := c.safety
  let slipped := filt < s.ssFlatC - hotSlipC ∨ s.ssFlatT = 0
  let flatT := if slipped then t.now else s.ssFlatT
  let held := s.ssProven = false ∧ filt - ambientOr20 c ≥ hotDeltaC ∧ t.now - flatT ≥ hotFlatS
  { c with
    safety := { s with
      ssFlatC := if slipped then filt else s.ssFlatC
      ssFlatT := flatT
      ssProven := if held then true else s.ssProven
      ssHeld := if held then true else s.ssHeld } }

/-- Smart Start in Startup and Relight: the proof, and the time it has. -/
def judgeLight (t : Tick) (c : Control) : Control × Action :=
  let filt := c.safety.filtC.getD 0
  let judged := if c.safety.ssProven then c else proveByHold t filt (proveByRise t filt c)
  if t.now > judged.safety.ssDeadline then
    let out := setOutput .igniter false (setOutput .auger false judged)
    let fault := if c.mode = .reignite then Fault.relightFailed else Fault.startupFailed
    (setError (fault judged.safety.ssProven c.cfg.ssProveS) out, .error)
  else (judged, .none)

/-- Whether the light is done: proven, and the exit rise made or the pit held
up. -/
def startupDone (c : Control) : Bool :=
  c.safety.ssActive && c.safety.ssProven &&
    (c.safety.ssHeld ||
      match c.safety.filtC, c.safety.ssBaselineC with
      | some filt, some base => filt ≥ base + c.cfg.ssExitRiseC
      | _, _ => false)

/-- A proven fire that lost its heat: relit while tries are left, else the
grill stops. -/
def flameout (fault : Fault) (c : Control) : Control × Action :=
  let dark := setOutput .igniter false { c with safety := { c.safety with proving := false } }
  if !c.cfg.relightEnabled || c.safety.reigniteRetriesLeft ≤ 0 then (setError fault dark, .error)
  else
    ({ dark with
        safety := { dark.safety with
          reigniteRetriesLeft := c.safety.reigniteRetriesLeft - 1, reigniteLast := c.mode } },
      .reignite)

/-- Whether the lid, or the recovery after it, explains the pit. -/
def lidExcuses (t : Tick) (c : Control) : Bool :=
  c.lidOpen || (c.lidEvent && t.now - c.lidEventT < lidAllowS)

/-- Notice a lowered set point, and Smoke's working temperature being reached. -/
def armCoast (pit : ℚ) (c : Control) : Control :=
  let s := c.safety
  let sp := c.setpointC
  let lowered := c.mode = .hold ∧ s.lastSpC > 0 ∧ sp > 0 ∧ sp < s.lastSpC - 1 / 100 ∧ pit > sp
  { c with
    safety := { s with
      stepdownArmed := if lowered then true else s.stepdownArmed
      lastSpC := if c.mode = .hold then sp else 0
      reached := if c.mode ≠ .hold ∧ pit ≥ workC c then true else s.reached } }

/-- The climb's clock stands still. -/
def holdClimb (t : Tick) (pit : ℚ) (c : Control) : Control :=
  { c with
    safety := { c.safety with progressC := some pit, progressT := t.now, fallSince := 0 } }

/-- The pit the fire is judged on. -/
def judgedPit (pit : ℚ) (c : Control) : ℚ := c.safety.fireC.getD pit

/-- Follow the highest the judged pit has been. -/
def followPeak (pit : ℚ) (c : Control) : Control :=
  let judged := judgedPit pit c
  { c with
    safety := { c.safety with
      peakC := match c.safety.peakC with
        | none => some judged
        | some peak => some (if judged > peak then judged else peak) } }

/-- The temperature a fall is measured from. -/
def fallReference (c : Control) : ℚ :=
  let arrived := if c.mode = .hold then c.targetReached else c.safety.reached
  if arrived then workC c else min (c.safety.peakC.getD (workC c)) (workC c)

/-- The fall that counts as a flame-out. -/
def fallDrop (c : Control) : ℚ :=
  max c.cfg.relightDropC (fallFraction * (fallReference c - ambientOr20 c))

/-- Whether the judged pit is a flame-out's drop under its reference. -/
def fallen (pit : ℚ) (c : Control) : Bool :=
  judgedPit pit c ≤ fallReference c - fallDrop c

/-- Whether a fall has stood long enough. -/
def fallStands (t : Tick) (pit : ℚ) (c : Control) : Bool :=
  fallen pit c && c.safety.fallSince > 0 && t.now - c.safety.fallSince ≥ c.cfg.relightConfirmS

/-- The fall's clock: started by a fall, cleared by the end of one. -/
def timeFall (t : Tick) (pit : ℚ) (c : Control) : Control :=
  { c with
    safety := { c.safety with
      fallSince :=
        if fallen pit c then (if c.safety.fallSince ≤ 0 then t.now else c.safety.fallSince)
        else 0 } }

/-- The fire is up: heating ends at the working temperature, and the pit is
established once past the hand-over. -/
def noteHeat (pit : ℚ) (c : Control) : Control :=
  { c with
    safety := { c.safety with
      heating := if pit ≥ workC c then false else c.safety.heating
      established := c.safety.established ||
        c.safety.handoverC.any fun handover => pit ≥ handover + c.cfg.ssExitRiseC } }

/-- Whether the pit is near where it works or still gaining. -/
def gaining (pit : ℚ) (c : Control) : Bool :=
  pit ≥ workC c - c.cfg.relightDropC / 2 ||
    c.safety.progressC.any fun progress => pit ≥ progress + c.cfg.ssProveRiseC

/-- Whether a climb has stood still for too long. -/
def stalled (t : Tick) (pit : ℚ) (c : Control) : Bool :=
  !gaining pit c && t.now - c.safety.progressT > c.cfg.ssProveS

/-- The climb's clock after this reading. -/
def timeClimb (t : Tick) (pit : ℚ) (c : Control) : Control :=
  if gaining pit c ∨ stalled t pit c then
    { c with
      safety := { c.safety with
        progressC := some pit, progressT := t.now, stallSaid := !gaining pit c } }
  else c

/-- The end of a coast: the pit has come down to the working temperature, and
the igniter proves the fire. -/
def endCoast (t : Tick) (pit : ℚ) (c : Control) : Control :=
  if c.safety.stepdownArmed ∧ pit ≤ workC c then
    let proves := c.cfg.relightProveS > 0 ∧ c.safety.igniterLockedOut = false
    { c with
      safety := { c.safety with
        stepdownArmed := false
        reached := if c.mode = .hold then c.safety.reached else true
        peakC := some pit
        proving := if proves then true else c.safety.proving
        proveUntil := if proves then t.now + c.cfg.relightProveS else c.safety.proveUntil } }
  else c

/-- The igniter while it proves the fire. -/
def proveFire (t : Tick) (c : Control) : Control :=
  if c.safety.proving then
    if t.now ≥ c.safety.proveUntil ∨ c.safety.igniterLockedOut then
      setOutput .igniter false { c with safety := { c.safety with proving := false } }
    else setOutput .igniter true c
  else c

/-- The flame supervision of one tick in Smoke or Hold. -/
def superviseFire (t : Tick) (pit : ℚ) (c : Control) : Control × Action :=
  let armed := armCoast pit c
  if lidExcuses t c ∨ c.autotune.active ∨ armed.safety.stepdownArmed then
    (proveFire t (endCoast t pit (holdClimb t pit armed)), .none)
  else
    let peaked := followPeak pit armed
    if fallStands t pit peaked then
      let under := fallReference peaked - judgedPit pit peaked
      let fault := Fault.flameout under (fallReference peaked) (t.now - peaked.safety.fallSince)
      flameout fault { peaked with safety := { peaked.safety with fallSince := 0 } }
    else
      let noted := noteHeat pit (timeFall t pit peaked)
      if stalled t pit noted ∧ noted.safety.established = false then
        (setError (.notHeating c.cfg.ssProveS (c.mode = .hold)) (setOutput .auger false noted),
          .error)
      else (proveFire t (endCoast t pit (timeClimb t pit noted)), .none)

/-- Nothing burns: the flame supervision starts afresh. -/
def restSupervision (c : Control) : Control :=
  { c with
    safety := { c.safety with
      lastSpC := 0
      stepdownArmed := false
      proving := false
      fallSince := 0
      peakC := if c.mode.isLighting then c.safety.peakC else none
      heating := if c.mode.isLighting then c.safety.heating else false } }

/-- Judge a firing grill whose pit reads `pit`. -/
def judgeFiring (t : Tick) (pit : ℚ) (c : Control) : Control × Action :=
  let filtered := filterPit t pit c
  if c.mode.isLighting then
    if c.safety.ssActive then judgeLight t filtered else (restSupervision filtered, .none)
  else superviseFire t pit filtered

/-- A grill that is not firing has no filtered pit. -/
def judgeIdle (c : Control) : Control :=
  restSupervision { c with safety := { c.safety with fireC := none, fallSince := 0 } }

/-- One tick of the supervision. -/
def safetyTick (t : Tick) (c : Control) : Control × Action :=
  if overheated c then
    (setError (.overtemp (c.pitC.getD 0) c.cfg.maxTempC) c, .error)
  else
    let capped := capIgniter t c
    if c.mode.isFiring then
      match c.validPit with
      | none => judgeProbe t capped
      | some pit => judgeFiring t pit capped
    else (judgeIdle capped, .none)

end PiFire
