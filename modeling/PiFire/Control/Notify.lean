import PiFire.Control.Common

/-!
# Probe targets and the cook timer

Each food probe may carry a target with an action for when it is met, and two
limits; one timer counts down with an action of its own. A target or a timer
that completes leaves its action pending for the control loop. A rest-to target
has no fixed take-off: the estimates of the carry-over are parameters here.
-/

namespace PiFire

/-- No action. -/
def afterNone : ℤ := 0

/-- Keep the grill warm. -/
def afterKeepwarm : ℤ := 1

/-- Shut the grill down. -/
def afterShutdown : ℤ := 2

/-- What a probe is for. -/
inductive ProbeRole where
  | primary
  | food
  | aux
  deriving DecidableEq, Repr

/-- One probe in the snapshot; `temp` is `none` while its reading is not
usable. -/
structure Reading where
  label : String
  role : ProbeRole
  enabled : Bool
  /-- Designated as the ambient reference. -/
  ambient : Bool
  inUse : Bool
  temp : Option ℚ
  deriving DecidableEq, Repr

/-- The snapshot of the probes, with the place of the pit probe. -/
structure Sensors where
  readings : List Reading
  primary : Option ℕ
  deriving DecidableEq, Repr

/-- Nothing has been read. -/
def Sensors.none : Sensors :=
  { readings := [], primary := .none }

/-- The reading of the pit probe, when it is valid. -/
def Sensors.pit (s : Sensors) : Option ℚ :=
  s.primary.bind fun i => s.readings[i]?.bind Reading.temp

/-- The first reading with this label. -/
def probesFind (s : Sensors) (label : String) : Option Reading :=
  s.readings.find? fun reading => reading.label == label

/-- A probe's target, limits and what they have done so far. -/
structure NotifyProbe where
  label : String
  /-- Zero for no target. -/
  targetC : ℚ
  meat : String
  done : String
  finishC : ℚ
  /-- The temperature wanted after resting; zero when the target is a
  take-off. -/
  restC : ℚ
  after : ℤ
  limitHighC : ℚ
  limitLowC : ℚ
  highTripped : Bool
  lowTripped : Bool
  reached : Bool
  deriving DecidableEq, Repr

/-- A probe nothing has been asked of. -/
def NotifyProbe.fresh (label : String) : NotifyProbe :=
  { label := label, targetC := 0, meat := "", done := "", finishC := 0, restC := 0
    after := afterNone, limitHighC := 0, limitLowC := 0, highTripped := false
    lowTripped := false, reached := false }

/-- The cook timer. -/
structure Timer where
  running : Bool
  paused : Bool
  endT : ℚ
  remaining : ℚ
  duration : ℚ
  after : ℤ
  deriving DecidableEq, Repr

/-- No timer. -/
def Timer.none : Timer :=
  { running := false, paused := false, endT := 0, remaining := 0, duration := 0
    after := afterNone }

/-- The targets, the timer and the action waiting for the control loop. -/
structure Notify where
  probes : List NotifyProbe
  timer : Timer
  pendingAction : ℤ
  /-- The grill's set point, when it has one. -/
  cookTempC : ℚ
  deriving DecidableEq, Repr

/-- No targets and no timer. -/
def Notify.init : Notify :=
  { probes := [], timer := .none, pendingAction := afterNone, cookTempC := 0 }

/-- The probe with this label. -/
def notifyFind (n : Notify) (label : String) : Option NotifyProbe :=
  n.probes.find? fun p => p.label == label

/-- How many probes the grill keeps. -/
def maxProbes : ℕ := 16

/-- Keep one entry for each probe of the snapshot, in its order. -/
def notifySync (s : Sensors) (n : Notify) : Notify :=
  { n with
    probes := (s.readings.take maxProbes).map fun reading =>
      (notifyFind n reading.label).getD (.fresh reading.label) }

/-- Change the first probe with this label; an unknown one changes nothing. -/
def modifyProbe (label : String) (f : NotifyProbe → NotifyProbe) :
    List NotifyProbe → List NotifyProbe
  | [] => []
  | p :: rest => if p.label == label then f p :: rest else p :: modifyProbe label f rest

/-- A take-off target for one probe; zero clears it with its words. -/
def NotifyProbe.setTarget (targetC : ℚ) (after : ℤ) (p : NotifyProbe) : NotifyProbe :=
  if targetC > 0 then
    { p with reached := false, targetC := targetC, restC := 0, after := after }
  else
    { p with
      reached := false, targetC := 0, restC := 0, meat := "", done := "", finishC := 0
      after := after }

/-- Set a probe's target. -/
def notifySetTarget (label : String) (targetC : ℚ) (after : ℤ) (n : Notify) : Notify :=
  { n with probes := modifyProbe label (NotifyProbe.setTarget targetC after) n.probes }

/-- The words behind a target, for one probe. -/
def NotifyProbe.setNote (meat done : String) (finishC : ℚ) (p : NotifyProbe) : NotifyProbe :=
  if p.targetC ≤ 0 then p
  else { p with meat := meat, done := done, finishC := if finishC > 0 then finishC else 0 }

/-- Set the words behind a probe's target. -/
def notifySetTargetNote (label meat done : String) (finishC : ℚ) (n : Notify) : Notify :=
  { n with probes := modifyProbe label (NotifyProbe.setNote meat done finishC) n.probes }

/-- The estimates behind a rest-to target: the take-off it starts from, and
the one the climb asks for at a reading. -/
structure RestEstimates where
  restPull : NotifyProbe → ℚ → ℚ
  takeOff : NotifyProbe → ℚ → ℚ

/-- Aim one probe at a rested temperature. -/
def NotifyProbe.setRest (estimates : RestEstimates) (restC : ℚ) (after : ℤ)
    (p : NotifyProbe) : NotifyProbe :=
  { p.setTarget (estimates.restPull p restC) after with restC := restC, finishC := restC }

/-- Set a probe's rested temperature. -/
def notifySetRest (estimates : RestEstimates) (label : String) (restC : ℚ) (after : ℤ)
    (n : Notify) : Notify :=
  if ¬0 < restC then notifySetTarget label 0 after n
  else { n with probes := modifyProbe label (NotifyProbe.setRest estimates restC after) n.probes }

/-- Set a probe's limits; zero switches one off. -/
def notifySetLimits (label : String) (highC lowC : ℚ) (n : Notify) : Notify :=
  { n with
    probes := modifyProbe label (fun p =>
      { p with
        limitHighC := if highC > 0 then highC else 0
        limitLowC := if lowC > 0 then lowC else 0
        highTripped := false
        lowTripped := false }) n.probes }

/-- Start the timer. -/
def timerStart (seconds : ℚ) (after : ℤ) (now : ℚ) (t : Timer) : Timer :=
  { t with running := true, paused := false, duration := seconds, endT := now + seconds
           after := after }

/-- Pause a running timer, keeping what is left. -/
def timerPause (now : ℚ) (t : Timer) : Timer :=
  if !t.running || t.paused then t
  else { t with paused := true, remaining := t.endT - now }

/-- Let a paused timer run on. -/
def timerResume (now : ℚ) (t : Timer) : Timer :=
  if !t.running || !t.paused then t
  else { t with paused := false, endT := now + t.remaining }

/-- How near its take-off a rest-to target may only come forward. -/
def carryFreezeC : ℚ := 3

/-- Move a rest-to target's take-off with the climb. -/
def followRest (estimates : RestEstimates) (t : ℚ) (p : NotifyProbe) : NotifyProbe :=
  if p.restC > 0 ∧ p.reached = false then
    let off := estimates.takeOff p t
    let frozen := p.targetC > 0 ∧ t ≥ p.targetC - carryFreezeC ∧ off > p.targetC
    { p with targetC := if frozen then p.targetC else off }
  else p

/-- Whether a probe's target is met at this reading. -/
def targetMet (t : ℚ) (p : NotifyProbe) : Bool :=
  p.targetC > 0 && !p.reached && t ≥ p.targetC

/-- The limits of a probe at this reading. -/
def judgeLimits (cooking : Bool) (t : ℚ) (units : Units) (p : NotifyProbe) : NotifyProbe :=
  let high :=
    if p.limitHighC > 0 then
      if t > p.limitHighC ∧ p.highTripped = false then true
      else if t ≤ p.limitHighC - deltaToC 2 units then false else p.highTripped
    else p.highTripped
  let low :=
    if p.limitLowC > 0 ∧ cooking then
      if t < p.limitLowC ∧ p.lowTripped = false then true
      else if t ≥ p.limitLowC + deltaToC 2 units then false else p.lowTripped
    else p.lowTripped
  { p with highTripped := high, lowTripped := low }

/-- One probe of a tick: the entry it leaves and the action it asks for. -/
def tickProbe (estimates : RestEstimates) (s : Sensors) (cooking : Bool) (units : Units)
    (p : NotifyProbe) : NotifyProbe × ℤ :=
  match (probesFind s p.label).bind Reading.temp with
  | none => (p, afterNone)
  | some t =>
      let followed := followRest estimates t p
      let met := targetMet t followed
      let marked := if met then { followed with reached := true, after := afterNone } else followed
      (judgeLimits cooking t units marked, if met then followed.after else afterNone)

/-- The last action asked for, over the one pending before. -/
def lastAction (pending : ℤ) (asked : List ℤ) : ℤ :=
  asked.foldl (fun pending action => if action ≠ afterNone then action else pending) pending

/-- Evaluate the targets, the limits and the timer once. -/
def notifyTick (estimates : RestEstimates) (s : Sensors) (mode : Mode) (now : ℚ) (units : Units)
    (n : Notify) : Notify :=
  let ticked := n.probes.map (tickProbe estimates s mode.isFiring units)
  let expired := n.timer.running && !n.timer.paused && now ≥ n.timer.endT
  let timerAction := if expired then n.timer.after else afterNone
  { n with
    probes := ticked.map Prod.fst
    timer := if expired then .none else n.timer
    pendingAction := lastAction n.pendingAction (ticked.map Prod.snd ++ [timerAction]) }

end PiFire
