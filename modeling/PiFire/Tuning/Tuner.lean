import PiFire.Control.State
import PiFire.Tuning.Anchors

/-!
# A tuning run

The tuner walks a list of set points. At each it waits for the pit to settle,
asks for a relay test, stores what the test found, holds the set point under
the new tuning and judges the hold: a tuning that does not hold is taken back.
It watches the published status and gives its orders through the command queue.
-/

namespace PiFire.Tuning

/-- The stages of a run. -/
inductive TunePhase where
  | idle
  | starting
  | settling
  | testing
  | verifying
  | next
  | finishing
  | done
  | failed
  deriving DecidableEq

/-- A probe as the status shows it. -/
structure ShownProbe where
  primary : Bool
  temp : Option ℚ

/-- The part of the published status that the tuner reads, and when it reads it. -/
structure Look where
  mode : Mode
  atActive : Bool
  setpoint : ℚ
  probes : List ShownProbe
  ambient : Option ℚ
  wind : Option ℚ
  units : Units
  now : ℚ
  wall : ℚ

/-- The tuner. The times are zero until the first tick sets them. -/
structure Tuner where
  running : Bool
  ph : TunePhase
  pointsC : List ℚ
  step : ℕ
  phaseStart : ℚ
  runStart : ℚ
  lastNow : ℚ
  stableSince : ℚ
  atGen : ℕ
  measured : ℕ
  tries : ℕ
  full : Bool
  ambC : Option ℚ
  windKmh : ℚ
  settleFromC : Option ℚ
  prevResult : AutotuneResult
  prevAnchor : Option TuneAnchor
  vMaxC : ℚ
  vSqC : ℚ
  vSumC : ℚ
  vN : ℕ
  skipVerify : ℕ → Bool

/-- What a tick leaves: the tuner, what was learned, and the orders it pushed. -/
structure Turn where
  tuner : Tuner
  learning : Learning
  orders : List Cmd

namespace Tuner

/-- `set_phase` -/
def setPhase (g : Tuner) (p : TunePhase) (now : ℚ) : Tuner :=
  { g with ph := p, phaseStart := now, stableSince := 0, settleFromC := none }

/-- `finish`: a whole profile that was measured asks for what was learned before
it to be forgotten. -/
def finish (g : Tuner) (ok : Bool) (now : ℚ) : Tuner × List Cmd :=
  ({ g.setPhase (if ok then .done else .failed) now with running := false },
    if g.running ∧ ok ∧ g.full ∧ g.measured > 0 then
      [.forgetLearning 3 "a new baseline was measured"]
    else [])

/-- The set point the run is at. -/
def point (g : Tuner) : ℚ := g.pointsC.getD g.step 0

end Tuner

namespace Look

/-- The pit, as the settling run reads it. -/
def pit (t : Look) : Option ℚ := (t.probes.find? ShownProbe.primary).bind ShownProbe.temp

/-- The pit, as the verification reads it: the first probe where none is the
primary one. -/
def heldPit (t : Look) : Option ℚ :=
  ((t.probes.find? ShownProbe.primary).or t.probes.head?).bind ShownProbe.temp

end Look

namespace Tuner

/-- The clocks and the conditions of the measurement, kept at every tick. -/
def note (g : Tuner) (t : Look) : Tuner :=
  { g with
    phaseStart := if g.phaseStart = 0 then t.now else g.phaseStart
    runStart := if g.runStart = 0 then t.now else g.runStart
    lastNow := t.now
    ambC := match t.ambient with
      | some v => some (toC v t.units)
      | none => g.ambC
    windKmh := t.wind.getD g.windKmh }

/-- The grill went into Error, or somebody stopped it. -/
def endedBy (g : Tuner) (t : Look) : Bool :=
  t.mode = .error ∨
    (t.mode = .stop ∨ t.mode = .monitor) ∧
      ¬(g.ph = .finishing ∨ g.ph = .starting ∧ t.now - g.phaseStart < 30)

/-- How long a set point may take to settle. -/
def allowance (g : Tuner) (t : Look) : ℚ :=
  match g.settleFromC with
  | some from_ =>
      if t.setpoint > 0 then
        3600 + |(from_ - t.setpoint) * 9 / 5| / (if from_ > t.setpoint then 3 / 2 else 5) * 60
      else 3600
  | none => 3600

/-- `PH_SETTLING` -/
def settle (g : Tuner) (l : Learning) (t : Look) : Turn :=
  let band : ℚ := if t.units = .c then 8 else 15
  let close : Bool := t.pit.any fun pit => 0 < t.setpoint ∧ |pit - t.setpoint| ≤ band
  let since := if close then if g.stableSince = 0 then t.now else g.stableSince else 0
  let g := { g with stableSince := since }
  if g.stableSince > 0 ∧ t.now - g.stableSince ≥ 300 then
    ⟨{ g.setPhase .testing t.now with atGen := l.autotuneGen, prevResult := l.autotune }, l,
      [.autotuneStart]⟩
  else
    let g := { g with settleFromC := g.settleFromC.or t.pit }
    if t.now - g.phaseStart > g.allowance t then
      let ended := g.finish false t.now
      ⟨ended.1, l, ended.2⟩
    else ⟨g, l, []⟩

variable (formulas : RelayFormulas)

/-- What a set point has before it is measured: the entry of the lowest set
point of those that match. -/
def hadAnchor (l : Learning) (s : ℚ) : Option TuneAnchor :=
  l.anchorList.find? (near s)

/-- `PH_TESTING` -/
def test (g : Tuner) (l : Learning) (t : Look) : Turn :=
  let elapsed := t.now - g.phaseStart
  if t.atActive then
    if elapsed > 9000 then
      let ended := g.finish false t.now
      ⟨ended.1, l, ended.2⟩
    else ⟨g, l, []⟩
  else if elapsed < 5 then ⟨g, l, []⟩
  else if l.autotuneGen ≠ g.atGen ∧ l.autotune.PBc > 0 then
    ⟨{ g.setPhase .verifying t.now with
        prevAnchor := hadAnchor l g.point
        measured := g.measured + 1
        atGen := l.autotuneGen
        vMaxC := 0
        vSqC := 0
        vSumC := 0
        vN := 0 },
      l.storeAnchor formulas g.point l.autotune g.ambC g.windKmh t.wall, []⟩
  else if elapsed < 60 ∧ g.tries < 2 then
    ⟨{ g.setPhase .settling t.now with tries := g.tries + 1 }, l, []⟩
  else ⟨g.setPhase .next t.now, l, []⟩

/-- The part of the hold that is judged. -/
def watchHold (g : Tuner) (t : Look) : Tuner :=
  match t.heldPit with
  | some pit =>
      if t.now - g.phaseStart ≥ 480 ∧ t.setpoint > 0 then
        let error := toC pit t.units - toC t.setpoint t.units
        { g with
          vMaxC := if |error| > g.vMaxC then |error| else g.vMaxC
          vSqC := g.vSqC + |error| * |error|
          vN := g.vN + 1
          vSumC := g.vSumC + error }
      else g
  | none => g

/-- The hold under the new tuning was a hold: no error over 4.4 degrees, and no
more than 1.7 degrees of it on the root of the mean square. -/
def held (g : Tuner) : Bool :=
  30 ≤ g.vN ∧ g.vMaxC ≤ 44 / 10 ∧ g.vSqC / g.vN ≤ (17 / 10) ^ 2

/-- What a tuning that did not hold is taken back to. -/
def rollBack (g : Tuner) (l : Learning) (wall : ℚ) : Learning :=
  let l := match g.prevAnchor with
    | some prev => l.putAnchor prev
    | none => l.removeAnchor g.point
  if g.prevResult.valid then l.storeAutotune g.prevResult wall else l

/-- `PH_VERIFYING` -/
def verify (g : Tuner) (l : Learning) (t : Look) : Turn :=
  let g := g.watchHold t
  if g.skipVerify g.step then ⟨g.setPhase .next t.now, l, []⟩
  else if t.now - g.phaseStart < 1500 then ⟨g, l, []⟩
  else if g.held then ⟨g.setPhase .next t.now, l, []⟩
  else ⟨g.setPhase .next t.now, g.rollBack l t.wall, [.tuningApply]⟩

/-- `PH_NEXT` -/
def advance (g : Tuner) (l : Learning) (t : Look) : Turn :=
  let g := { g with step := g.step + 1 }
  if g.step ≥ g.pointsC.length then
    ⟨g.setPhase .finishing t.now, l, [.mode .shutdown 0 false]⟩
  else
    ⟨{ g with tries := 0 }.setPhase .settling t.now, l, [.setpoint (fromC g.point t.units)]⟩

/-- `pf_tuner_tick` -/
def tick (g : Tuner) (l : Learning) (t : Look) : Turn :=
  if g.running then
    let g := g.note t
    let elapsed := t.now - g.phaseStart
    if g.endedBy t then
      let ended := g.finish false t.now
      ⟨ended.1, l, ended.2⟩
    else
      match g.ph with
      | .starting =>
          if t.mode = .hold then ⟨g.setPhase .settling t.now, l, []⟩
          else if elapsed > 1800 then
            let ended := g.finish false t.now
            ⟨ended.1, l, ended.2⟩
          else ⟨g, l, []⟩
      | .settling => g.settle l t
      | .testing => g.test formulas l t
      | .verifying => g.verify l t
      | .next => g.advance l t
      | .finishing =>
          if t.mode = .stop ∨ elapsed > 900 then
            let ended := g.finish (g.measured > 0) t.now
            ⟨ended.1, l, ended.2⟩
          else ⟨g, l, []⟩
      | _ => ⟨g, l, []⟩
  else ⟨g, l, []⟩

/-- `pf_tuner_stop` -/
def stop (g : Tuner) (now : ℚ) : Tuner × List Cmd :=
  if g.running then
    let ended := g.finish false now
    (ended.1, ended.2 ++ [.autotuneStop, .mode .shutdown 0 false])
  else (g, [])

/-- `pf_tuner_skip_verify`: `0`, or `-1` when there is no such step. -/
def chooseSkip (g : Tuner) (step : ℤ) (skip : Bool) : Tuner × ℤ :=
  if ¬g.running ∨ step < 0 ∨ step ≥ g.pointsC.length ∨ step ≥ 6 then (g, -1)
  else ({ g with skipVerify := fun i => if i = step.toNat then skip else g.skipVerify i }, 0)

end Tuner

end PiFire.Tuning
