import PiFire.Control.Common

/-!
# The relay test

The feed is switched between two levels about a centre as the pit crosses the set point.
Each half is kept: how long it took, and the highest and the lowest pit in it. From the
first whole cycles the centre and the swing are corrected; the cycles after that are the
measurement. An index outside an array of halves stops the model.
-/

namespace PiFire.Swing

/-- `PF_AT_MAX` -/
def atMax : ℕ := 24

/-- `PF_AT_MIN_CROSS` -/
def atMinCross : ℕ := 5

/-- An array with a number for each half. -/
abbrev Cells := Vector ℚ atMax

namespace Cells

/-- What is read at an index, inside. -/
def read (a : Cells) : ℤ → Option ℚ
  | .ofNat i => a[i]?
  | .negSucc _ => none

/-- A number is written at an index, inside. -/
def write (a : Cells) (i : ℕ) (x : ℚ) : Option Cells :=
  if inside : i < atMax then some (a.set i x) else none

end Cells

/-- What a tick of Hold shows the test. -/
structure Look where
  now : ℚ
  /-- the last reading of the pit -/
  pitC : ℚ
  pitValid : Bool
  setpointC : ℚ
  lidOpen : Bool
  /-- the learned feed -/
  uFf : ℚ
  uMin : ℚ
  uMax : ℚ
  ccfg : CycleCfg

namespace Look

/-- How far the pit is over its set point. -/
def error (t : Look) : ℚ := t.pitC - t.setpointC

end Look

/-- The test as it runs. -/
structure Test where
  active : Bool
  phase : ℤ
  uCenter : ℚ
  h : ℚ
  hystC : ℚ
  lastCrossT : ℚ
  hCap : ℚ
  hFloor : ℚ
  resizes : ℕ
  peakMax : ℚ
  peakMin : ℚ
  crossings : ℕ
  halves : Cells
  hiPeak : Cells
  loPeak : Cells
  recentres : ℕ
  errAtMove : ℚ
  lastRecentreT : ℚ
  hiSum : ℚ
  loSum : ℚ
  hiN : ℕ
  loN : ℕ
  cycSum : ℚ
  cycN : ℕ
  adjusts : ℕ
  lastCStep : ℚ
  adjustAtCross : ℕ
  measErrSum : ℚ
  measErrN : ℕ
  lastLoad : ℚ

/-- Why a test ends with nothing. -/
inductive Failure where
  | ranAway
  | noOscillation
  | tooFew
  | tooSmall
  | notCentred
  | notSettled
  deriving DecidableEq

/-- What a test measures. -/
structure Measured where
  /-- the mean period of the last cycles -/
  Pu : ℚ
  amplitudeC : ℚ
  /-- half of the swing that was delivered -/
  hEff : ℚ
  /-- the part of the cycle with the high feed -/
  gamma : ℚ
  load : ℚ

/-- How a test ends. -/
inductive Outcome where
  | failed (why : Failure)
  | measured (m : Measured)

/-- The relay's answer to a tick: the test, the feed, and how it ended if it did. -/
structure Answer where
  test : Test
  u : ℚ
  outcome : Option Outcome

namespace Test

/-- `pf_control_autotune_size` -/
def size (t : Look) (s : Test) : Test :=
  let room := min (s.uCenter - t.uMin) (t.uMax - s.uCenter)
  let h := min (15 / 100) (min (55 / 100 * s.uCenter) room)
  let h := if h < 3 / 100 then 3 / 100 else h
  let h := if s.hCap > 0 ∧ h > s.hCap then s.hCap else h
  let h := if s.hFloor > 0 ∧ h < s.hFloor then min s.hFloor (max room h) else h
  { s with h := h }

/-- `autotune_output` -/
def output (s : Test) : ℚ := s.uCenter + s.h * s.phase

/-- `autotune_cycle`: the period and the amplitude of the cycle that a half closes. -/
def cycle (s : Test) (i : ℤ) : Option (ℚ × ℚ) := do
  let hi := max (← s.hiPeak.read i) (← s.hiPeak.read (i - 1))
  let lo := min (← s.loPeak.read i) (← s.loPeak.read (i - 1))
  some ((← s.halves.read i) + (← s.halves.read (i - 1)), (hi - lo) / 2)

/-- The halves that are kept. -/
def kept (s : Test) : ℕ := min s.crossings atMax

/-- `pf_control_autotune_settled` -/
def settled (s : Test) : Option Bool :=
  if s.kept < 5 then some false
  else do
    let last ← s.cycle (s.kept - 1)
    let before ← s.cycle (s.kept - 3)
    let pmax := max last.1 before.1
    let amax := max last.2 before.2
    if pmax ≤ 0 ∨ amax ≤ 0 then some false
    else some (|last.1 - before.1| ≤ 25 / 100 * pmax ∧ |last.2 - before.2| ≤ 30 / 100 * amax)

/-! ### The end of a test -/

/-- The cycles that the last halves close, as many as asked for and there are. -/
def lastCycles (s : Test) : ℕ → ℤ → Option (List (ℚ × ℚ))
  | 0, _ => some []
  | k + 1, i =>
      if i ≥ 2 then do
        let cycle ← s.cycle i
        let rest ← lastCycles s k (i - 1)
        some (cycle :: rest)
      else some []

/-- How long the last halves were, the high and the low one of each cycle. -/
def lastHalves (s : Test) : ℕ → ℤ → Option (List (ℚ × ℚ))
  | 0, _ => some []
  | k + 1, i =>
      if i ≥ 2 then do
        let a ← s.halves.read i
        let b ← s.halves.read (i - 1)
        let wasHigh : Bool := (s.kept - i) % 2 = if s.phase > 0 then 0 else 1
        let rest ← lastHalves s k (i - 2)
        some ((if wasHigh then (a, b) else (b, a)) :: rest)
      else some []

/-- The load the last whole cycle found, or the centre. -/
def load (s : Test) : ℚ := if s.lastLoad > 0 then s.lastLoad else s.uCenter

/-- Half the swing the grill really saw. -/
def delivered (s : Test) : ℚ :=
  let hi := s.hiSum / s.hiN
  let lo := s.loSum / s.loN
  if s.hiN > 0 ∧ s.loN > 0 ∧ hi - lo > 1 / 100 then (hi - lo) / 2 else s.h

/-- The swing was centred: the last cycle found its load there, or the low half is at the
least feed. -/
def wasCentred (t : Look) (s : Test) : Bool :=
  let off := if s.lastLoad > 0 then |s.lastLoad - s.uCenter| else 0
  let pinned : Bool := s.uCenter - s.h ≤ t.uMin + 1 / 100
  ¬(off > 3 / 100 ∧ ¬pinned)

/-- `autotune_finish`, where the oscillation is to be read: what it says, or why it says
nothing. -/
def read (t : Look) (s : Test) : Option Outcome := do
  let cycles ← s.lastCycles 3 (s.kept - 1)
  let k := cycles.length
  let Pu := (cycles.map Prod.fst).sum / k
  let A := (cycles.map Prod.snd).sum / k
  if k < 2 then some (.failed .tooFew)
  else if A < s.hystC * 2 then some (.failed .tooSmall)
  else if s.wasCentred t = false then some (.failed .notCentred)
  else if (← s.settled) = false then some (.failed .notSettled)
  else do
    let halves ← s.lastHalves 3 (s.kept - 1)
    let tHi := (halves.map Prod.fst).sum
    let tLo := (halves.map Prod.snd).sum
    let gamma := if tHi + tLo > 0 then tHi / (tHi + tLo) else 1 / 2
    some (.measured
      { Pu := Pu
        amplitudeC := A
        hEff := s.delivered
        gamma := clamp gamma (15 / 100) (85 / 100)
        load := s.load })

/-- The test is over, and why. -/
def fail (s : Test) (why : Failure) (u : ℚ) : Answer :=
  ⟨{ s with active := false }, u, some (.failed why)⟩

/-! ### A crossing -/

/-- The highest and the lowest pit of this half. -/
def trackPeaks (t : Look) (s : Test) : Test :=
  { s with
    peakMax := if t.pitC > s.peakMax then t.pitC else s.peakMax
    peakMin := if t.pitC < s.peakMin then t.pitC else s.peakMin }

/-- The half the relay wants: it switches when the pit is past the hysteresis. -/
def want (t : Look) (s : Test) : ℤ :=
  if s.phase < 0 ∧ t.error < -s.hystC then 1
  else if s.phase > 0 ∧ t.error > s.hystC then -1
  else s.phase

/-- A half is over: it is kept where there is room, and the next one begins. -/
def cross (t : Look) (s : Test) : Option Test := do
  let kept ←
    if s.crossings < atMax then do
      let halves ← s.halves.write s.crossings (t.now - s.lastCrossT)
      let hiPeak ← s.hiPeak.write s.crossings s.peakMax
      let loPeak ← s.loPeak.write s.crossings s.peakMin
      some { s with halves := halves, hiPeak := hiPeak, loPeak := loPeak }
    else some s
  some { kept with
    phase := s.want t
    crossings := s.crossings + 1
    lastCrossT := t.now
    peakMax := t.pitC
    peakMin := t.pitC }

end Test

end PiFire.Swing

/-!
# A tick of the relay test

At a crossing the first whole cycles correct the centre and the swing, and the test may be
over. Where the pit runs away, or does not cross, the centre is moved and the count starts
over, a limited number of times; and there is a limit on the time without a crossing.
-/

namespace PiFire.Swing

namespace Test

/-! ### Conditioning -/

/-- The last two halves: how long the high and the low one were, and their extremes. -/
structure Whole where
  tHi : ℚ
  tLo : ℚ
  top : ℚ
  bot : ℚ

/-- The cycle that the last crossing closed. -/
def whole (s : Test) : Option Whole := do
  let last ← s.halves.read (s.crossings - 1)
  let before ← s.halves.read (s.crossings - 2)
  let top := max (← s.hiPeak.read (s.crossings - 1)) (← s.hiPeak.read (s.crossings - 2))
  let bot := min (← s.loPeak.read (s.crossings - 1)) (← s.loPeak.read (s.crossings - 2))
  some
    { tHi := if s.phase > 0 then before else last
      tLo := if s.phase > 0 then last else before
      top := top
      bot := bot }

/-- How wide the oscillation should be. -/
def aTarget (s : Test) : ℚ := max (3 * s.hystC) (deltaToC (5 / 2) .f)

/-- The load the cycle found. -/
def cycleLoad (t : Look) (c : Whole) (s : Test) : ℚ :=
  let uHi := clamp (s.uCenter + s.h) t.uMin t.uMax
  let uLo := clamp (s.uCenter - s.h) t.uMin t.uMax
  if c.tHi + c.tLo > 0 then (c.tHi * uHi + c.tLo * uLo) / (c.tHi + c.tLo)
  else s.cycSum / s.cycN

/-- What was measured so far is thrown away, and the cycles after this crossing count. -/
def startOver (s : Test) : Test :=
  { s with
    adjustAtCross := s.crossings
    hiSum := 0
    loSum := 0
    hiN := 0
    loN := 0
    measErrSum := 0
    measErrN := 0 }

/-- The amplitude of the cycle. -/
def Whole.amplitude (c : Whole) : ℚ := (c.top - c.bot) / 2

/-- A resize is left, and the cycle is one of the swing as it is. -/
def resizable (s : Test) : Bool :=
  s.resizes < 2 ∧ (s.resizes = 0 ∨ s.crossings ≥ s.adjustAtCross + 4)

/-- The oscillation is too small to be read. -/
def thin (c : Whole) (s : Test) : Bool :=
  c.amplitude > 0 ∧ c.amplitude < s.aTarget ∧ s.resizable

/-- The oscillation is far wider than it should be. -/
def fat (c : Whole) (s : Test) : Bool :=
  ¬s.thin c ∧ c.amplitude > 2 * s.aTarget ∧ s.resizable

/-- A narrower swing, one that the auger can still deliver. -/
def shrunk (t : Look) (c : Whole) (s : Test) : ℚ :=
  let floorH := max (5 / 100) (if t.ccfg.cycleS > 0 then 1 / t.ccfg.cycleS else 5 / 100)
  max (s.h * clamp (s.aTarget / c.amplitude) (35 / 100) 1) floorH

/-- A wider swing, as far as there is room for it. -/
def grown (t : Look) (c : Whole) (s : Test) : ℚ :=
  let room := min (t.uMax - 2 / 100 - s.uCenter) (s.uCenter - t.uMin - 2 / 100)
  clamp (s.h * clamp (s.aTarget / c.amplitude) 1 2) s.h (max room s.h)

/-- A swing that is far too wide is narrowed, one that is too thin is widened; the swing it
gets, and whether it is wider. -/
def newSwing (t : Look) (c : Whole) (s : Test) : Option (ℚ × Bool) :=
  if s.fat c ∧ s.shrunk t c < s.h * 95 / 100 then some (s.shrunk t c, false)
  else if s.thin c ∧ s.grown t c > s.h * 105 / 100 then some (s.grown t c, true)
  else none

/-- The swing is resized. -/
def resize (h : ℚ) (wider : Bool) (s : Test) : Test :=
  { s.startOver with
    h := h
    hCap := if wider then s.hCap else h
    hFloor := if wider then h else s.hFloor
    resizes := s.resizes + 1 }

/-- How far the centre is off the load, as far as it may be moved at once. -/
def centreStep (t : Look) (load : ℚ) (s : Test) : ℚ :=
  let aim := clamp load (t.uMin + 2 / 100) (t.uMax - 2 / 100)
  let lim := if s.adjusts = 0 then 1 else s.h / 2
  clamp (aim - s.uCenter) (-lim) lim

/-- The centre is moved to the load, is trimmed, or stays. -/
def centre (t : Look) (load : ℚ) (s : Test) : Test :=
  let cStep := s.centreStep t load
  let centre := clamp (s.uCenter + cStep) (t.uMin + 2 / 100) (t.uMax - 2 / 100)
  let material : Bool := |cStep| > 15 / 100 * s.h
  let converging : Bool := s.adjusts < 2 ∨ |cStep| < 8 / 10 * |s.lastCStep|
  if material ∧ converging ∧ s.adjusts < 5 then
    { (size t { s with lastCStep := cStep, uCenter := centre }).startOver with
      adjusts := s.adjusts + 1 }
  else if |cStep| > 3 / 1000 then { s with uCenter := centre }
  else s

/-- The corrections of a whole cycle. -/
def correct (t : Look) (c : Whole) (s : Test) : Test :=
  let load := s.cycleLoad t c
  let found := { s with lastLoad := load }
  let corrected := match found.newSwing t c with
    | some (h, wider) => found.resize h wider
    | none => found.centre t load
  { corrected with cycSum := 0, cycN := 0 }

/-- The test is conditioned at the odd crossings from the third to the ninth. -/
def condition (t : Look) (s : Test) : Option Test :=
  if s.crossings ≥ 3 ∧ s.crossings ≤ 9 ∧ s.crossings % 2 = 1 ∧ s.cycN > 4 then do
    some (s.correct t (← s.whole))
  else some s

/-- The measurement is taken: it has settled on the set point, or the halves are used up. -/
def complete (s : Test) : Option Bool :=
  let bias := if s.measErrN > 0 then |s.measErrSum / s.measErrN| else 0
  let centred : Bool := bias ≤ deltaToC 2 .f ∨ s.measErrN < 4
  if s.crossings ≥ atMinCross ∧ s.crossings ≥ s.adjustAtCross + 4 then do
    let settled ← s.settled
    some ((settled && centred) || s.crossings ≥ atMax)
  else some false

/-! ### Without a crossing -/

/-- The pit is far off the set point. -/
def ranAway (t : Look) : Bool := |t.error| > deltaToC 50 .f

/-- The pit walks off before it ever crossed. -/
def drifting (t : Look) (s : Test) : Bool :=
  s.crossings = 0 ∧ |t.error| > |s.errAtMove| + deltaToC 10 .f

/-- The centre does not do, and may be moved. -/
def offCentre (t : Look) (s : Test) : Bool :=
  let patience := if s.crossings = 0 then 600 else 1200
  (ranAway t ∨ t.now - s.lastCrossT > patience ∨ s.drifting t) ∧
    t.now - s.lastRecentreT > 300 ∧ s.recentres < 8

/-- Where the centre is moved to. -/
def moved (t : Look) (s : Test) : ℚ :=
  let step := if ranAway t then 15 / 100 else if s.drifting t then 10 / 100 else 5 / 100
  clamp (s.uCenter + if t.error > 0 then -step else step) (t.uMin + 5 / 100) (t.uMax - 5 / 100)

/-- The centre is as far over as the limits of the feed allow. -/
def atEdge (t : Look) (s : Test) : Bool := |s.moved t - s.uCenter| < 1 / 1000000

/-- The centre cannot be moved: the pit is waited for. -/
def waitOn (t : Look) (s : Test) : Test :=
  { s with lastRecentreT := t.now, errAtMove := t.error }

/-- The centre is moved, and the count of crossings starts over. -/
def recentre (t : Look) (s : Test) : Test :=
  { size t { s with uCenter := s.moved t } with
    recentres := s.recentres + 1
    errAtMove := t.error
    lastRecentreT := t.now
    crossings := 0
    hiSum := 0
    loSum := 0
    hiN := 0
    loN := 0
    lastCrossT := t.now
    phase := if t.pitC > t.setpointC then -1 else 1
    peakMax := t.pitC
    peakMin := t.pitC }

/-- The end of a tick on which the test is not complete. -/
def goOn (t : Look) (s : Test) : Answer :=
  if s.offCentre t then
    let after := if s.atEdge t then s.waitOn t else s.recentre t
    ⟨after, after.output, none⟩
  else if ranAway t ∧ s.recentres ≥ 8 then s.fail .ranAway t.uMin
  else if t.now - s.lastCrossT > 1800 then s.fail .noOscillation s.uCenter
  else ⟨s, s.output, none⟩

/-- `autotune_step` -/
def step (t : Look) (s : Test) : Option Answer := do
  let s := s.trackPeaks t
  if s.want t ≠ s.phase then do
    let s ← s.cross t
    let s ← s.condition t
    if ← s.complete then do
      let outcome ← s.read t
      some ⟨{ s with active := false }, s.uCenter, some outcome⟩
    else some (s.goOn t)
  else some (s.goOn t)

/-- What a cycle of Hold delivers is counted. -/
def tally (t : Look) (uApplied : ℚ) (s : Test) : Test :=
  let counted : Bool := s.crossings > s.adjustAtCross ∧ t.pitValid
  { s with
    hiSum := if s.phase > 0 then s.hiSum + uApplied else s.hiSum
    hiN := if s.phase > 0 then s.hiN + 1 else s.hiN
    loSum := if s.phase > 0 then s.loSum else s.loSum + uApplied
    loN := if s.phase > 0 then s.loN else s.loN + 1
    cycSum := s.cycSum + uApplied
    cycN := s.cycN + 1
    measErrSum := if counted then s.measErrSum + t.error else s.measErrSum
    measErrN := if counted then s.measErrN + 1 else s.measErrN }

end Test

/-! ### The run -/

/-- A test with the cycle of Hold it runs in. -/
structure Run where
  test : Test
  cycle : Cycle

/-- `autotune_start`, where the feed that holds the set point is known: the test as it
begins. -/
def start (t : Look) (centre : ℚ) (sigma : Option ℚ) (rate : ℚ) : Run :=
  let test := Test.size t
    { active := true
      phase := if |t.error| > 2 then if t.error > 0 then -1 else 1
        else if rate > 2 / 10 then -1 else if rate < -(2 / 10) then 1
        else if t.error > 0 then -1 else 1
      uCenter := clamp centre (t.uMin + 5 / 100) (t.uMax - 5 / 100)
      h := 0
      hystC := clamp (match sigma with | some sigma => 2 * sigma | none => 1) (35 / 100) (12 / 10)
      lastCrossT := t.now
      hCap := 0
      hFloor := 0
      resizes := 0
      peakMax := t.pitC
      peakMin := t.pitC
      crossings := 0
      halves := Vector.replicate atMax 0
      hiPeak := Vector.replicate atMax 0
      loPeak := Vector.replicate atMax 0
      recentres := 0
      errAtMove := t.error
      lastRecentreT := 0
      hiSum := 0
      loSum := 0
      hiN := 0
      loN := 0
      cycSum := 0
      cycN := 0
      adjusts := 0
      lastCStep := 0
      adjustAtCross := 0
      measErrSum := 0
      measErrN := 0
      lastLoad := 0 }
  ⟨test, cycleBegin t.ccfg t.now (some test.output)⟩

/-- The next feed of Hold while the test runs: the relay's, or, with the lid open, the
learned one. -/
def Run.ask (t : Look) (r : Run) : Option Answer :=
  if t.lidOpen then some ⟨r.test, t.uFf, none⟩ else r.test.step t

/-- A tick of Hold while the test runs: once the cycle is done, the next one begins. -/
def Run.tick (t : Look) (r : Run) : Option Run :=
  if r.test.active ∧ cycleDone r.cycle t.now then do
    let answer ← r.ask t
    let cycle := cycleBegin t.ccfg t.now (some answer.u)
    some
      { test := if answer.test.active then answer.test.tally t cycle.uApplied else answer.test
        cycle := cycle }
  else some r

/-- A run under a sequence of ticks, as far as it has come; none where an index was outside
an array. -/
def states (ticks : ℕ → Look) (r : Run) : ℕ → Option Run
  | 0 => some r
  | n + 1 => (states ticks r n).bind fun r => r.tick (ticks n)

end PiFire.Swing
