import PiFire.Control.Config
import PiFire.Transition.Timed
import PiFire.Tuning.Trial

/-!
# A tuning run from its start

How a run is started, and the run as it goes on: the tuner and what was learned, the
time of its last tick, and all that it has put on the command queue.
-/

namespace PiFire.Tuning

open Transition

/-- `MAX_POINTS`. -/
def maxPoints : ℕ := 6

/-- The set points of a run, in the order they are visited. -/
structure Points where
  list : List ℚ
  nonempty : list ≠ []
  few : list.length ≤ maxPoints

/-- The set points that were asked for, else those of the settings. -/
def askedPoints (setpoints : Option Json) (settings : Json) : List ℚ :=
  let items := match setpoints with
    | some (.arr items) => items
    | _ => ((jsonPath settings ["learning", "tune_setpoints"]).map Json.children).getD []
  let numbers := items.filterMap fun
    | .num x => some (toC x (settingsUnits settings))
    | _ => none
  numbers.take maxPoints

/-- The first of the set points that are nearest to the baseline goes to the front. -/
def baselineFirst (want : ℚ) (points : List ℚ) : List ℚ :=
  let base := points.findIdx fun p => points.all fun q => |p - want| ≤ |q - want|
  match points[base]? with
  | some b => b :: points.eraseIdx base
  | none => points

theorem length_baselineFirst (want : ℚ) (points : List ℚ) :
    (baselineFirst want points).length = points.length := by
  rw [baselineFirst]
  split
  · rename_i b found
    obtain ⟨inside, _⟩ := List.getElem?_eq_some_iff.mp found
    rw [List.length_cons, List.length_eraseIdx_of_lt inside]
    omega
  · rfl

/-- The set points in the order of the run: ascending, but in a whole profile the
baseline first. -/
def orderedPoints (full : Bool) (settings : Json) (points : List ℚ) : List ℚ :=
  let sorted := points.insertionSort (· ≤ ·)
  if full ∧ 1 < points.length then
    baselineFirst (toC (jsonNum settings ["learning", "tune_baseline"] 250)
      (settingsUnits settings)) sorted
  else sorted

theorem length_orderedPoints (full : Bool) (settings : Json) (points : List ℚ) :
    (orderedPoints full settings points).length = points.length := by
  rw [orderedPoints]
  split
  · rw [length_baselineFirst, List.length_insertionSort]
  · exact List.length_insertionSort _ _

/-- The set points that are visited where none are given. -/
def defaultPoints : List ℚ := [250, 180, 350, 450].map fun x => toC x .f

/-- The set points of a run: those asked for, or a spread over the range. -/
def tunePoints (setpoints : Option Json) (settings : Json) (full : Bool) : Points :=
  if given : askedPoints setpoints settings ≠ [] then
    { list := orderedPoints full settings (askedPoints setpoints settings)
      nonempty := by
        rw [← List.length_pos_iff, length_orderedPoints]
        exact List.length_pos_iff.mpr given
      few := by
        rw [length_orderedPoints]
        exact List.length_take_le _ _ }
  else
    { list := orderedPoints full settings defaultPoints
      nonempty := by
        rw [← List.length_pos_iff, length_orderedPoints]
        decide
      few := by
        rw [length_orderedPoints]
        decide }

namespace Tuner

/-- The tuner as a run begins: its clocks are set by the first tick. -/
def begin (points : Points) (full : Bool) (gen : ℕ) : Tuner :=
  { running := true
    ph := .starting
    pointsC := points.list
    step := 0
    phaseStart := 0
    runStart := 0
    lastNow := 0
    stableSince := 0
    atGen := gen
    measured := 0
    tries := 0
    full := full
    ambC := none
    windKmh := 0
    settleFromC := none
    prevResult := Learning.noResult
    prevAnchor := none
    vMaxC := 0
    vSqC := 0
    vSumC := 0
    vN := 0
    skipVerify := fun _ => false }

end Tuner

/-- A run is begun: from scratch the library is cleared, and Hold is asked for at the
first set point. -/
def beginRun (l : Learning) (points : Points) (full fromScratch : Bool) (u : Units) : Turn :=
  ⟨Tuner.begin points full l.autotuneGen, if fromScratch then l.clearAnchors else l,
    [.mode .hold (fromC (points.list.headD 0) u) false]⟩

/-- `pf_tuner_start` -/
def tunerStart (g : Tuner) (l : Learning) (setpoints : Option Json) (settings : Json)
    (full fromScratch : Bool) : Except String Turn :=
  if g.running then .error "a tuning run is already going"
  else .ok (beginRun l (tunePoints setpoints settings full) full fromScratch
    (settingsUnits settings))

/-! ### The run -/

/-- A run as it goes on. -/
structure Course where
  desk : Desk
  /-- the time of the last tick, or of the start -/
  clock : ℚ
  queued : List Cmd

/-- The tuner of a run. -/
def Course.tuner (w : Course) : Tuner := w.desk.tuner

/-- A run as it begins. -/
def Course.begin (turn : Turn) (now : ℚ) : Course := ⟨⟨turn.tuner, turn.learning⟩, now, turn.orders⟩

/-- One beat of a run. -/
def Course.step (formulas : RelayFormulas) (b : Beat) (w : Course) : Course :=
  { desk := Desk.step formulas b w.desk
    clock := match b with
      | .tick t => t.now
      | _ => w.clock
    queued := w.queued ++ Desk.orders formulas b w.desk }

/-! ### What is to hold -/

/-- A Shutdown is on the queue. -/
def shutsDown (orders : List Cmd) : Prop := .mode .shutdown 0 false ∈ orders

instance (orders : List Cmd) : Decidable (shutsDown orders) :=
  inferInstanceAs (Decidable (_ ∈ orders))

/-- Whether the grill may be firing as a beat comes. -/
def Beat.firing : Beat → Bool
  | .tick t => t.mode.isFiring
  | _ => true

/-- A beat that ends the run while the grill is firing leaves a Shutdown on the queue. -/
def EndsSafely (formulas : RelayFormulas) (b : Beat) (w : Course) : Prop :=
  w.tuner.running = true → (w.step formulas b).tuner.running = false → b.firing = true →
    shutsDown (w.step formulas b).queued

/-- A tick comes within a time of the last one, and shows temperatures of a range. -/
def Timely (tick range : ℚ) (b : Beat) (w : Course) : Prop :=
  ∀ t, b = .tick t → 0 < t.now ∧ w.clock ≤ t.now ∧ t.now ≤ w.clock + tick ∧
    |t.setpoint| ≤ range ∧ ∀ pit, t.pit = some pit → |pit| ≤ range

/-- How long settling may take, at most, where temperatures are of a range. -/
def settleLimit (range : ℚ) : ℚ := 3600 + 144 * range

/-- How long one set point may take: three times to settle and be tested, the
verification, and going on. -/
def pointLimit (tick range : ℚ) : ℚ :=
  3 * (tick + settleLimit range + (tick + 9000)) + (tick + 1500) + tick

/-- How long a run of so many set points may take. -/
def runLimit (tick range : ℚ) (points : ℕ) : ℚ :=
  tick + 1800 + (points * pointLimit tick range + (tick + 900))

/-- A run is over after a time that is known as it begins. -/
def EndsInTime (formulas : RelayFormulas) (beats : List Beat) (w : Course) : Prop :=
  ∀ tick range, 0 ≤ tick → 0 ≤ range → Along (Course.step formulas) (Timely tick range) beats w →
    (run (Course.step formulas) beats w).tuner.running = true →
      (run (Course.step formulas) beats w).clock ≤
        w.clock + runLimit tick range w.tuner.pointsC.length

end PiFire.Tuning
