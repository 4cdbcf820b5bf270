import PiFire.Relay.Course

/-!
# The books of a cook

What a cook carries besides its fire: where it goes after lighting, its recoveries
and relights, its clock and totals, the recipe, the targets and the timer. Only
Stop and a first Startup change them as a mode is entered.
-/

namespace PiFire

/-- What a cook carries from one mode to the next. -/
structure Books where
  nextMode : Mode
  modeStart : ℚ
  recoveries : ℤ
  cookStartWall : ℚ
  augerTotalOnS : ℚ
  cookMaxPitC : ℚ
  reigniteLast : Mode
  reigniteRetriesLeft : ℤ
  recipe : RecipeRun
  notify : Notify
  sensors : Sensors

/-- The books of a state. -/
def booksOf (c : Control) : Books :=
  { nextMode := c.nextMode
    modeStart := c.modeStart
    recoveries := c.recoveries
    cookStartWall := c.cookStartWall
    augerTotalOnS := c.augerTotalOnS
    cookMaxPitC := c.cookMaxPitC
    reigniteLast := c.safety.reigniteLast
    reigniteRetriesLeft := c.safety.reigniteRetriesLeft
    recipe := c.recipe
    notify := c.notify
    sensors := c.sensors }

/-- The books as a mode is entered: Stop closes them, a first Startup opens new
ones. -/
def Books.enter (t : Tick) (m : Mode) (cfg : Cfg) (b : Books) : Books :=
  match m with
  | .stop =>
      { b with
        nextMode := .stop, modeStart := t.now, recoveries := 0
        cookStartWall := if b.cookStartWall > 0 then 0 else b.cookStartWall }
  | .startup =>
      { b with
        modeStart := t.now, cookStartWall := t.wall, augerTotalOnS := 0, cookMaxPitC := 0
        reigniteLast := .stop, reigniteRetriesLeft := cfg.reigniteRetries }
  | _ => { b with modeStart := t.now }

section Frame

variable (t : Tick) (c : Control)

theorem booksOf_setOutput (o : Output) (on : Bool) : booksOf (setOutput o on c) = booksOf c := rfl

theorem booksOf_fanOn (pct : ℤ) : booksOf (fanOn pct c) = booksOf c := by
  simp only [fanOn]
  split <;> rfl

theorem booksOf_smokeCycle : booksOf (smokeCycle t c) = booksOf c := by
  simp only [smokeCycle]
  split <;> rfl

theorem booksOf_leaveMode (m : Mode) :
    booksOf (leaveMode t m c) =
      { booksOf c with
        modeStart := t.now, recoveries := if m = .stop then 0 else c.recoveries } := by
  simp only [leaveMode]
  split <;> rfl

theorem booksOf_onRunEnter (prev : Mode) : booksOf (onRunEnter t prev c) = booksOf c := rfl

theorem booksOf_setupLight : booksOf (setupLight t c) = booksOf c := by
  have entered (c : Control) :
      booksOf (onStartupEnter t (selectSmartstartProfile c)) = booksOf c := rfl
  rw [setupLight, booksOf_setOutput, booksOf_smokeCycle, entered, booksOf_setOutput,
    booksOf_fanOn, booksOf_setOutput]

theorem booksOf_setupPrime : booksOf (setupPrime t c) = booksOf c := by
  unfold setupPrime
  extract_lets amount powered ignited timed
  have lit : booksOf ignited = booksOf c := by
    unfold ignited
    split <;> rfl
  rw [booksOf_setOutput, ← lit]
  rfl

theorem booksOf_setupError : booksOf (setupError t c) = booksOf c := by
  unfold setupError
  extract_lets
  split
  · rw [booksOf_fanOn, booksOf_setOutput]
    rfl
  · rfl

theorem leaveMode_cfg (m : Mode) : (leaveMode t m c).cfg = c.cfg := by
  simp only [leaveMode]
  split <;> rfl

theorem booksOf_enterMode (m : Mode) :
    booksOf (enterMode t m c) = (booksOf c).enter t m c.cfg := by
  have left := booksOf_leaveMode t c m
  cases m with
  | stop =>
      have stopped (c : Control) : booksOf (setupStop c) =
          { booksOf c with
            nextMode := .stop
            cookStartWall := if c.cookStartWall > 0 then 0 else c.cookStartWall } := rfl
      have started : (leaveMode t .stop c).cookStartWall = c.cookStartWall :=
        congrArg Books.cookStartWall left
      rw [enterMode, stopped, left, started]
      rfl
  | startup =>
      have begun (c : Control) : booksOf (beginCook t c) =
          { booksOf c with
            cookStartWall := t.wall, augerTotalOnS := 0, cookMaxPitC := 0, reigniteLast := .stop
            reigniteRetriesLeft := c.cfg.reigniteRetries } := rfl
      rw [enterMode, booksOf_setupLight, begun, left, leaveMode_cfg]
      rfl
  | reignite => rw [enterMode, booksOf_setupLight, left]; rfl
  | prime => rw [enterMode, booksOf_setupPrime, left]; rfl
  | monitor | manual => exact left
  | smoke =>
      rw [enterMode, setupSmoke, booksOf_setOutput, booksOf_smokeCycle, booksOf_fanOn,
        booksOf_setOutput, booksOf_onRunEnter, left]
      rfl
  | hold =>
      have fed (cycle : Cycle) (c : Control) : booksOf (applyCycle cycle c) = booksOf c := rfl
      rw [enterMode, setupHold, booksOf_setOutput, fed, booksOf_fanOn, booksOf_setOutput,
        booksOf_onRunEnter, left]
      rfl
  | shutdown => rw [enterMode, setupShutdown, booksOf_fanOn, booksOf_setOutput, left]; rfl
  | error => rw [enterMode, booksOf_setupError, left]; rfl

end Frame

end PiFire
