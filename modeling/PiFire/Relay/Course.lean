import PiFire.Relay.Reach

/-!
# The course of the recipe

Only the commands about the recipe and the recipe's own tick change where a
recipe is. Entering a mode leaves it alone.
-/

namespace PiFire

section Recipe

variable (t : Tick) (c : Control)

theorem fanOn_recipe (pct : ℤ) : (fanOn pct c).recipe = c.recipe := by
  simp only [fanOn]
  split <;> rfl

theorem smokeCycle_recipe : (smokeCycle t c).recipe = c.recipe := by
  simp only [smokeCycle]
  split <;> rfl

theorem leaveMode_recipe (m : Mode) : (leaveMode t m c).recipe = c.recipe := by
  simp only [leaveMode]
  split <;> rfl

theorem setOutput_recipe (o : Output) (on : Bool) : (setOutput o on c).recipe = c.recipe := rfl

theorem setupLight_recipe : (setupLight t c).recipe = c.recipe := by
  have entered (c : Control) :
      (onStartupEnter t (selectSmartstartProfile c)).recipe = c.recipe := rfl
  rw [setupLight, setOutput_recipe, smokeCycle_recipe, entered, setOutput_recipe, fanOn_recipe,
    setOutput_recipe]

theorem setupError_recipe : (setupError t c).recipe = c.recipe := by
  unfold setupError
  extract_lets
  split
  · rw [fanOn_recipe, setOutput_recipe]
  · rfl

theorem enterMode_recipe (m : Mode) : (enterMode t m c).recipe = c.recipe := by
  have left := leaveMode_recipe t c m
  have entered (prev : Mode) (c : Control) : (onRunEnter t prev c).recipe = c.recipe := rfl
  cases m with
  | stop | monitor | manual => exact left
  | prime =>
      rw [← left, enterMode]
      simp only [setupPrime]
      split <;> rfl
  | startup =>
      have begun (c : Control) : (beginCook t c).recipe = c.recipe := rfl
      rw [enterMode, setupLight_recipe, begun, left]
  | reignite => rw [enterMode, setupLight_recipe, left]
  | smoke =>
      rw [enterMode, setupSmoke, setOutput_recipe, smokeCycle_recipe, fanOn_recipe,
        setOutput_recipe, entered, left]
  | hold =>
      have fed (cycle : Cycle) (c : Control) : (applyCycle cycle c).recipe = c.recipe := rfl
      rw [enterMode, setupHold, setOutput_recipe, fed, fanOn_recipe, setOutput_recipe, entered,
        left]
  | shutdown => rw [enterMode, setupShutdown, fanOn_recipe, setOutput_recipe, left]
  | error => rw [enterMode, setupError_recipe, left]

/-- The run after it begins the step it is at, as far as its place goes. -/
def begunRun (run : RecipeRun) : RecipeRun :=
  let passed := passOver recipeMaxSteps run
  if passed.2 then { passed.1 with active := false } else passed.1

/-- The run after it goes on to its next step. -/
def advancedRun (run : RecipeRun) : RecipeRun :=
  if run.step + 1 ≥ run.r.nsteps then { run with active := false, step := run.step + 1 }
  else begunRun { run with step := run.step + 1 }

/-- The run after a command. -/
def cmdRun (mode : Mode) (run : RecipeRun) : Cmd → RecipeRun
  | .stop | .recipeStop => { run with active := false }
  | .recipeStart num =>
      let load := recipeLoad t.services.recipes (settingsUnits t.settings) (truncate num)
      if mode = .error then run
      else if load.2 then
        begunRun { run with r := load.1, active := true, step := 0, flags := clearFlags }
      else { run with r := load.1 }
  | .recipeNext => if run.active && run.pauses then run.setFlag run.step 0 else run
  | .recipeSkip => if run.active then advancedRun run else run
  | .recipeBack =>
      if run.active ∧ run.step > 0 then begunRun { run with step := run.step - 1 } else run
  | .recipeFlag num num2 =>
      let i := truncate num
      if run.active ∧ 0 ≤ i ∧ i < run.r.nsteps ∧ i < recipeMaxSteps then
        run.setFlag i.toNat (truncate num2 % 256).toNat.toUInt8
      else run
  | _ => run

/-- Where a run is: what beginning a step reads of it. -/
structure Place where
  active : Bool
  step : ℕ
  flags : List StepFlag
  r : Recipe

/-- The place of a run. -/
def RecipeRun.place (run : RecipeRun) : Place :=
  { active := run.active, step := run.step, flags := run.flags, r := run.r }

end Recipe

section Place

variable {run other : RecipeRun}

theorem place_eq (active : run.active = other.active) (step : run.step = other.step)
    (flags : run.flags = other.flags) (r : run.r = other.r) : run.place = other.place := by
  simp only [RecipeRun.place, active, step, flags, r]

theorem parts_of_place (same : run.place = other.place) :
    run.active = other.active ∧ run.step = other.step ∧ run.flags = other.flags ∧
      run.r = other.r := by
  simpa only [RecipeRun.place, Place.mk.injEq] using same

theorem skips_place (same : run.place = other.place) : run.skips = other.skips := by
  obtain ⟨-, step, flags, -⟩ := parts_of_place same
  simp only [RecipeRun.skips, RecipeRun.flagAt, step, flags]

theorem skipOne_place (same : run.place = other.place) :
    run.skipOne.place = other.skipOne.place := by
  obtain ⟨active, step, flags, r⟩ := parts_of_place same
  simp only [RecipeRun.place, RecipeRun.skipOne, RecipeRun.setFlag, active, step, flags, r]

theorem nextStep_place (same : run.place = other.place) :
    ({ run with step := run.step + 1 } : RecipeRun).place =
      ({ other with step := other.step + 1 } : RecipeRun).place := by
  obtain ⟨active, step, flags, r⟩ := parts_of_place same
  exact place_eq active (congrArg (· + 1) step) flags r

theorem passOver_place (same : run.place = other.place) (fuel : ℕ) :
    (passOver fuel run).1.place = (passOver fuel other).1.place ∧
      (passOver fuel run).2 = (passOver fuel other).2 := by
  induction fuel generalizing run other with
  | zero => exact ⟨same, rfl⟩
  | succ fuel ih =>
      have skipped := skipOne_place same
      obtain ⟨-, step, -, r⟩ := parts_of_place skipped
      have nsteps : run.r.nsteps = other.r.nsteps := congrArg Recipe.nsteps r
      simp only [passOver, skips_place same, step, nsteps]
      split
      · split
        · exact ⟨skipped, rfl⟩
        · exact ih skipped
      · exact ⟨same, rfl⟩

theorem begunRun_place (same : run.place = other.place) :
    (begunRun run).place = (begunRun other).place := by
  obtain ⟨place, ended⟩ := passOver_place same recipeMaxSteps
  simp only [begunRun, ended]
  split
  · obtain ⟨-, step, flags, r⟩ := parts_of_place place
    exact place_eq rfl step flags r
  · exact place

theorem advancedRun_place (same : run.place = other.place) :
    (advancedRun run).place = (advancedRun other).place := by
  obtain ⟨-, step, flags, r⟩ := parts_of_place same
  have next := begunRun_place (nextStep_place same)
  unfold advancedRun
  rw [← step, ← r] at *
  split
  · exact place_eq rfl rfl flags r
  · exact next

theorem beginEntry_place (same : run.place = other.place) (mode : Mode) :
    beginEntry mode run = beginEntry mode other := by
  obtain ⟨place, ended⟩ := passOver_place same recipeMaxSteps
  obtain ⟨-, step, -, r⟩ := parts_of_place place
  simp only [beginEntry, ended, RecipeRun.current, step, r]

theorem advanceEntry_place (same : run.place = other.place) (mode : Mode) :
    advanceEntry mode run = advanceEntry mode other := by
  obtain ⟨-, step, -, r⟩ := parts_of_place same
  have begun := beginEntry_place (nextStep_place same) mode
  unfold advanceEntry
  rw [begun, step, r]

theorem cmdRun_place (same : run.place = other.place) (t : Tick) (mode : Mode) (cmd : Cmd) :
    (cmdRun t mode run cmd).place = (cmdRun t mode other cmd).place := by
  obtain ⟨active, step, flags, r⟩ := parts_of_place same
  cases cmd with
  | stop | recipeStop => exact place_eq rfl step flags r
  | recipeStart num =>
      simp only [cmdRun]
      split
      · exact same
      · split
        · exact begunRun_place rfl
        · exact place_eq active step flags rfl
  | recipeNext =>
      have pauses : run.pauses = other.pauses := by
        simp only [RecipeRun.pauses, RecipeRun.flagAt, step, flags]
      simp only [cmdRun, active, pauses]
      split
      · exact place_eq active step (by simp only [RecipeRun.setFlag, step, flags]) r
      · exact same
  | recipeSkip =>
      simp only [cmdRun, active]
      split
      · exact advancedRun_place same
      · exact same
  | recipeBack =>
      simp only [cmdRun, active, step]
      split
      · exact begunRun_place (place_eq rfl rfl flags r)
      · exact same
  | recipeFlag num num2 =>
      simp only [cmdRun, active, r]
      split
      · exact place_eq active step (by simp only [RecipeRun.setFlag, flags]) r
      · exact same
  | _ => exact same

end Place

section Command

variable (t : Tick) (c : Control)

theorem switchForStep_recipe (stepMode : Mode) :
    (switchForStep t stepMode c).recipe = c.recipe := by
  have entered (m : Mode) (c : Control) := enterMode_recipe t c m
  cases stepMode with
  | startup =>
      simp only [switchForStep]
      split
      · rfl
      · exact entered _ _
  | smoke | hold =>
      simp only [switchForStep]
      split
      · exact entered _ _
      · split
        · rfl
        · split
          · exact entered _ _
          · rfl
  | shutdown | stop => exact entered _ _
  | monitor | prime | reignite | manual | error => rfl

theorem recipeBeginStep_place : (recipeBeginStep t c).recipe.place = (begunRun c.recipe).place := by
  simp only [recipeBeginStep, begunRun]
  split
  · rfl
  · rw [startStep, switchForStep_recipe]
    rfl

theorem recipeAdvance_place : (recipeAdvance t c).recipe.place = (advancedRun c.recipe).place := by
  simp only [recipeAdvance, advancedRun]
  split
  · rfl
  · rw [recipeBeginStep_place]

theorem manualOutput_recipe (str : String) (on : Bool) (num : ℚ) :
    (manualOutput t str on num c).recipe = c.recipe := by
  unfold manualOutput
  split
  · extract_lets
    split
    · rfl
    · split
      · unfold manualSwitch
        extract_lets blown
        have same : blown.recipe = c.recipe := by
          unfold blown
          split <;> rfl
        exact same
      · rfl
  · rfl

theorem lidToggle_recipe : (lidToggle t c).recipe = c.recipe := by
  unfold lidToggle
  split
  · split
    · exact fanOn_recipe _ _
    · extract_lets parked
      have same : parked.recipe = c.recipe := fanOn_recipe _ _
      exact same
  · rfl

theorem commandSetpoint_recipe (num : ℚ) : (commandSetpoint t num c).recipe = c.recipe := by
  unfold commandSetpoint
  split
  · unfold followSetpoint
    split <;> rfl
  · rfl

theorem commandPrime_recipe (num : ℚ) (str : String) :
    (commandPrime t num str c).recipe = c.recipe := by
  unfold commandPrime
  extract_lets aimed
  split
  · exact enterMode_recipe t aimed .prime
  · rfl

theorem autotuneStart_recipe : (autotuneStart t c).recipe = c.recipe := by
  unfold autotuneStart
  split
  · split <;> rfl
  · rfl

theorem commandMode_recipe (m : Mode) (num : ℚ) (flag : Bool) :
    (commandMode t m num flag c).recipe = c.recipe := by
  unfold commandMode
  split
  · exact enterMode_recipe t _ m
  · rfl

theorem handleCmd_place (cmd : Cmd) :
    (handleCmd t c cmd).recipe.place = (cmdRun t c.mode c.recipe cmd).place := by
  cases cmd with
  | mode m num flag => exact congrArg _ (commandMode_recipe t c m num flag)
  | setpoint num => exact congrArg _ (commandSetpoint_recipe t c num)
  | dutyCycle num =>
      simp only [handleCmd]
      split <;> rfl
  | manualOutput str on num => exact congrArg _ (manualOutput_recipe t c str on num)
  | lidToggle => exact congrArg _ (lidToggle_recipe t c)
  | prime num str => exact congrArg _ (commandPrime_recipe t c num str)
  | settingsChanged =>
      simp only [handleCmd, controlReloadSettings]
      split <;> rfl
  | stop =>
      simp only [handleCmd, commandStop, clearAll, enterMode_recipe]
      rfl
  | clearError =>
      simp only [handleCmd]
      split
      · exact congrArg _ (enterMode_recipe t c .stop)
      · rfl
  | recipeStart num =>
      simp only [handleCmd, commandRecipeStart, cmdRun]
      split
      · rfl
      · split
        · rw [recipeBeginStep_place]
          apply begunRun_place
          rfl
        · rfl
  | recipeNext =>
      simp only [handleCmd, commandRecipeNext, cmdRun]
      cases active : c.recipe.active with
      | false => simp
      | true =>
          simp only [if_true, Bool.true_and]
          split <;> rw [← active] <;> rfl
  | recipeStop =>
      simp only [handleCmd, cmdRun]
      split
      · rfl
      · next inactive =>
          simp only [RecipeRun.place, Place.mk.injEq, and_true]
          simpa using inactive
  | recipeSkip =>
      simp only [handleCmd, commandRecipeSkip, cmdRun]
      split
      · exact recipeAdvance_place t c
      · rfl
  | recipeBack =>
      simp only [handleCmd, commandRecipeBack, cmdRun]
      split
      · exact recipeBeginStep_place t _
      · rfl
  | recipeFlag num num2 =>
      simp only [handleCmd, commandRecipeFlag, cmdRun]
      split <;> rfl
  | autotuneStart => exact congrArg _ (autotuneStart_recipe t c)
  | autotuneStop =>
      simp only [handleCmd]
      split <;> rfl
  | _ => rfl

end Command

end PiFire
