import PiFire.Runner.Heading

/-!
# The place of the recipe

Beginning a step and advancing past it call each other in the source. Both come
to an end whatever the steps and their flags are, and what they leave is a step
inside the recipe, or no active recipe. So does everything else the daemon does,
but for a recipe that is started and cannot be loaded.
-/

namespace PiFire

open Transition

/-! ## The two functions of the source -/

/-- The step's flag is spent and its message unsaid. -/
def RecipeRun.unflag (run : RecipeRun) : RecipeRun :=
  { run.setFlag run.step 0 with said := true }

/-- The run at its next step. -/
def RecipeRun.stepOn (run : RecipeRun) : RecipeRun :=
  { run with step := run.step + 1 }

mutual

/-- Beginning a step, with a bound on the calls: a step to be skipped is
advanced past. -/
def beginWithin (t : Tick) : ℕ → Control → Option Control
  | 0, _ => none
  | fuel + 1, c =>
      if c.recipe.skips then advanceWithin t fuel (mapRecipe .unflag c)
      else some (startStep t c)

/-- Advancing past a step, with a bound on the calls. -/
def advanceWithin (t : Tick) : ℕ → Control → Option Control
  | 0, _ => none
  | fuel + 1, c =>
      let next := mapRecipe .stepOn c
      if next.recipe.step ≥ next.recipe.r.nsteps then some (recipeComplete next)
      else beginWithin t fuel next

end

/-- Beginning a step where `passed` steps at most are to be skipped. -/
def beginAfter (t : Tick) (passed : ℕ) (c : Control) : Control :=
  let skipped := passOver passed c.recipe
  let there := { c with recipe := skipped.1 }
  if skipped.2 then recipeComplete there else startStep t there

/-- Two calls for each step that can still be skipped are enough. -/
theorem beginWithin_eq (t : Tick) (left fuel : ℕ) (c : Control)
    (reaches : recipeMaxSteps ≤ c.recipe.step + left) (enough : 2 * left + 1 ≤ fuel) :
    beginWithin t fuel c = some (beginAfter t left c) := by
  induction left generalizing fuel c with
  | zero =>
      obtain ⟨fuel, rfl⟩ : ∃ more, fuel = more + 1 := ⟨fuel - 1, by omega⟩
      have past : ¬c.recipe.step < recipeMaxSteps := by omega
      simp [beginWithin, beginAfter, passOver, RecipeRun.skips, past]
  | succ left ih =>
      obtain ⟨fuel, rfl⟩ : ∃ more, fuel = more + 2 := ⟨fuel - 2, by omega⟩
      rw [beginWithin, beginAfter, passOver]
      cases skips : c.recipe.skips with
      | false => simp
      | true =>
          have next : mapRecipe .stepOn (mapRecipe .unflag c) =
              { c with recipe := c.recipe.skipOne } := rfl
          rw [if_pos rfl, if_pos rfl, advanceWithin, next]
          have kept : c.recipe.skipOne.r = c.recipe.r := rfl
          simp only [kept]
          by_cases ended : c.recipe.skipOne.step ≥ c.recipe.r.nsteps
          · rw [if_pos ended, if_pos ended, if_pos rfl]
          · rw [if_neg ended, if_neg ended]
            apply ih
            · change recipeMaxSteps ≤ c.recipe.step + 1 + left
              omega
            · omega

/-- How many calls a recipe takes at most. -/
def callBound : ℕ := 2 * recipeMaxSteps + 2

/-- Both functions end, with what the model has them compute. -/
def StepsEnd : Prop :=
  ∀ (t : Tick) (c : Control) (fuel : ℕ), callBound ≤ fuel →
    beginWithin t fuel c = some (recipeBeginStep t c) ∧
      advanceWithin t fuel c = some (recipeAdvance t c)

theorem stepsEnd : StepsEnd := by
  intro t c fuel enough
  unfold callBound at enough
  have begun (c : Control) (fuel : ℕ) (enough : 2 * recipeMaxSteps + 1 ≤ fuel) :
      beginWithin t fuel c = some (recipeBeginStep t c) :=
    beginWithin_eq t recipeMaxSteps fuel c (Nat.le_add_left _ _) enough
  constructor
  · exact begun c fuel (by omega)
  · obtain ⟨fuel, rfl⟩ : ∃ more, fuel = more + 1 := ⟨fuel - 1, by omega⟩
    have next : mapRecipe .stepOn c =
        { c with recipe := { c.recipe with step := c.recipe.step + 1 } } := rfl
    rw [advanceWithin, recipeAdvance, next]
    simp only
    split
    · rfl
    · exact begun _ fuel (by omega)

/-! ## Inside the recipe -/

/-- While a recipe is active, its step is one of its steps and they fit the
array. -/
def RecipeRun.InRange (run : RecipeRun) : Prop :=
  run.active = true → run.step < run.r.nsteps ∧ run.r.nsteps ≤ recipeMaxSteps

instance RecipeRun.InRange.decidable (run : RecipeRun) : Decidable run.InRange :=
  inferInstanceAs (Decidable (_ → _))

section InRange

variable {run other : RecipeRun}

theorem inRange_of_inactive (inactive : run.active = false) : run.InRange := by
  intro active
  rw [inactive] at active
  cases active

theorem inRange_place (same : run.place = other.place) : run.InRange ↔ other.InRange := by
  obtain ⟨active, step, -, r⟩ := parts_of_place same
  rw [RecipeRun.InRange, RecipeRun.InRange, active, step, r]

theorem passOver_inside (fuel : ℕ) (inside : run.step < run.r.nsteps) :
    (passOver fuel run).1.r = run.r ∧
      ((passOver fuel run).2 = false → (passOver fuel run).1.step < run.r.nsteps) := by
  induction fuel generalizing run with
  | zero => exact ⟨rfl, fun _ => inside⟩
  | succ fuel ih =>
      rw [passOver]
      split
      · split
        · exact ⟨rfl, by rintro ⟨⟩⟩
        · next within => exact ih (not_le.mp within)
      · exact ⟨rfl, fun _ => inside⟩

theorem begunRun_inRange (inside : run.step < run.r.nsteps)
    (fits : run.r.nsteps ≤ recipeMaxSteps) : (begunRun run).InRange := by
  obtain ⟨r, going⟩ := passOver_inside recipeMaxSteps inside
  unfold begunRun
  simp only
  split
  · exact inRange_of_inactive rfl
  · next begun =>
      intro _
      rw [r]
      exact ⟨going (by simpa using begun), fits⟩

theorem advancedRun_inRange (fits : run.r.nsteps ≤ recipeMaxSteps) :
    (advancedRun run).InRange := by
  unfold advancedRun
  split
  · exact inRange_of_inactive rfl
  · next within => exact begunRun_inRange (not_le.mp within) fits

theorem setFlag_inRange {i : ℕ} {flag : StepFlag} (kept : run.InRange) :
    (run.setFlag i flag).InRange := kept

end InRange

/-! ## Loading -/

theorem recipeLoad_failed {store : RecipeStore} {grill : Units} {id : ℤ}
    (failed : (recipeLoad store grill id).2 = false) :
    (recipeLoad store grill id).1.nsteps = 0 := by
  unfold recipeLoad at failed ⊢
  cases found : store.row id with
  | none => rfl
  | some row =>
      rw [found] at failed
      cases read : row.steps with
      | none =>
          simp only [read]
          rfl
      | some steps =>
          simp only [read] at failed ⊢
          simpa [Recipe.nsteps] using failed

/-- Whether the store has a recipe with a step. -/
def RecipeStore.has (store : RecipeStore) (id : ℤ) : Bool :=
  ((store.row id).bind RecipeRow.steps).any fun steps => !steps.children.isEmpty

theorem recipeLoad_snd (store : RecipeStore) (grill : Units) (id : ℤ) :
    (recipeLoad store grill id).2 = store.has id := by
  unfold recipeLoad RecipeStore.has
  cases store.row id with
  | none => rfl
  | some row =>
      cases read : row.steps with
      | none => simp [read]
      | some steps => cases kids : steps.children <;> simp [read, kids, recipeMaxSteps]

/-! ## The commands -/

/-- The recipe a start asks for, and whether it loads. -/
def askedLoad (t : Tick) (num : ℚ) : Recipe × Bool :=
  recipeLoad t.services.recipes (settingsUnits t.settings) (truncate num)

/-- A recipe that cannot be loaded is not started over one that runs. In Error
nothing is loaded at all. -/
def StartClear (t : Tick) (p : Phase) (c : Control) : Prop :=
  match p with
  | .command (.recipeStart num) =>
      c.mode = .error ∨ c.recipe.active = false ∨
        t.services.recipes.has (truncate num) = true
  | _ => True

/-- A start that fails leaves the recipe that was running as it was. -/
def FailureSpares (t : Tick) (p : Phase) (c : Control) : Prop :=
  match p with
  | .command (.recipeStart num) =>
      c.recipe.active = true → (askedLoad t num).2 = false → (p.act t c).recipe = c.recipe
  | _ => True

section Commands

variable {t : Tick} {c : Control}

theorem askedLoad_snd (t : Tick) (num : ℚ) :
    (askedLoad t num).2 = t.services.recipes.has (truncate num) :=
  recipeLoad_snd _ _ _

theorem cmdRun_inRange {cmd : Cmd} (kept : c.recipe.InRange)
    (clear : StartClear t (.command cmd) c) :
    (cmdRun t c.mode c.recipe cmd).InRange := by
  cases cmd with
  | stop | recipeStop => exact inRange_of_inactive rfl
  | recipeStart num =>
      simp only [cmdRun]
      split
      · exact kept
      · next calm =>
          split
          · next loaded =>
              exact begunRun_inRange (recipeLoad_nsteps_pos loaded) (recipeLoad_nsteps_le _ _ _)
          · next failed =>
              rcases clear with faulted | inactive | loaded
              · exact absurd faulted calm
              · exact inRange_of_inactive inactive
              · exact absurd ((askedLoad_snd t num).trans loaded) failed
  | recipeNext =>
      simp only [cmdRun]
      split
      · exact setFlag_inRange kept
      · exact kept
  | recipeSkip =>
      simp only [cmdRun]
      split
      · next active => exact advancedRun_inRange (kept active).2
      · exact kept
  | recipeBack =>
      simp only [cmdRun]
      split
      · next going =>
          obtain ⟨inside, fits⟩ := kept going.1
          apply begunRun_inRange
          · change c.recipe.step - 1 < c.recipe.r.nsteps
            omega
          · exact fits
      · exact kept
  | recipeFlag num num2 =>
      simp only [cmdRun]
      split
      · exact setFlag_inRange kept
      · exact kept
  | _ => exact kept

theorem handleCmd_inRange {cmd : Cmd} (kept : c.recipe.InRange)
    (clear : StartClear t (.command cmd) c) : (handleCmd t c cmd).recipe.InRange :=
  (inRange_place (handleCmd_place t c cmd)).mpr (cmdRun_inRange kept clear)

theorem recipeStart_failed {num : ℚ} (calm : c.mode ≠ .error)
    (failed : (askedLoad t num).2 = false) :
    handleCmd t c (.recipeStart num) =
      mapRecipe (fun run => { run with r := (askedLoad t num).1 }) c := by
  have notLoaded : ¬(askedLoad t num).2 = true := by simp [failed]
  rw [handleCmd, commandRecipeStart, if_neg calm]
  exact if_neg notLoaded

/-- What keeps the run inside and the recipe as it was is that no start fails
over it. -/
theorem command_sound_iff {cmd : Cmd} (kept : c.recipe.InRange) :
    (handleCmd t c cmd).recipe.InRange ∧ FailureSpares t (.command cmd) c ↔
      StartClear t (.command cmd) c := by
  constructor
  · rintro ⟨inside, -⟩
    cases cmd with
    | recipeStart num =>
        by_contra blocked
        simp only [StartClear, not_or, Bool.not_eq_false, Bool.not_eq_true] at blocked
        obtain ⟨calm, active, lacking⟩ := blocked
        have failed : (askedLoad t num).2 = false := (askedLoad_snd t num).trans lacking
        rw [recipeStart_failed calm failed] at inside
        have empty : (askedLoad t num).1.nsteps = 0 := recipeLoad_failed failed
        have below : c.recipe.step < (askedLoad t num).1.nsteps := (inside active).1
        omega
    | _ => trivial
  · intro clear
    constructor
    · exact handleCmd_inRange kept clear
    · cases cmd with
      | recipeStart num =>
          intro active failed
          rcases clear with faulted | inactive | loaded
          · change (handleCmd t c (.recipeStart num)).recipe = c.recipe
            rw [handleCmd, commandRecipeStart, if_pos faulted]
          · rw [active] at inactive
            cases inactive
          · rw [askedLoad_snd, loaded] at failed
            cases failed
      | _ => trivial

end Commands

/-! ## The later phases -/

section Later

variable {t : Tick} {c : Control}

theorem weighStep_place (t : Tick) (c : Control) :
    (weighStep t c).1.recipe.place = c.recipe.place := by
  have noticed : (noticeLid c).recipe.place = c.recipe.place := by
    unfold noticeLid
    split <;> rfl
  have paused (c : Control) : (endOrPause c).1.recipe.place = c.recipe.place := by
    unfold endOrPause
    split <;> rfl
  have weighed (c : Control) : (weighEnds t c).1.recipe.place = c.recipe.place := by
    simp only [weighEnds]
    split
    · rfl
    · split <;> rfl
  simp only [weighStep]
  split
  · split
    · rw [paused, noticed]
    · exact noticed
  · split
    · exact noticed
    · split
      · rw [paused, noticed]
      · split
        · exact noticed
        · rw [weighed, noticed]

theorem runRecipe_inRange (kept : c.recipe.InRange) : (runRecipe t c).recipe.InRange := by
  have weighed : (weighStep t c).1.recipe.InRange :=
    (inRange_place (weighStep_place t c)).mpr kept
  simp only [runRecipe]
  split
  · exact kept
  · next active =>
      split
      · exact inRange_of_inactive rfl
      · split
        · rw [inRange_place (recipeAdvance_place t _)]
          have same := (parts_of_place (weighStep_place t c)).1
          exact advancedRun_inRange (weighed (by simpa [same] using active)).2
        · exact weighed

theorem recipeFinishNow_inRange (active : c.recipe.active = true) (kept : c.recipe.InRange) :
    (recipeFinishNow t c).recipe.InRange := by
  unfold recipeFinishNow
  cases found : finishStep c.recipe with
  | none =>
      apply inRange_of_inactive
      simp only [enterMode_recipe]
      rfl
  | some fin =>
      obtain ⟨below, -⟩ := finishStep_spec found
      have fits := (kept active).2
      have steps : (c.recipe.r.steps.take (fin + 1)).length = fin + 1 := by
        rw [List.length_take]
        exact min_eq_left below
      rw [inRange_place (recipeBeginStep_place t _)]
      apply begunRun_inRange
      · change fin < (c.recipe.r.steps.take (fin + 1)).length
        omega
      · change (c.recipe.r.steps.take (fin + 1)).length ≤ recipeMaxSteps
        have size : c.recipe.r.nsteps = c.recipe.r.steps.length := rfl
        omega

theorem afterAction_inRange {act : ℤ} (kept : c.recipe.InRange) :
    (afterAction t act c).recipe.InRange := by
  simp only [afterAction]
  split
  · split
    · next active => exact recipeFinishNow_inRange active kept
    · rw [enterMode_recipe]
      exact kept
  · split
    · split
      · exact kept
      · rw [enterMode_recipe]
        exact kept
    · exact kept

theorem requestRunning_recipe (t : Tick) (m : Mode) (c : Control) :
    (requestRunning t m c).recipe = c.recipe := by
  unfold requestRunning
  split
  · exact enterMode_recipe t _ .startup
  · split
    · rfl
    · split
      · rfl
      · split
        · rfl
        · exact enterMode_recipe t c m

theorem requestStartup_recipe (t : Tick) (sp : ℚ) (c : Control) :
    (requestStartup t sp c).recipe = c.recipe := by
  simp only [requestStartup]
  split
  · exact enterMode_recipe t _ .prime
  · exact enterMode_recipe t _ .startup

theorem clearForStop_inRange (kept : c.recipe.InRange) : (clearForStop c).recipe.InRange := by
  simp only [clearForStop]
  split
  · exact inRange_of_inactive rfl
  · exact kept

theorem carryOut_inRange {r : Request} (kept : c.recipe.InRange) :
    (carryOut t r c).recipe.InRange := by
  unfold carryOut
  split
  · split
    · next active => exact recipeFinishNow_inRange active kept
    · rw [enterMode_recipe]
      exact kept
  · rw [enterMode_recipe]
    exact clearForStop_inRange kept
  · rw [requestStartup_recipe]
    exact kept
  · have same : (defaultSetpoint c).recipe = c.recipe := by
      unfold defaultSetpoint
      split <;> rfl
    rw [requestRunning_recipe, same]
    exact kept
  · rw [requestRunning_recipe]
    exact kept
  · rw [enterMode_recipe]
    exact kept

theorem applyRequest_inRange (kept : c.recipe.InRange) : (applyRequest t c).recipe.InRange := by
  unfold applyRequest
  split
  · exact kept
  · simp only
    split
    · exact kept
    · exact carryOut_inRange kept

/-- The phases that leave the recipe alone. -/
def Phase.sparesRecipe : Phase → Bool
  | .command _ | .request | .notify | .recipe | .aftercare => false
  | _ => true

theorem act_recipe {p : Phase} (spares : p.sparesRecipe = true) :
    (p.act t c).recipe = c.recipe := by
  have still (quiet : p.isQuiet = true) : (p.act t c).recipe = c.recipe :=
    congrArg Heading.recipe (headingOf_of_still (stillOf_quiet t c quiet))
  cases p with
  | begin | read | idleHeat | lid | feed | fan | expire | close => exact still rfl
  | command | request | notify | recipe | aftercare => cases spares
  | clampSp =>
      simp only [Phase.act, clampSetpoint]
      split <;> rfl
  | supervise => exact congrArg Heading.recipe (headingOf_supervise t c)
  | timed =>
      refine (congrArg Heading.recipe (headingOf_timedTransition t c)).trans ?_
      split
      · rfl
      · split <;> rfl
  | input =>
      refine (congrArg Heading.recipe (headingOf_shutdownInput t c)).trans ?_
      split <;> rfl
  | checkpoint => rfl

theorem act_inRange {p : Phase} (kept : c.recipe.InRange) (clear : StartClear t p c) :
    (p.act t c).recipe.InRange := by
  cases p with
  | command cmd => exact handleCmd_inRange kept clear
  | request => exact applyRequest_inRange kept
  | notify => exact afterAction_inRange kept
  | recipe => exact runRecipe_inRange kept
  | aftercare =>
      simp only [Phase.act, recipeAftercare]
      split
      · exact kept
      · exact kept
  | _ =>
      rw [act_recipe rfl]
      exact kept

/-- A phase leaves the run inside its recipe, and a recipe it fails to replace
as it was. -/
def PhaseSound (t : Tick) (p : Phase) (c : Control) : Prop :=
  (p.act t c).recipe.InRange ∧ FailureSpares t p c

theorem phase_sound_iff {p : Phase} (kept : c.recipe.InRange) :
    PhaseSound t p c ↔ StartClear t p c := by
  by_cases command : ∃ cmd, p = .command cmd
  · obtain ⟨cmd, rfl⟩ := command
    exact command_sound_iff kept
  · have clear : StartClear t p c := by
      cases p with
      | command cmd => exact absurd ⟨cmd, rfl⟩ command
      | _ => trivial
    have spares : FailureSpares t p c := by
      cases p with
      | command cmd => exact absurd ⟨cmd, rfl⟩ command
      | _ => trivial
    exact ⟨fun _ => clear, fun _ => ⟨act_inRange kept clear, spares⟩⟩

end Later

end PiFire
