import PiFire.Runner.Place

/-!
# A recipe that fails to start

A start loads the recipe into the one that runs, before it is known whether the
load succeeds. This file runs the daemon from its first state on and says what
that comes to: the run stays inside its recipe, and a failed start leaves it
alone, in exactly the lives in which no start fails over a running recipe.
-/

namespace PiFire

open Transition

/-- What the daemon does: a move, or keeping a checkpoint from now on. -/
inductive Doing where
  | keepCheckpoint
  | move (m : Move)

/-- What it comes to. -/
def Doing.act : Doing → Control → Control
  | keepCheckpoint, c => controlSetCheckpointPath c
  | move m, c => m.act c

/-- A snapshot that is taken up finds no recipe running, or brings one: with a
place of its own, or with room for the place it finds. -/
def ResumeClear (t : Tick) (o : Json) (c : Control) : Prop :=
  resumedMode t o c = none ∨ c.recipe.active = false ∨
    ∀ rc ∈ o.memberAnyCase? "recipe",
      let load := recipeLoad t.services.recipes (settingsUnits t.settings) (jsonInt rc ["id"] 0)
      let step := jsonInt rc ["step"] 0
      jsonInt rc ["id"] 0 ≤ 0 ∨ (load.2 = true ∧ 0 ≤ step ∧ step < load.1.nsteps) ∨
        c.recipe.step < load.1.nsteps

section Moves

variable {t : Tick} {o : Json} {c : Control}

theorem restoreRecipe_inRange (kept : c.recipe.InRange) :
    (restoreRecipe t o c).recipe.InRange ↔
      c.recipe.active = false ∨
        ∀ rc ∈ o.memberAnyCase? "recipe",
          let load :=
            recipeLoad t.services.recipes (settingsUnits t.settings) (jsonInt rc ["id"] 0)
          let step := jsonInt rc ["step"] 0
          jsonInt rc ["id"] 0 ≤ 0 ∨ (load.2 = true ∧ 0 ≤ step ∧ step < load.1.nsteps) ∨
            c.recipe.step < load.1.nsteps := by
  unfold restoreRecipe
  cases o.memberAnyCase? "recipe" with
  | none => simp [kept]
  | some rc =>
      simp only [Option.mem_def, Option.some.injEq, forall_eq']
      generalize loaded : recipeLoad t.services.recipes (settingsUnits t.settings)
        (jsonInt rc ["id"] 0) = load
      have fits : load.1.nsteps ≤ recipeMaxSteps := by
        rw [← loaded]
        exact recipeLoad_nsteps_le _ _ _
      by_cases named : jsonInt rc ["id"] 0 > 0
      · rw [if_pos named]
        by_cases placed : load.2 = true ∧ 0 ≤ jsonInt rc ["step"] 0 ∧
            jsonInt rc ["step"] 0 < load.1.nsteps
        · rw [if_pos placed]
          constructor
          · intro _
            exact Or.inr (Or.inr (Or.inl placed))
          · intro _ _
            obtain ⟨-, nonneg, below⟩ := placed
            constructor
            · change (jsonInt rc ["step"] 0).toNat < load.1.nsteps
              omega
            · exact fits
        · rw [if_neg placed]
          constructor
          · intro inside
            cases active : c.recipe.active with
            | false => exact Or.inl rfl
            | true => exact Or.inr (Or.inr (Or.inr (inside active).1))
          · rintro (inactive | unnamed | taken | room)
            · exact inRange_of_inactive inactive
            · omega
            · exact absurd taken placed
            · exact fun _ => ⟨room, fits⟩
      · rw [if_neg named]
        constructor
        · intro _
          exact Or.inr (Or.inl (by omega))
        · intro _
          exact kept

theorem controlResume_inRange (kept : c.recipe.InRange) :
    (controlResume t o c).1.recipe.InRange ↔ ResumeClear t o c := by
  unfold controlResume ResumeClear
  cases resumed : resumedMode t o c with
  | none => simp [kept]
  | some m =>
      have notified (c : Control) : (restoreNotify t o c).recipe = c.recipe := rfl
      have booked (c : Control) : (restoreBooks t o c).recipe = c.recipe := rfl
      have aimed : (restoreAim o c).recipe = c.recipe := rfl
      have fed (c : Control) : (restoreFeed o c).recipe = c.recipe := by
        simp only [restoreFeed]
        split <;> rfl
      have supervised (c : Control) : (restoreSafety t o c).recipe = c.recipe := rfl
      have before : (restoreBooks t o (enterMode t m (restoreAim o c))).recipe = c.recipe := by
        rw [booked, enterMode_recipe, aimed]
      simp only [reduceCtorEq, false_or]
      rw [notified, fed, supervised, restoreRecipe_inRange (by rw [before]; exact kept), before]

theorem controlRecover_recipe (b : Boot) (o : Json) (c : Control) :
    (controlRecover b o c).1.recipe = c.recipe := by
  unfold controlRecover
  split
  · rfl
  · split
    · exact enterMode_recipe _ _ _
    · split
      · exact enterMode_recipe _ _ _
      · have total (c : Control) : (restoreTotals o c).recipe = c.recipe := rfl
        have counted : (countRecovery o c).recipe = c.recipe := rfl
        rw [relight, total, ← counted, enterLight]
        split
        · exact enterMode_recipe _ _ _
        · exact enterMode_recipe _ _ _

theorem controlBootCheck_recipe (t : Tick) (resuming : Bool) (c : Control) :
    (controlBootCheck t resuming c).recipe = c.recipe := by
  unfold controlBootCheck
  split
  · rfl
  · split
    · exact enterMode_recipe _ _ _
    · rfl

theorem controlReloadSettings_recipe (t : Tick) (c : Control) :
    (controlReloadSettings t c).recipe = c.recipe := by
  simp only [controlReloadSettings]
  split <;> rfl

end Moves

/-- What is asked of everything the daemon does, phase by phase in a step. -/
def Doing.Sound : Doing → Control → Prop
  | .move (.step t), c => Along (Phase.act t) (PhaseSound t) (phases t) c
  | d, c => (d.act c).recipe.InRange

/-- No start fails over a running recipe. -/
def Doing.Clear : Doing → Control → Prop
  | .move (.step t), c => Along (Phase.act t) (StartClear t) (phases t) c
  | .move (.resume t o), c => ResumeClear t o c
  | _, _ => True

section Life

variable {d : Doing} {c : Control}

theorem phases_sound_iff {t : Tick} {ps : List Phase} (kept : c.recipe.InRange) :
    Along (Phase.act t) (PhaseSound t) ps c ↔ Along (Phase.act t) (StartClear t) ps c :=
  along_iff (fun c => c.recipe.InRange) (fun _ _ _ sound => sound.1)
    (fun _ _ => phase_sound_iff) kept

theorem Doing.inRange_of_sound (kept : c.recipe.InRange) (sound : d.Sound c) :
    (d.act c).recipe.InRange := by
  cases d with
  | keepCheckpoint => exact sound
  | move m =>
      cases m with
      | step t =>
          rw [Doing.act, Move.act, controlStep_eq_run]
          exact run_preserves (PhaseSound t) (fun c => c.recipe.InRange)
            (fun _ _ _ sound => sound.1) kept sound
      | reload | resume | recover | bootCheck => exact sound

theorem Doing.sound_iff (kept : c.recipe.InRange) : d.Sound c ↔ d.Clear c := by
  have stays (same : (d.act c).recipe = c.recipe) : (d.act c).recipe.InRange ↔ True := by
    rw [same]
    exact iff_true_intro kept
  cases d with
  | keepCheckpoint => exact stays rfl
  | move m =>
      cases m with
      | step t => exact phases_sound_iff kept
      | reload t => exact stays (controlReloadSettings_recipe t c)
      | resume t o => exact controlResume_inRange kept
      | recover b o => exact stays (controlRecover_recipe b o c)
      | bootCheck t resuming => exact stays (controlBootCheck_recipe t resuming c)

theorem sound_iff_clear {doings : List Doing} (kept : c.recipe.InRange) :
    Along Doing.act Doing.Sound doings c ↔ Along Doing.act Doing.Clear doings c :=
  along_iff (fun c => c.recipe.InRange) (fun _ _ => Doing.inRange_of_sound)
    (fun _ _ => Doing.sound_iff) kept

end Life

/-- The steps of a recipe end, the run stays inside its recipe and a failed
start leaves it alone, in exactly the lives in which no start fails over a
running recipe. -/
theorem recipe_sound_iff (settings : Json) (loadController : String → Option String)
    (doings : List Doing) :
    (StepsEnd ∧ Along Doing.act Doing.Sound doings (controlInit settings loadController)) ↔
      Along Doing.act Doing.Clear doings (controlInit settings loadController) := by
  have fresh : (controlInit settings loadController).recipe.InRange := inRange_of_inactive rfl
  rw [sound_iff_clear fresh, and_iff_right stepsEnd]

/-- A life on the bench in which a second recipe is asked for that has no step. -/
def benchRestart : List Doing :=
  let step := Json.obj [("mode", .str "Hold"), ("setpoint", .num 100)]
  [ .move (.step (benchTick [step] 1 none [.recipeStart 1])),
    .move (.step (benchTick [] 2 none [.recipeStart 2])) ]

/-- The recipe that was running is left without a step, and active. -/
theorem failed_start_empties :
    ¬∀ (settings : Json) (loadController : String → Option String) (doings : List Doing),
      StepsEnd ∧ Along Doing.act Doing.Sound doings (controlInit settings loadController) := by
  intro sound
  obtain ⟨-, -, second, -⟩ := sound (.obj []) some benchRestart
  have inside := second.2.1.1
  revert inside
  decide +kernel

end PiFire
