import PiFire.Recipes.Ending
import PiFire.Runner.Sound

/-!
# The ending a recipe runs with

While a recipe runs, the tree its step is judged by is the one the step was loaded
with; together with what the store gives back this says when it is the one that
was saved.
-/

namespace PiFire

open Transition

/-! ## The tree of the step -/

/-- While a recipe is active at one of its steps, it has the ending of that step. -/
def RecipeRun.Aimed (run : RecipeRun) : Prop :=
  run.active = true → run.step < run.r.nsteps → run.ends = run.current.ends

section Aimed

variable {run other : RecipeRun}

theorem aimed_of_inactive (inactive : run.active = false) : run.Aimed := by
  intro active
  rw [inactive] at active
  cases active

/-- What a run is aimed by. -/
def RecipeRun.bearing (run : RecipeRun) : Bool × ℕ × Recipe × Option Json :=
  (run.active, run.step, run.r, run.ends)

theorem aimed_bearing (same : run.bearing = other.bearing) (aimed : other.Aimed) : run.Aimed := by
  simp only [RecipeRun.bearing, Prod.mk.injEq] at same
  obtain ⟨active, step, r, ends⟩ := same
  intro running inside
  rw [RecipeRun.current, ends, step, r]
  exact aimed (by rw [← active, running]) (by rwa [step, r] at inside)

end Aimed

section Moves

variable {t : Tick} {c : Control}

theorem startStep_aimed : (startStep t c).recipe.Aimed := by
  rw [startStep, switchForStep_recipe]
  intro _ _
  rfl

theorem recipeBeginStep_aimed : (recipeBeginStep t c).recipe.Aimed := by
  simp only [recipeBeginStep]
  split
  · exact aimed_of_inactive rfl
  · exact startStep_aimed

theorem recipeAdvance_aimed : (recipeAdvance t c).recipe.Aimed := by
  simp only [recipeAdvance]
  split
  · exact aimed_of_inactive rfl
  · exact recipeBeginStep_aimed

theorem recipeFinishNow_aimed : (recipeFinishNow t c).recipe.Aimed := by
  unfold recipeFinishNow
  split
  · apply aimed_of_inactive
    simp only [enterMode_recipe]
    rfl
  · exact recipeBeginStep_aimed

theorem weighStep_bearing (t : Tick) (c : Control) :
    (weighStep t c).1.recipe.bearing = c.recipe.bearing := by
  have noticed : (noticeLid c).recipe.bearing = c.recipe.bearing := by
    unfold noticeLid
    split <;> rfl
  have paused (c : Control) : (endOrPause c).1.recipe.bearing = c.recipe.bearing := by
    unfold endOrPause
    split <;> rfl
  have weighed (c : Control) : (weighEnds t c).1.recipe.bearing = c.recipe.bearing := by
    simp only [weighEnds]
    split
    · rfl
    · split <;> rfl
  simp only [weighStep]
  split
  · split
    · rw [paused, noticed]
    · exact noticed
  · split
    · exact noticed
    · split
      · rw [paused, noticed]
      · split
        · exact noticed
        · rw [weighed, noticed]

theorem runRecipe_aimed (aimed : c.recipe.Aimed) : (runRecipe t c).recipe.Aimed := by
  simp only [runRecipe]
  split
  · exact aimed
  · split
    · exact aimed_of_inactive rfl
    · split
      · exact recipeAdvance_aimed
      · exact aimed_bearing (weighStep_bearing t c) aimed

theorem handleCmd_aimed (cmd : Cmd) (aimed : c.recipe.Aimed) :
    (handleCmd t c cmd).recipe.Aimed := by
  have quiet (same : (handleCmd t c cmd).recipe = c.recipe) :
      (handleCmd t c cmd).recipe.Aimed := by
    rw [same]
    exact aimed
  cases cmd with
  | mode m num flag => exact quiet (commandMode_recipe t c m num flag)
  | setpoint num => exact quiet (commandSetpoint_recipe t c num)
  | dutyCycle num =>
      apply quiet
      simp only [handleCmd]
      split <;> rfl
  | manualOutput str on num => exact quiet (manualOutput_recipe t c str on num)
  | lidToggle => exact quiet (lidToggle_recipe t c)
  | prime num str => exact quiet (commandPrime_recipe t c num str)
  | settingsChanged => exact quiet (controlReloadSettings_recipe t c)
  | stop =>
      apply aimed_of_inactive
      rfl
  | clearError =>
      apply quiet
      simp only [handleCmd]
      split
      · exact enterMode_recipe t c .stop
      · rfl
  | recipeStart num =>
      simp only [handleCmd, commandRecipeStart]
      split
      · exact aimed
      · split
        · exact recipeBeginStep_aimed
        · next failed =>
            -- a load that fails leaves no step to be at
            intro _ inside
            have empty := recipeLoad_failed (by simpa using failed)
            have below : c.recipe.step < (recipeLoad t.services.recipes
              (settingsUnits t.settings) (truncate num)).1.nsteps := inside
            omega
  | recipeNext =>
      simp only [handleCmd, commandRecipeNext]
      split
      · refine aimed_bearing ?_ aimed
        simp only
        split <;> rfl
      · exact aimed
  | recipeStop =>
      simp only [handleCmd]
      split
      · exact aimed_of_inactive rfl
      · exact aimed
  | recipeSkip =>
      simp only [handleCmd, commandRecipeSkip]
      split
      · exact recipeAdvance_aimed
      · exact aimed
  | recipeBack =>
      simp only [handleCmd, commandRecipeBack]
      split
      · exact recipeBeginStep_aimed
      · exact aimed
  | recipeFlag num num2 =>
      simp only [handleCmd, commandRecipeFlag]
      split
      · exact aimed_bearing rfl aimed
      · exact aimed
  | autotuneStart => exact quiet (autotuneStart_recipe t c)
  | autotuneStop =>
      apply quiet
      simp only [handleCmd]
      split <;> rfl
  | _ => exact quiet rfl

theorem afterAction_aimed {act : ℤ} (aimed : c.recipe.Aimed) :
    (afterAction t act c).recipe.Aimed := by
  simp only [afterAction]
  split
  · split
    · exact recipeFinishNow_aimed
    · rw [enterMode_recipe]
      exact aimed
  · split
    · split
      · exact aimed
      · rw [enterMode_recipe]
        exact aimed
    · exact aimed

theorem carryOut_aimed {r : Request} (aimed : c.recipe.Aimed) :
    (carryOut t r c).recipe.Aimed := by
  unfold carryOut
  split
  · split
    · exact recipeFinishNow_aimed
    · rw [enterMode_recipe]
      exact aimed
  · rw [enterMode_recipe]
    simp only [clearForStop]
    split
    · exact aimed_of_inactive rfl
    · exact aimed
  · rw [requestStartup_recipe]
    exact aimed
  · have same : (defaultSetpoint c).recipe = c.recipe := by
      unfold defaultSetpoint
      split <;> rfl
    rw [requestRunning_recipe, same]
    exact aimed
  · rw [requestRunning_recipe]
    exact aimed
  · rw [enterMode_recipe]
    exact aimed

theorem applyRequest_aimed (aimed : c.recipe.Aimed) : (applyRequest t c).recipe.Aimed := by
  unfold applyRequest
  split
  · exact aimed
  · simp only
    split
    · exact aimed
    · exact carryOut_aimed aimed

theorem act_aimed {p : Phase} (aimed : c.recipe.Aimed) : (p.act t c).recipe.Aimed := by
  cases p with
  | command cmd => exact handleCmd_aimed cmd aimed
  | request => exact applyRequest_aimed aimed
  | notify => exact afterAction_aimed aimed
  | recipe => exact runRecipe_aimed aimed
  | aftercare =>
      simp only [Phase.act, recipeAftercare]
      split
      · exact aimed
      · exact aimed
  | _ =>
      rw [act_recipe rfl]
      exact aimed

theorem restoreRecipe_aimed {o : Json} (fresh : c.recipe.active = false) :
    (restoreRecipe t o c).recipe.Aimed := by
  unfold restoreRecipe
  split
  · exact aimed_of_inactive fresh
  · simp only
    split
    · split
      · intro _ _
        rfl
      · exact aimed_of_inactive fresh
    · exact aimed_of_inactive fresh

theorem controlResume_recipe {o : Json} {m : Mode} (resumed : resumedMode t o c = some m) :
    ∃ before : Control, before.recipe = c.recipe ∧
      (controlResume t o c).1.recipe = (restoreRecipe t o before).recipe := by
  have notified (c : Control) : (restoreNotify t o c).recipe = c.recipe := rfl
  have fed (c : Control) : (restoreFeed o c).recipe = c.recipe := by
    simp only [restoreFeed]
    split <;> rfl
  have supervised (c : Control) : (restoreSafety t o c).recipe = c.recipe := rfl
  refine ⟨restoreBooks t o (enterMode t m (restoreAim o c)), enterMode_recipe t _ m, ?_⟩
  simp only [controlResume, resumed]
  rw [notified, fed, supervised]

theorem controlResume_aimed {o : Json} (fresh : c.recipe.active = false) :
    (controlResume t o c).1.recipe.Aimed := by
  cases resumed : resumedMode t o c with
  | none =>
      simp only [controlResume, resumed]
      exact aimed_of_inactive fresh
  | some m =>
      obtain ⟨before, same, taken⟩ := controlResume_recipe resumed
      rw [taken]
      exact restoreRecipe_aimed (by rw [same, fresh])

theorem controlResume_r {o rc : Json} {m : Mode} (resumed : resumedMode t o c = some m)
    (member : o.memberAnyCase? "recipe" = some rc) (named : jsonInt rc ["id"] 0 > 0) :
    (controlResume t o c).1.recipe.r =
      (recipeLoad t.services.recipes (settingsUnits t.settings) (jsonInt rc ["id"] 0)).1 := by
  obtain ⟨before, -, taken⟩ := controlResume_recipe resumed
  rw [taken]
  simp only [restoreRecipe, member]
  rw [if_pos named]
  split <;> rfl

end Moves

/-! ## Lives -/

/-- A snapshot is taken up as the daemon starts, before a recipe runs. -/
def Doing.Fresh : Doing → Control → Prop
  | .move (.resume _ _), c => c.recipe.active = false
  | _, _ => True

theorem Doing.act_aimed {d : Doing} {c : Control} (fresh : d.Fresh c) (aimed : c.recipe.Aimed) :
    (d.act c).recipe.Aimed := by
  cases d with
  | keepCheckpoint => exact aimed
  | move m =>
      cases m with
      | step t =>
          rw [Doing.act, Move.act, controlStep_eq_run]
          exact run_invariant (fun c : Control => c.recipe.Aimed)
            (fun _ _ => PiFire.act_aimed) aimed
      | reload t =>
          rw [Doing.act, Move.act, controlReloadSettings_recipe]
          exact aimed
      | resume t o => exact controlResume_aimed fresh
      | recover b o =>
          rw [Doing.act, Move.act, controlRecover_recipe]
          exact aimed
      | bootCheck t resuming =>
          rw [Doing.act, Move.act, controlBootCheck_recipe]
          exact aimed

theorem run_aimed {settings : Json} {loadController : String → Option String}
    {doings : List Doing}
    (fresh : Along Doing.act Doing.Fresh doings (controlInit settings loadController)) :
    (run Doing.act doings (controlInit settings loadController)).recipe.Aimed :=
  run_preserves Doing.Fresh (fun c => c.recipe.Aimed)
    (fun _ _ aimed fresh => Doing.act_aimed fresh aimed) (aimed_of_inactive rfl) fresh

/-! ## From the save to the run -/

section Saved

variable {format : NumberFormat} {grill : Units} {fresh id : ℤ} {table saved : RecipeTable}
  {json : List Char} {j : Json} {steps : List Json}

theorem recipeSave_row (accepted : recipeSave format grill fresh table json = .ok (id, saved))
    {row : SavedRecipe} (there : saved id = some row) :
    ∃ asked, recipeAccepted format grill json = .ok (asked, row) := by
  unfold recipeSave at accepted
  cases outcome : recipeAccepted format grill json with
  | error text =>
      rw [outcome] at accepted
      cases accepted
  | ok pair =>
      obtain ⟨asked, written⟩ := pair
      rw [outcome, Except.map] at accepted
      refine ⟨asked, ?_⟩
      have same : written = row := by
        simp only [Except.ok.injEq] at accepted
        split_ifs at accepted with named known
        · obtain ⟨rfl, rfl⟩ := Prod.mk.inj accepted
          rwa [Function.update_self, Option.some_inj] at there
        · obtain ⟨rfl, rfl⟩ := Prod.mk.inj accepted
          rw [there] at known
          exact absurd rfl known
        · obtain ⟨rfl, rfl⟩ := Prod.mk.inj accepted
          rwa [Function.update_self, Option.some_inj] at there
      rw [same]

variable (parsed : parse format json = some j)
  (listed : j.memberAnyCase? "steps" = some (.arr steps))

include parsed listed

theorem recipeAccepted_row {asked : ℤ} {row : SavedRecipe}
    (accepted : recipeAccepted format grill json = .ok (asked, row)) :
    steps.length ≤ recipeMaxSteps ∧ row.steps = printUnformatted format (.arr steps) ∧
      row.units = if writtenUnits grill j = .c then "C" else "F" := by
  simp only [recipeAccepted, parsed, listed] at accepted
  split_ifs at accepted with empty many unknown
  all_goals
    obtain ⟨-, rfl⟩ := Prod.mk.inj (Except.ok.inj accepted)
    exact ⟨by omega, rfl, by simp_all⟩

theorem recipeLoad_saved (lawful : format.Lawful)
    (accepted : recipeSave format grill fresh table json = .ok (id, saved)) {g : Units}
    (loaded : (recipeLoad (saved.store format) g id).2 = true) :
    (recipeLoad (saved.store format) g id).1.steps =
      steps.map fun s => decodeStep (saved.store format) (writtenUnits grill j)
        (s.mapNumbers format.kept) := by
  cases there : saved id with
  | none =>
      have missing : (saved.store format).row id = none := congrArg (Option.map _) there
      rw [recipeLoad, missing] at loaded
      cases loaded
  | some row =>
      obtain ⟨asked, written⟩ := recipeSave_row accepted there
      obtain ⟨few, text, units⟩ := recipeAccepted_row parsed listed written
      have fits : (Json.arr steps).fits nestingLimit = true :=
        Json.fits_memberAnyCase? (parse_fits parsed) listed
      have found : (saved.store format).row id =
          some { steps := some ((Json.arr steps).mapNumbers format.kept), units := row.units } := by
        have same : (saved.store format).row id =
            some { steps := parse format row.steps, units := some row.units } :=
          congrArg (Option.map _) there
        rw [same, text, parse_print lawful fits]
      have unit : recipeUnits (some row.units) g = writtenUnits grill j := by
        rw [units]
        cases writtenUnits grill j <;> rfl
      rw [recipeLoad, found]
      simp only [unit, Json.mapNumbers, Json.children, Json.mapNumbersItems_eq]
      rw [List.take_of_length_le (by rwa [List.length_map]), List.map_map]
      rfl

theorem running_ends (lawful : format.Lawful)
    (accepted : recipeSave format grill fresh table json = .ok (id, saved)) {g : Units}
    (loaded : (recipeLoad (saved.store format) g id).2 = true) {i : ℕ} {s : Json}
    (step : steps[i]? = some s) {c : Control} (aimed : c.recipe.Aimed)
    (active : c.recipe.active = true) (inside : c.recipe.step < c.recipe.r.nsteps)
    (current : (recipeLoad (saved.store format) g id).1.steps[i]? = some c.recipe.current) :
    s.fits nestingLimit = true ∧
      c.recipe.ends =
        storedEnds format (s.mapNumbers format.kept) (writtenUnits grill j) := by
  constructor
  · exact Json.fits_item (Json.fits_memberAnyCase? (parse_fits parsed) listed)
      (List.mem_of_getElem? step)
  · rw [recipeLoad_saved parsed listed lawful accepted loaded, List.getElem?_map, step,
      Option.map_some, Option.some_inj] at current
    rw [aimed active inside, ← current]
    rfl

/-- The tree a running step is judged by is the one it was saved with, in Celsius,
exactly when the step has room for its text and its numbers return; without room
the step has no ending. -/
theorem ending_as_saved_iff (lawful : format.Lawful)
    (accepted : recipeSave format grill fresh table json = .ok (id, saved)) {g : Units}
    (loaded : (recipeLoad (saved.store format) g id).2 = true) {settings : Json}
    {loadController : String → Option String} {doings : List Doing}
    (fresh : Along Doing.act Doing.Fresh doings (controlInit settings loadController)) {i : ℕ}
    {s : Json} (step : steps[i]? = some s) :
    let c := run Doing.act doings (controlInit settings loadController)
    let u := writtenUnits grill j
    treeEmpty (some (savedTree s)) = false → c.recipe.active = true →
      c.recipe.step < c.recipe.r.nsteps →
        (recipeLoad (saved.store format) g id).1.steps[i]? = some c.recipe.current →
          (c.recipe.ends = some (endingTree u s) ↔
              EndsRoom format (s.mapNumbers format.kept) u ∧ NumbersReturn format s u) ∧
            (¬EndsRoom format (s.mapNumbers format.kept) u → treeEmpty c.recipe.ends = true) := by
  intro c u speaks active inside current
  obtain ⟨fits, ends⟩ := running_ends parsed listed lawful accepted loaded step (run_aimed fresh)
    active inside current
  rw [ends]
  constructor
  · exact storedEnds_iff lawful fits speaks
  · intro isOver
    rw [storedEnds_over lawful fits speaks isOver]
    rfl

end Saved

/-! ## On the bench -/

/-- A request to save a recipe of one step with this ending. -/
def benchRecipe (tree : Json) : Json :=
  .obj [("name", .str "Ribs"), ("units", .str "C"),
    ("steps", .arr [.obj [("mode", .str "Hold"), ("ends", tree)]])]

/-- Saving it into an empty table. -/
def benchSave (tree : Json) : Except String (ℤ × RecipeTable) :=
  recipeSave digitFormat .f 1 (fun _ => none) (printUnformatted digitFormat (benchRecipe tree))

/-- The table after it. -/
def benchTable (tree : Json) : RecipeTable :=
  ((benchSave tree).toOption.getD (0, fun _ => none)).2

/-- A tick on the bench with that table. -/
def savedTick (tree : Json) : Tick :=
  let t := benchTick [] 10 (some 100) []
  { t with services := { t.services with recipes := (benchTable tree).store digitFormat } }

/-- A snapshot of a Hold in the first step of that recipe. -/
def benchPlace : Json :=
  .obj [("mode", .str "Hold"), ("saved_wall", .num 10),
    ("recipe", .obj [("id", .num 1), ("step", .num 0)])]

/-- A warm restart into it. -/
def benchResume (tree : Json) : List Doing := [.move (.resume (savedTick tree) benchPlace)]

/-- The recipe is accepted, and the restart goes on with its first step. -/
def BenchRuns (tree : Json) : Prop :=
  let c := run Doing.act (benchResume tree) benchInit
  (benchSave tree).toOption.map Prod.fst = some 1 ∧
    (recipeLoad ((benchTable tree).store digitFormat) .f 1).2 = true ∧
      c.recipe.active = true ∧ c.recipe.step = 0 ∧ 0 < c.recipe.r.nsteps

instance (tree : Json) : Decidable (BenchRuns tree) := inferInstanceAs (Decidable (_ ∧ _))

theorem benchSave_eq {tree : Json} (accepted : (benchSave tree).toOption.map Prod.fst = some 1) :
    benchSave tree = .ok (1, benchTable tree) := by
  unfold benchTable
  cases outcome : benchSave tree with
  | error text =>
      rw [outcome] at accepted
      cases accepted
  | ok pair =>
      rw [outcome] at accepted
      have same : pair.1 = 1 := Option.some_inj.mp accepted
      rw [← same]
      rfl

theorem benchTable_row {tree : Json}
    (parsed : parse digitFormat (printUnformatted digitFormat (benchRecipe tree)) =
      some (benchRecipe tree)) :
    benchTable tree = Function.update (fun _ => none) 1 (some ⟨"Ribs", "",
        printUnformatted digitFormat (.arr [.obj [("mode", .str "Hold"), ("ends", tree)]]), "C"⟩) ∧
      (benchSave tree).toOption.map Prod.fst = some 1 := by
  have listed : (benchRecipe tree).memberAnyCase? "steps" =
      some (.arr [.obj [("mode", .str "Hold"), ("ends", tree)]]) := by
    have first : strcasecmp "steps" "name" = false := by decide
    have second : strcasecmp "steps" "units" = false := by decide
    have third : strcasecmp "steps" "steps" = true := by decide
    simp [benchRecipe, Json.memberAnyCase?, first, second, third]
  have named : jsonStr (benchRecipe tree) ["name"] "" = "Ribs" := rfl
  have plain : jsonStr (benchRecipe tree) ["description"] "" = "" := rfl
  have unnumbered : jsonInt (benchRecipe tree) ["id"] 0 = 0 := truncate_intCast 0
  have unit : writtenUnits .f (benchRecipe tree) = .c := by
    change (if "C".toList.head? = some 'C' ∨ "C".toList.head? = some 'c' then Units.c else .f) = .c
    decide
  have mode : jsonStr (.obj [("mode", .str "Hold"), ("ends", tree)]) ["mode"] "" = "Hold" := rfl
  have known : (modeFromName "Hold").isNone = false := by decide
  rw [benchTable, benchSave, recipeSave, recipeAccepted, parsed]
  simp [listed, named, plain, unnumbered, unit, mode, known, recipeMaxSteps, Except.map,
    Except.toOption]

theorem benchTable_store {tree : Json}
    (parsed : parse digitFormat (printUnformatted digitFormat (benchRecipe tree)) =
      some (benchRecipe tree))
    (text : parse digitFormat (printUnformatted digitFormat
        (.arr [.obj [("mode", .str "Hold"), ("ends", tree)]])) =
      some (.arr [.obj [("mode", .str "Hold"), ("ends", tree)]])) :
    (benchTable tree).store digitFormat =
      { row := fun id => if id = 1 then
          some ⟨some (.arr [.obj [("mode", .str "Hold"), ("ends", tree)]]), some "C"⟩ else none
        ends := storedEnds digitFormat } := by
  rw [(benchTable_row parsed).1, RecipeTable.store]
  congr
  funext id
  rw [Function.update_apply, ← text]
  split_ifs <;> rfl

theorem benchResume_current {tree : Json}
    (loaded : (recipeLoad ((benchTable tree).store digitFormat) .f 1).2 = true)
    (placed : (run Doing.act (benchResume tree) benchInit).recipe.step = 0) :
    (recipeLoad ((benchTable tree).store digitFormat) .f 1).1.steps[0]? =
      some (run Doing.act (benchResume tree) benchInit).recipe.current := by
  have r : (run Doing.act (benchResume tree) benchInit).recipe.r =
      (recipeLoad ((benchTable tree).store digitFormat) .f 1).1 := by
    have resumed : resumedMode (savedTick tree) benchPlace benchInit = some .hold := by
      change resumedMode (benchTick [] 10 (some 100) []) benchPlace benchInit = some .hold
      decide +kernel
    have named : jsonInt (.obj [("id", .num 1), ("step", .num 0)]) ["id"] 0 = 1 := by
      decide
    have taken := controlResume_r resumed rfl (by rw [named]; decide)
    have units : settingsUnits (savedTick tree).settings = .f :=
      (by decide : settingsUnits (.obj []) = .f)
    rw [named, units] at taken
    exact taken
  have some_ := recipeLoad_nsteps_pos loaded
  rw [RecipeRun.current, r, placed, Recipe.stepAt, List.getD_eq_getElem?_getD,
    List.getElem?_eq_getElem some_]
  rfl

/-- A step that waits for the cook to answer. -/
theorem ending_as_saved_prompt :
    (run Doing.act (benchResume (signalled "prompt")) benchInit).recipe.ends =
      some (signalled "prompt") := by
  have parsed :
      parse digitFormat (printUnformatted digitFormat (benchRecipe (signalled "prompt"))) =
        some (benchRecipe (signalled "prompt")) :=
    parse_print digitFormat_lawful (by decide)
  have runs : BenchRuns (signalled "prompt") := by decide +kernel
  obtain ⟨named, loaded, active, placed, some_⟩ := runs
  have fresh : Along Doing.act Doing.Fresh (benchResume (signalled "prompt")) benchInit :=
    ⟨rfl, trivial⟩
  have inside := placed.trans_lt some_
  refine (ending_as_saved_iff parsed rfl digitFormat_lawful (benchSave_eq named) loaded fresh
    (i := 0) rfl (by decide) active inside (benchResume_current loaded placed)).1.mpr ?_
  constructor
  · unfold EndsRoom
    decide
  · rfl

/-- A step that ends when the cook has answered forty times over. -/
def longTree : Json :=
  .obj [("op", .str "all"), ("conditions", .arr (List.replicate 40 (signalled "prompt")))]

/-- A tree that needs more room is accepted, and lost. -/
theorem long_ending_lost :
    ¬∀ (format : NumberFormat) (grill g : Units) (fresh id : ℤ) (table saved : RecipeTable)
      (json : List Char) (j : Json) (steps : List Json), format.Lawful →
        parse format json = some j → j.memberAnyCase? "steps" = some (.arr steps) →
          recipeSave format grill fresh table json = .ok (id, saved) →
            (recipeLoad (saved.store format) g id).2 = true →
              ∀ (settings : Json) (loadController : String → Option String)
                (doings : List Doing),
                Along Doing.act Doing.Fresh doings (controlInit settings loadController) →
                  ∀ (i : ℕ) (s : Json), steps[i]? = some s →
                    let c := run Doing.act doings (controlInit settings loadController)
                    treeEmpty (some (savedTree s)) = false → c.recipe.active = true →
                      c.recipe.step < c.recipe.r.nsteps →
                        (recipeLoad (saved.store format) g id).1.steps[i]? =
                            some c.recipe.current →
                          c.recipe.ends = some (endingTree (writtenUnits grill j) s) := by
  intro always
  have parsed : parse digitFormat (printUnformatted digitFormat (benchRecipe longTree)) =
      some (benchRecipe longTree) :=
    parse_print digitFormat_lawful (by decide)
  have runs : BenchRuns longTree := by
    refine ⟨(benchTable_row parsed).2, ?_⟩
    rw [benchResume, savedTick, benchTable_store parsed (parse_print digitFormat_lawful (by decide))]
    decide +kernel
  obtain ⟨named, loaded, active, placed, some_⟩ := runs
  have fresh : Along Doing.act Doing.Fresh (benchResume longTree) benchInit := ⟨rfl, trivial⟩
  have current := benchResume_current loaded placed
  have inside := placed.trans_lt some_
  have kept := always digitFormat .f .f 1 1 (fun _ => none) (benchTable longTree) _ _ _
    digitFormat_lawful parsed rfl (benchSave_eq named) loaded (.obj []) some (benchResume longTree)
    fresh 0 _ rfl (by decide) active inside current
  -- the text of the ending does not fit, and what is left of it is no JSON
  have isOver : ¬EndsRoom digitFormat
      ((Json.obj [("mode", .str "Hold"), ("ends", longTree)]).mapNumbers digitFormat.kept) .c := by
    unfold EndsRoom
    decide +kernel
  obtain ⟨fits, ends⟩ := running_ends parsed rfl digitFormat_lawful (benchSave_eq named) loaded
    (i := 0) rfl (run_aimed fresh) active inside current
  have lost : (run Doing.act (benchResume longTree) benchInit).recipe.ends = none :=
    ends.trans (storedEnds_over digitFormat_lawful fits (by decide) isOver)
  exact nomatch lost.symm.trans kept

end PiFire
