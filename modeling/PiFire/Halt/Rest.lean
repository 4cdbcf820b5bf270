import PiFire.Cook.Batch

/-!
# A grill at rest

A grill in Stop is left there by the step unless somebody asks for a mode: of
all phases only a command, the pending request and the recipe can enter one. A
recipe that still runs does so when the step it is at counts the Stop as its
end and the next one lights or drives the grill.
-/

namespace PiFire

open Transition

/-- Whether a Stop ends the step the run is at: the step is about the grill's
own mode, and the cook asked for no pause at its end. -/
def RecipeRun.endsInStop (run : RecipeRun) : Bool :=
  run.active && (run.current.mode == .startup || run.current.mode == .shutdown ||
    run.current.mode == .stop) && !run.pauses

/-- The run, left to itself in Stop, goes on to a step that enters another mode. -/
inductive RecipeRun.Wakes : RecipeRun → Prop where
  | leaves {run : RecipeRun} {e : Entry} (ends : run.endsInStop = true)
      (entered : advanceEntry .stop run = some e) (other : e.mode ≠ .stop) : Wakes run
  | later {run : RecipeRun} {e : Entry} (ends : run.endsInStop = true)
      (entered : advanceEntry .stop run = some e) (again : e.mode = .stop)
      (wakes : Wakes (advancedRun run)) : Wakes run

theorem RecipeRun.Wakes.active {run : RecipeRun} (wakes : run.Wakes) : run.active = true := by
  have ended {run : RecipeRun} (ends : run.endsInStop = true) : run.active = true := by
    simp only [endsInStop, Bool.and_eq_true] at ends
    exact ends.1.1
  cases wakes with
  | leaves ends => exact ended ends
  | later ends => exact ended ends

theorem pauses_place {run other : RecipeRun} (same : run.place = other.place) :
    run.pauses = other.pauses := by
  obtain ⟨-, step, flags, -⟩ := parts_of_place same
  simp only [RecipeRun.pauses, RecipeRun.flagAt, step, flags]

theorem current_place {run other : RecipeRun} (same : run.place = other.place) :
    run.current = other.current := by
  obtain ⟨-, step, -, r⟩ := parts_of_place same
  simp only [RecipeRun.current, step, r]

theorem endsInStop_place {run other : RecipeRun} (same : run.place = other.place) :
    run.endsInStop = other.endsInStop := by
  obtain ⟨active, -, -, -⟩ := parts_of_place same
  simp only [RecipeRun.endsInStop, active, pauses_place same, current_place same]

theorem RecipeRun.Wakes.of_place {run other : RecipeRun} (wakes : run.Wakes)
    (same : run.place = other.place) : other.Wakes := by
  induction wakes generalizing other with
  | leaves ends entered elsewhere =>
      rw [endsInStop_place same] at ends
      rw [advanceEntry_place same] at entered
      exact .leaves ends entered elsewhere
  | later ends entered again _ ih =>
      rw [endsInStop_place same] at ends
      rw [advanceEntry_place same] at entered
      exact .later ends entered again (ih (advancedRun_place same))

theorem wakes_place {run other : RecipeRun} (same : run.place = other.place) :
    run.Wakes ↔ other.Wakes :=
  ⟨fun wakes => wakes.of_place same, fun wakes => wakes.of_place same.symm⟩

theorem not_endsInStop {run : RecipeRun} (nothing : switchEntry .stop run.current.mode = none) :
    run.endsInStop = false := by
  cases mode : run.current.mode with
  | monitor | prime | reignite | manual | error => simp [RecipeRun.endsInStop, mode]
  | startup | smoke | hold | shutdown | stop =>
      rw [mode] at nothing
      cases nothing

theorem begunRun_still {run : RecipeRun} (nothing : beginEntry .stop run = none) :
    ¬(begunRun run).Wakes := by
  simp only [beginEntry] at nothing
  simp only [begunRun]
  generalize passOver recipeMaxSteps run = passed at nothing ⊢
  split at nothing
  · next ended =>
      rw [if_pos ended]
      intro wakes
      cases wakes.active
  · next going =>
      rw [if_neg going]
      have inert := not_endsInStop nothing
      intro wakes
      cases wakes with
      | leaves ends => rw [inert] at ends; cases ends
      | later ends => rw [inert] at ends; cases ends

theorem advancedRun_still {run : RecipeRun} (nothing : advanceEntry .stop run = none) :
    ¬(advancedRun run).Wakes := by
  unfold advanceEntry at nothing
  unfold advancedRun
  split at nothing
  · next last =>
      rw [if_pos last]
      intro wakes
      cases wakes.active
  · next more =>
      rw [if_neg more]
      exact begunRun_still nothing

theorem advancedRun_not_wakes {run : RecipeRun} (still : ¬run.Wakes)
    (ends : run.endsInStop = true) : ¬(advancedRun run).Wakes := by
  cases entered : advanceEntry .stop run with
  | none => exact advancedRun_still entered
  | some e =>
      intro wakes
      by_cases again : e.mode = .stop
      · exact still (.later ends entered again wakes)
      · exact still (.leaves ends entered again)

section Tick

variable {t : Tick} {c : Control}

theorem noticeLid_place : (noticeLid c).recipe.place = c.recipe.place := by
  unfold noticeLid
  split <;> rfl

theorem weighStep_stop (stopped : c.mode = .stop) (active : c.recipe.active = true) :
    (weighStep t c).2 = c.recipe.endsInStop ∧
      (weighStep t c).1.recipe.place = c.recipe.place := by
  have paused (run : RecipeRun) (same : run.pauses = c.recipe.pauses) :
      (noticeLid c).recipe.pauses = run.pauses := by
    rw [same]
    exact pauses_place noticeLid_place
  have ended : (endOrPause (noticeLid c)).2 = !c.recipe.pauses ∧
      (endOrPause (noticeLid c)).1.recipe.place = c.recipe.place := by
    unfold endOrPause
    rw [paused c.recipe rfl]
    split
    · next pauses => exact ⟨by simp [pauses], noticeLid_place⟩
    · next runs => exact ⟨by simpa using runs, noticeLid_place⟩
  unfold weighStep
  extract_lets s noticed
  by_cases own : s.mode = .startup ∨ s.mode = .shutdown ∨ s.mode = .stop
  · have done : modeStepDone s.mode c.mode = true := by
      rw [stopped]
      rcases own with is | is | is <;> rw [is] <;> rfl
    have ends : c.recipe.endsInStop = !c.recipe.pauses := by
      rcases own with is | is | is <;> simp [RecipeRun.endsInStop, active, is, s]
    rw [if_pos own, if_pos done, ends]
    exact ended
  · have elsewhere : c.mode ≠ s.mode := by
      rw [stopped]
      intro same
      exact own (Or.inr (Or.inr same.symm))
    have ends : c.recipe.endsInStop = false := by
      simp only [not_or] at own
      simp [RecipeRun.endsInStop, s, own] at own ⊢
    rw [if_neg own, if_pos elsewhere, ends]
    exact ⟨rfl, noticeLid_place⟩

theorem recipeEntry_stop (stopped : c.mode = .stop) :
    recipeEntry t c = if c.recipe.endsInStop then advanceEntry .stop c.recipe else none := by
  unfold recipeEntry
  by_cases active : c.recipe.active = true
  · obtain ⟨ended, place⟩ := weighStep_stop (t := t) stopped active
    have notError : c.mode ≠ .error := by rw [stopped]; decide
    rw [ended, stopped, advanceEntry_place place]
    simp only [active, true_and, ne_eq, reduceCtorEq, not_false_eq_true]
  · rw [if_neg fun runs => active runs.1]
    have isOver : c.recipe.endsInStop = false := by simp [RecipeRun.endsInStop, active]
    rw [isOver]
    rfl

theorem runRecipe_stop (stopped : c.mode = .stop) :
    (runRecipe t c).recipe.place =
      (if c.recipe.endsInStop then advancedRun c.recipe else c.recipe).place := by
  unfold runRecipe
  by_cases active : c.recipe.active = true
  · obtain ⟨ended, place⟩ := weighStep_stop (t := t) stopped active
    have notError : c.mode ≠ .error := by rw [stopped]; decide
    simp only [active, Bool.not_true, Bool.false_eq_true, if_false, if_neg notError, ended]
    by_cases ends : c.recipe.endsInStop = true
    · rw [if_pos ends, if_pos ends, recipeAdvance_place]
      exact advancedRun_place place
    · rw [if_neg ends, if_neg ends]
      exact place
  · have isOver : c.recipe.endsInStop = false := by simp [RecipeRun.endsInStop, active]
    simp [active, isOver]

end Tick

section Quiet

variable (t : Tick) (c : Control)

theorem capIgniter_recipe : (capIgniter t c).recipe = c.recipe := by
  unfold capIgniter
  repeat' split
  all_goals rfl

end Quiet

theorem clearForStop_active (c : Control) : (clearForStop c).recipe.active = false := by
  unfold clearForStop
  extract_lets cleared
  by_cases runs : c.recipe.active = true
  · rw [if_pos runs]
    rfl
  · rw [if_neg runs]
    exact Bool.eq_false_of_not_eq_true runs

theorem not_wakes {run : RecipeRun} (isOver : run.active = false) : ¬run.Wakes := by
  intro wakes
  have active := wakes.active
  rw [isOver] at active
  cases active

/-- The grill is in Stop, no other mode is asked for, and no recipe goes on from
here. -/
structure AtRest (c : Control) : Prop where
  stopped : c.mode = .stop
  settled : ∀ r ∈ c.req, r.mode = .stop
  still : ¬c.recipe.Wakes

/-- Whether a command may bring a grill out of Stop: it asks for a mode, or it
moves a recipe that runs. -/
def Cmd.rouses (active : Bool) : Cmd → Bool
  | .mode m _ _ => m != .stop
  | .prime .. | .recipeStart _ => true
  | .recipeNext | .recipeSkip | .recipeBack | .recipeFlag .. => active
  | _ => false

section Rest

variable {t : Tick} {c : Control}

theorem AtRest.of_same {d : Control} (rest : AtRest c) (mode : d.mode = c.mode)
    (req : d.req = c.req) (place : d.recipe.place = c.recipe.place) : AtRest d where
  stopped := mode.trans rest.stopped
  settled := req ▸ rest.settled
  still := fun wakes => rest.still (wakes.of_place place)

theorem AtRest.command (rest : AtRest c) {cmd : Cmd}
    (quiet : cmd.rouses c.recipe.active = false) : AtRest (handleCmd t c cmd) := by
  have lit : c.mode.isLighting = false := by
    rw [rest.stopped]
    rfl
  have mode := act_mode t (.command cmd) c
  have req := act_req t (.command cmd) c
  have place := handleCmd_place t c cmd
  simp only [Phase.act, phaseEntry, phaseReq] at mode req
  have isOver {run : RecipeRun} : ¬RecipeRun.Wakes { run with active := false } := not_wakes rfl
  cases cmd with
  | stop =>
      refine ⟨mode, ?_, ?_⟩
      · rw [req]
        rintro _ ⟨⟩
      · rw [wakes_place place]
        exact isOver
  | mode m num flag =>
      have stop : m = .stop := by simpa [Cmd.rouses] using quiet
      simp only [cmdEntry, cmdReq, forcesHandover, lit, Bool.and_false, Bool.false_and,
        Bool.false_eq_true, if_false] at mode req
      refine ⟨mode.trans rest.stopped, ?_, ?_⟩
      · rw [req]
        rintro r ⟨⟩
        exact stop
      · rw [wakes_place place]
        exact rest.still
  | setpoint num =>
      have elsewhere : ¬(num > 0 ∧ c.mode = .smoke) := by simp [rest.stopped]
      simp only [cmdReq, if_neg elsewhere] at req
      exact rest.of_same mode req place
  | clearError =>
      have fine : ¬c.mode = .error := by simp [rest.stopped]
      simp only [cmdEntry, if_neg fine] at mode
      exact rest.of_same mode req place
  | recipeStop =>
      refine ⟨mode.trans rest.stopped, ?_, ?_⟩
      · rw [req]
        exact rest.settled
      · rw [wakes_place place]
        exact isOver
  | prime | recipeStart => cases quiet
  | recipeNext | recipeSkip | recipeBack | recipeFlag =>
      simp only [Cmd.rouses] at quiet
      simp only [cmdEntry, cmdRun, quiet, Bool.false_and, Bool.false_eq_true, false_and,
        if_false] at mode place
      exact rest.of_same mode req place
  | _ => exact rest.of_same mode req place

theorem atRest_of_request {r : Request} (waiting : c.req = some r) (stop : r.mode = .stop) :
    AtRest (applyRequest t c) ∧ (applyRequest t c).recipe.active = false := by
  obtain ⟨m, sp⟩ := r
  subst stop
  have carried : applyRequest t c = enterMode t .stop (clearForStop { c with
      req := none, setpointC := if sp > 0 then sp else c.setpointC }) := by
    unfold applyRequest
    rw [waiting]
    rfl
  have req := act_req t .request c
  simp only [Phase.act, phaseReq] at req
  have isOver : (applyRequest t c).recipe.active = false := by
    rw [carried, enterMode_recipe]
    exact clearForStop_active _
  refine ⟨⟨?_, ?_, not_wakes isOver⟩, isOver⟩
  · rw [carried, enterMode_mode]
  · rw [req]
    rintro _ ⟨⟩

theorem AtRest.request (rest : AtRest c) : AtRest (applyRequest t c) := by
  cases waiting : c.req with
  | none =>
      have same : applyRequest t c = c := by
        unfold applyRequest
        rw [waiting]
      rw [same]
      exact rest
  | some r => exact (atRest_of_request waiting (rest.settled r waiting)).1

theorem runNotify_stop (stopped : c.mode = .stop) :
    ∃ notify, runNotify t c = { c with notify := notify } := by
  have kept (act : ℤ) (c : Control) (stopped : c.mode = .stop) : afterAction t act c = c := by
    have cold : ¬(act = afterShutdown ∧ c.mode.isFiring) := by simp [stopped, Mode.isFiring]
    have idle : ¬(act = afterKeepwarm ∧ c.mode.isRunning) := by simp [stopped, Mode.isRunning]
    unfold afterAction
    rw [if_neg cold, if_neg idle]
  exact ⟨_, kept _ _ stopped⟩

theorem AtRest.recipe (rest : AtRest c) : AtRest (runRecipe t c) := by
  have mode := act_mode t .recipe c
  have req := act_req t .recipe c
  simp only [Phase.act, phaseEntry, phaseReq, recipeEntry_stop rest.stopped] at mode req
  refine ⟨?_, ?_, ?_⟩
  · rw [mode]
    split
    · next ends =>
        cases entered : advanceEntry .stop c.recipe with
        | none => exact rest.stopped
        | some e =>
            by_contra other
            exact rest.still (.leaves ends entered other)
    · exact rest.stopped
  · rw [req]
    exact rest.settled
  · rw [wakes_place (runRecipe_stop rest.stopped)]
    split
    · next ends => exact advancedRun_not_wakes rest.still ends
    · exact rest.still

theorem supervise_stop (stopped : c.mode = .stop) :
    supervise t c = judgeIdle (capIgniter t c) := by
  have cool : overheated c = false := by simp [overheated, stopped]
  have idle : c.mode.isFiring = false := by rw [stopped]; rfl
  simp [supervise, safetyTick, carryAction, cool, idle]

theorem AtRest.act (rest : AtRest c) (p : Phase)
    (quiet : ∀ cmd, p = .command cmd → cmd.rouses c.recipe.active = false) :
    AtRest (p.act t c) := by
  have stopped := rest.stopped
  have still (quiet : p.isQuiet = true) : AtRest (p.act t c) := by
    have same := stillOf_quiet t c quiet
    exact rest.of_same (congrArg Still.mode same) (congrArg Still.req same)
      (congrArg (fun s => s.recipe.place) same)
  cases p with
  | begin | read | idleHeat | lid | feed | fan | expire | close => exact still rfl
  | command cmd => exact rest.command (quiet cmd rfl)
  | request => exact rest.request
  | recipe => exact rest.recipe
  | notify =>
      obtain ⟨notify, same⟩ := runNotify_stop (t := t) stopped
      simp only [Phase.act, same]
      exact rest.of_same rfl rfl rfl
  | clampSp =>
      simp only [Phase.act, clampSetpoint]
      split
      · exact rest.of_same rfl rfl rfl
      · exact rest
  | aftercare =>
      simp only [Phase.act, recipeAftercare]
      split
      · exact rest.of_same rfl rfl rfl
      · exact rest
  | supervise =>
      apply rest.of_same _ (act_req t .supervise c)
      · rw [Phase.act, supervise_stop stopped]
        exact congrArg _ (capIgniter_recipe t c)
      · rw [Phase.act, supervise_stop stopped]
        exact capIgniter_mode t c
  | timed =>
      simpa [Phase.act, timedTransition, stopped] using rest
  | input =>
      simpa [Phase.act, shutdownInput, stopped] using rest
  | checkpoint => exact rest.of_same rfl rfl rfl

theorem AtRest.run {ps : List Phase} (rest : AtRest c)
    (quiet : Along (Phase.act t)
      (fun p c => ∀ cmd, p = .command cmd → cmd.rouses c.recipe.active = false) ps c) :
    AtRest (run (Phase.act t) ps c) :=
  run_preserves _ AtRest (fun p _ rest quiet => rest.act p quiet) rest quiet

end Rest

end PiFire
