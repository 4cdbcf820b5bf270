import PiFire.Runner.Lights

/-!
# The step a light is handed over to

The ledger holds phase by phase: what is owed is where the light would go, unless
a step begins during a Relight that goes back to another mode, or a prime is
asked for while a Startup owes another mode than Smoke. A light that is proven
then goes to the step that began last during it.
-/

namespace PiFire

open Transition

section Ledger

variable {t : Tick} {p : Phase} {c : Control} {s : Ledger} {run : RecipeRun} {d : Due}

theorem BeginsDue.congr {before after : Control} (due : BeginsDue before after d)
    (mode : before.mode = c.mode) (back : goesBack before = goesBack c) :
    BeginsDue c after d := by
  constructor
  · rw [← mode]
    exact due.goesOn
  · rw [← mode, ← back]
    exact due.headed

theorem begins_spec (found : begins t p c = some run) :
    run.place = (p.act t c).recipe.place ∧ ∀ d ∈ run.due, BeginsDue c (p.act t c) d := by
  have due {after : Control} (place : run.place = after.recipe.place)
      (each : ∀ d ∈ after.recipe.due, BeginsDue c after d) :
      run.place = after.recipe.place ∧ ∀ d ∈ run.due, BeginsDue c after d := by
    refine ⟨place, ?_⟩
    rw [due_place place]
    exact each
  cases p with
  | command cmd =>
      have place := handleCmd_place t c cmd
      cases cmd with
      | recipeStart num =>
          simp only [begins] at found
          split at found
          · next going =>
              cases found
              apply due place.symm
              have loaded : (askedLoad t num).2 = true := (askedLoad_snd t num).trans going.2
              have started : handleCmd t c (.recipeStart num) =
                  recipeBeginStep t { c with
                    recipe := { c.recipe with
                      r := (askedLoad t num).1, active := true, step := 0, flags := clearFlags
                      leftRunning := false } } := by
                rw [handleCmd, commandRecipeStart, if_neg going.1]
                exact if_pos loaded
              rw [started]
              exact fun d owes => (recipeBeginStep_due owes).congr rfl rfl
          · cases found
      | recipeSkip =>
          simp only [begins] at found
          split at found
          · next active =>
              cases found
              have ran : cmdRun t c.mode c.recipe .recipeSkip = advancedRun c.recipe :=
                if_pos active
              rw [ran] at place
              apply due place.symm
              rw [handleCmd, commandRecipeSkip, if_pos active]
              exact fun d owes => (recipeAdvance_due owes).congr rfl rfl
          · cases found
      | recipeBack =>
          simp only [begins] at found
          split at found
          · next going =>
              cases found
              have ran : cmdRun t c.mode c.recipe .recipeBack =
                  begunRun { c.recipe with step := c.recipe.step - 1 } := if_pos going
              rw [ran] at place
              apply due place.symm
              rw [handleCmd, commandRecipeBack, if_pos going]
              exact fun d owes => (recipeBeginStep_due owes).congr rfl rfl
          · cases found
      | _ => cases found
  | recipe =>
      simp only [begins] at found
      split at found
      · next going =>
          cases found
          have advanced : runRecipe t c = recipeAdvance t (weighStep t c).1 := by
            simp [runRecipe, going]
          have bearing := bearingOf_weighStep t c
          have mode : (weighStep t c).1.mode = c.mode := congrArg Bearing.mode bearing
          have back : goesBack (weighStep t c).1 = goesBack c := by
            have last : (weighStep t c).1.safety.reigniteLast = c.safety.reigniteLast :=
              congrArg Bearing.reigniteLast bearing
            rw [goesBack, goesBack, last]
          rw [Phase.act, advanced]
          apply due
          · rw [recipeAdvance_place]
            exact (advancedRun_place (weighStep_place t c)).symm
          · exact fun d owes => (recipeAdvance_due owes).congr mode back
      · cases found
  | _ => cases found

/-- Where a phase may make the light miss: a step that begins during a Relight
that goes back to another mode, and a prime asked for while a Startup owes
another mode than Smoke. -/
def BearingClear (t : Tick) (p : Phase) (s : Ledger) : Prop :=
  match p with
  | .command (.prime _ _) => ∀ d ∈ s.2, s.1.mode = .startup → d.mode = .smoke
  | p => ∀ run ∈ begins t p s.1, ∀ d ∈ run.due, s.1.mode = .reignite → goesBack s.1 = d.mode

theorem clampSetpoint_setpointC (c : Control) :
    (clampSetpoint c).setpointC = heldTo c.cfg c.setpointC := by
  simp only [clampSetpoint, heldTo]
  split <;> rfl

theorem headedTo_clampSetpoint (headed : HeadedTo c d) :
    HeadedTo (clampSetpoint c) (d.held c.cfg) := by
  have there : handoverMode (clampSetpoint c) = handoverMode c := by
    simp only [clampSetpoint]
    split <;> rfl
  constructor
  · rw [there]
    exact headed.1
  · intro sp aimed
    simp only [Due.held, Option.mem_def, Option.map_eq_some_iff] at aimed
    obtain ⟨asked, among, rfl⟩ := aimed
    rw [clampSetpoint_setpointC, headed.2 asked among]

theorem headedTo_noNext {c' : Control} (lit : c.mode.isLighting = true)
    (mode : c'.mode = c.mode) (safety : c'.safety = c.safety)
    (setpointC : c'.setpointC = c.setpointC) (next : c'.nextMode.isRunning = false)
    (headed : HeadedTo c d) : HeadedTo c' d ↔ (c.mode = .startup → d.mode = .smoke) := by
  unfold HeadedTo at headed ⊢
  rw [setpointC]
  cases light : c.mode with
  | startup =>
      have there : handoverMode c' = .smoke := by simp [handoverMode, mode, light, next]
      rw [there]
      exact ⟨fun gone _ => gone.1.symm, fun smoke => ⟨(smoke rfl).symm, headed.2⟩⟩
  | reignite =>
      have there : handoverMode c' = handoverMode c := by
        simp only [handoverMode, mode, light, safety, if_true]
      rw [there]
      exact ⟨fun _ startup => (by cases startup), fun _ => headed⟩
  | _ =>
      rw [light] at lit
      cases lit

theorem handleCmd_prime {num : ℚ} {str : String} (lit : c.mode.isLighting = true) :
    handleCmd t c (.prime num str) =
      { c with
        primeAmountG := num
        nextMode := if strcasecmp str "Startup" then .startup else .stop } := by
  have refused : ¬(c.mode = .stop ∨ c.mode = .monitor) := by
    rintro (stop | monitor)
    · rw [stop] at lit
      cases lit
    · rw [monitor] at lit
      cases lit
  rw [handleCmd, commandPrime, if_neg refused]

theorem oweNext_begins {due : Option Due} (found : begins t p c = some run)
    (lit : (p.act t c).mode.isLighting = true) (active : (p.act t c).recipe.active = true) :
    oweNext t p c due = run.due := by
  simp only [oweNext, lit, active, found, Bool.and_self, if_true]

theorem oweNext_still {due : Option Due} (still : begins t p c = none)
    (lit : (p.act t c).mode.isLighting = true) (active : (p.act t c).recipe.active = true) :
    oweNext t p c due = dueAfter p c due := by
  simp only [oweNext, lit, active, still, Bool.and_self, if_true]

theorem dueAfter_spec {due : Option Due} (notClamp : p ≠ .clampSp) (owes : d ∈ dueAfter p c due) :
    redirects p c = false ∧ d ∈ due := by
  cases redirected : redirects p c with
  | false => cases p <;> first | exact absurd rfl notClamp | simpa [dueAfter, redirected] using owes
  | true => cases p <;> first | exact absurd rfl notClamp | simp [dueAfter, redirected] at owes

theorem oweNext_spec {due : Option Due} (owes : d ∈ oweNext t p c due) :
    (p.act t c).mode.isLighting = true ∧ (p.act t c).recipe.active = true := by
  unfold oweNext at owes
  split at owes
  · next going => simpa using going
  · cases owes

/-- A step that begins is owed exactly when its phase is clear. -/
theorem owed_begins_iff {due : Option Due} (found : begins t p c = some run) :
    Owed (owePhase t p (c, due)) ↔
      ∀ d ∈ run.due, c.mode = .reignite → goesBack c = d.mode := by
  obtain ⟨place, begun⟩ := begins_spec found
  constructor
  · intro owed d owes relight
    obtain ⟨goesOn, headed⟩ := begun d owes
    have lit := goesOn (by rw [relight]; rfl)
    have active : (p.act t c).recipe.active = true := by
      rw [← (parts_of_place place).1]
      exact (due_spec owes).1
    have among : d ∈ oweNext t p c due := by
      rw [oweNext_begins found lit active]
      exact owes
    exact (headed lit).mp (owed d among).2.2 relight
  · intro clear d owes
    obtain ⟨lit, active⟩ := oweNext_spec owes
    have among : d ∈ run.due := by
      change d ∈ oweNext t p c due at owes
      rw [oweNext_begins found lit active] at owes
      exact owes
    refine ⟨lit, active, ?_⟩
    exact ((begun d among).headed lit).mpr (clear d among)

theorem owed_still {due : Option Due} (owed : Owed (c, due)) (still : begins t p c = none)
    (notPrime : ∀ num str, p ≠ .command (.prime num str)) (notClamp : p ≠ .clampSp) :
    Owed (owePhase t p (c, due)) := by
  intro d owes
  obtain ⟨lit, active⟩ := oweNext_spec owes
  change d ∈ oweNext t p c due at owes
  rw [oweNext_still still lit active] at owes
  have kept := dueAfter_spec notClamp owes
  obtain ⟨before, -, headed⟩ := owed d kept.2
  refine ⟨lit, active, ?_⟩
  exact headedTo_of_bearing (bearingOf_act before lit still kept.1 notPrime notClamp) headed

theorem owed_clampSp {due : Option Due} (owed : Owed (c, due)) :
    Owed (owePhase t .clampSp (c, due)) := by
  intro d owes
  obtain ⟨lit, active⟩ := oweNext_spec owes
  change d ∈ oweNext t .clampSp c due at owes
  rw [oweNext_still rfl lit active] at owes
  simp only [dueAfter, Option.mem_def, Option.map_eq_some_iff] at owes
  obtain ⟨asked, among, rfl⟩ := owes
  exact ⟨lit, active, headedTo_clampSetpoint (owed asked among).2.2⟩

theorem owed_prime_iff {due : Option Due} {num : ℚ} {str : String} (owed : Owed (c, due)) :
    Owed (owePhase t (.command (.prime num str)) (c, due)) ↔
      ∀ d ∈ due, c.mode = .startup → d.mode = .smoke := by
  have primed {d : Due} (among : d ∈ due) :
      d ∈ oweNext t (.command (.prime num str)) c due ∧
        (HeadedTo (handleCmd t c (.prime num str)) d ↔ (c.mode = .startup → d.mode = .smoke)) := by
    obtain ⟨lit, active, headed⟩ := owed d among
    have same : handleCmd t c (.prime num str) =
        { c with
          primeAmountG := num
          nextMode := if strcasecmp str "Startup" then .startup else .stop } :=
      handleCmd_prime lit
    have mode : (handleCmd t c (.prime num str)).mode = c.mode := by rw [same]
    have safety : (handleCmd t c (.prime num str)).safety = c.safety := by rw [same]
    have setpointC : (handleCmd t c (.prime num str)).setpointC = c.setpointC := by rw [same]
    have recipe : (handleCmd t c (.prime num str)).recipe = c.recipe := by rw [same]
    have next : (handleCmd t c (.prime num str)).nextMode.isRunning = false := by
      rw [same]
      simp only
      split <;> rfl
    constructor
    · rw [oweNext_still rfl]
      · exact among
      · change (handleCmd t c (.prime num str)).mode.isLighting = true
        rw [mode]
        exact lit
      · change (handleCmd t c (.prime num str)).recipe.active = true
        rw [recipe]
        exact active
    · exact headedTo_noNext lit mode safety setpointC next headed
  constructor
  · intro after d among
    obtain ⟨owes, headed⟩ := primed among
    exact headed.mp (after d owes).2.2
  · intro clear d owes
    obtain ⟨lit, active⟩ := oweNext_spec owes
    change d ∈ oweNext t (.command (.prime num str)) c due at owes
    rw [oweNext_still rfl lit active] at owes
    have among : d ∈ due := owes
    exact ⟨lit, active, (primed among).2.mpr (clear d among)⟩

theorem owed_iff (owed : Owed s) : Owed (owePhase t p s) ↔ BearingClear t p s := by
  obtain ⟨c, due⟩ := s
  by_cases prime : ∃ num str, p = .command (.prime num str)
  · obtain ⟨num, str, rfl⟩ := prime
    exact owed_prime_iff owed
  have notPrime (num : ℚ) (str : String) : p ≠ .command (.prime num str) :=
    fun same => prime ⟨num, str, same⟩
  have clear : BearingClear t p (c, due) ↔
      ∀ run ∈ begins t p c, ∀ d ∈ run.due, c.mode = .reignite → goesBack c = d.mode := by
    unfold BearingClear
    split
    · exact absurd rfl (notPrime _ _)
    · exact Iff.rfl
  rw [clear]
  cases found : begins t p c with
  | some run =>
      rw [owed_begins_iff found]
      simp
  | none =>
      apply iff_of_true
      · by_cases clamp : p = .clampSp
        · subst clamp
          exact owed_clampSp owed
        · exact owed_still owed found notPrime clamp
      · intro run none
        cases none

/-- A light that is done when something is owed goes there: to its mode, with its
set point when it has one. -/
def Delivers (t : Tick) (p : Phase) (s : Ledger) : Prop :=
  p = .timed → startupDone s.1 = true → ∀ d ∈ s.2,
    (p.act t s.1).mode = d.mode ∧ ∀ sp ∈ d.aim, 0 < sp → (p.act t s.1).setpointC = sp

theorem delivers (owed : Owed s) : Delivers t p s := by
  rintro rfl done d owes
  obtain ⟨lit, -, there, aimed⟩ := owed d owes
  constructor
  · have mode := act_mode t .timed s.1
    have entered : timedEntry t s.1 = some (.plain (handoverMode s.1)) := by
      cases light : s.1.mode with
      | startup | reignite => simp [timedEntry, light, done]
      | _ =>
          rw [light] at lit
          cases lit
    rw [phaseEntry, entered] at mode
    rw [mode]
    exact there
  · intro sp among positive
    have same := aimed sp among
    have aim : timedAim s.1 = s.1.setpointC := by
      unfold timedAim
      split
      · rw [holdAim, if_neg (by rw [same]; exact not_le.mpr positive)]
      · rfl
    rw [act_setpointC, phaseAim, aim, same]

/-- What is asked of a phase: what is owed stays owed, and a light that is done
delivers it. -/
def PhaseHeaded (t : Tick) (p : Phase) (s : Ledger) : Prop :=
  Owed (owePhase t p s) ∧ Delivers t p s

theorem phase_headed_iff (owed : Owed s) : PhaseHeaded t p s ↔ BearingClear t p s := by
  rw [PhaseHeaded, owed_iff owed, and_iff_left (delivers owed)]

end Ledger

/-- A doing, with what it does to the ledger: a start of the daemon, which enters
a mode by itself, strikes everything out. -/
def Doing.owe : Doing → Ledger → Ledger
  | .move (.step t), s => run (owePhase t) (phases t) s
  | .move (.reload t), s => (controlReloadSettings t s.1, s.2)
  | .keepCheckpoint, s => (controlSetCheckpointPath s.1, s.2)
  | .move m, s => (m.act s.1, none)

/-- What is asked of everything the daemon does, phase by phase in a step. -/
def Doing.Headed : Doing → Ledger → Prop
  | .move (.step t), s => Along (owePhase t) (PhaseHeaded t) (phases t) s
  | d, s => Owed (d.owe s)

/-- No step begins during a Relight that goes back to another mode, and no prime
is asked for while a Startup owes another mode than Smoke. -/
def Doing.Straight : Doing → Ledger → Prop
  | .move (.step t), s => Along (owePhase t) (BearingClear t) (phases t) s
  | _, _ => True

section Life

variable {d : Doing} {s : Ledger}

/-- The ledger stands beside the daemon and changes nothing of it. -/
theorem Doing.owe_fst (d : Doing) (s : Ledger) : (d.owe s).1 = d.act s.1 := by
  have phasewise (t : Tick) (ps : List Phase) (s : Ledger) :
      (run (owePhase t) ps s).1 = run (Phase.act t) ps s.1 := by
    induction ps generalizing s with
    | nil => rfl
    | cons p ps ih => exact ih _
  cases d with
  | keepCheckpoint => rfl
  | move m =>
      cases m with
      | step t => exact (phasewise t (phases t) s).trans (controlStep_eq_run t s.1).symm
      | reload | resume | recover | bootCheck => rfl

theorem Doing.owed_of_headed (owed : Owed s) (headed : d.Headed s) : Owed (d.owe s) := by
  cases d with
  | keepCheckpoint => exact headed
  | move m =>
      cases m with
      | step t => exact run_preserves (PhaseHeaded t) Owed (fun _ _ _ kept => kept.1) owed headed
      | reload | resume | recover | bootCheck => exact headed

theorem Doing.headed_iff (owed : Owed s) : d.Headed s ↔ d.Straight s := by
  have struck (c : Control) : Owed (c, none) ↔ True := by simp [Owed]
  cases d with
  | keepCheckpoint => exact iff_true_intro owed
  | move m =>
      cases m with
      | step t =>
          exact along_iff Owed (fun _ _ _ kept => kept.1) (fun _ _ => phase_headed_iff) owed
      | reload t =>
          have bearing : bearingOf (controlReloadSettings t s.1) = bearingOf s.1 := by
            simp only [controlReloadSettings]
            split <;> rfl
          have mode : (controlReloadSettings t s.1).mode = s.1.mode :=
            congrArg Bearing.mode bearing
          apply iff_true_intro
          intro d owes
          obtain ⟨lit, active, headed⟩ := owed d owes
          refine ⟨?_, ?_, headedTo_of_bearing bearing headed⟩
          · change (controlReloadSettings t s.1).mode.isLighting = true
            rw [mode]
            exact lit
          · change (controlReloadSettings t s.1).recipe.active = true
            rw [controlReloadSettings_recipe]
            exact active
      | resume | recover | bootCheck => exact struck _

end Life

/-- A light goes to the Smoke or Hold step that began last during it, in exactly
the lives in which no such step begins during a Relight that goes back to
another mode, and no prime is asked for while a Startup owes another mode than
Smoke. -/
theorem light_ends_in_step_iff (settings : Json) (loadController : String → Option String)
    (doings : List Doing) :
    Along Doing.owe Doing.Headed doings (controlInit settings loadController, none) ↔
      Along Doing.owe Doing.Straight doings (controlInit settings loadController, none) := by
  apply along_iff Owed
  · exact fun _ _ => Doing.owed_of_headed
  · exact fun _ _ => Doing.headed_iff
  · intro d none
    cases none

/-- A Smoke cook on the bench relit after a power loss, and a recipe with one Hold
step started over the Relight. -/
def benchRelightStep : List Doing :=
  let snapshot := Json.obj [("mode", .str "Smoke"), ("saved_wall", .num 1)]
  let step := Json.obj [("mode", .str "Hold"), ("setpoint", .num 100)]
  [ .move (.recover
      { tick := benchTick [] 1 none [], tunerInterrupted := false, synced := true } snapshot),
    .move (.step (benchTick [step] 2 (some 20) [.recipeStart 1])),
    .move (.step (benchTick [] 3 (some 80) [])) ]

/-- The step in which the light is proven. -/
def benchProof : Tick := benchTick [] 20 (some 150) []

/-- The light goes back to Smoke, and the Hold step waits for a mode that never
comes. -/
theorem light_misses_step :
    ¬∀ (settings : Json) (loadController : String → Option String) (doings : List Doing),
      Along Doing.owe Doing.Headed doings (controlInit settings loadController, none) := by
  intro headed
  have life := headed (.obj []) some (benchRelightStep ++ [.move (.step benchProof)])
  have proof : Along (owePhase benchProof) (PhaseHeaded benchProof) (phases benchProof)
      (run Doing.owe benchRelightStep (benchInit, none)) := (along_append.mp life).2.1
  have split : phases benchProof =
      [.begin, .read, .request, .idleHeat, .clampSp, .notify, .recipe, .aftercare, .supervise,
        .lid, .feed, .fan, .expire] ++ [.timed, .input, .checkpoint, .close] := rfl
  rw [split] at proof
  obtain ⟨-, delivers⟩ := (along_append.mp proof).2.1
  have there := (delivers rfl (by decide +kernel) { mode := .hold, aim := some 100 }
    (by decide +kernel)).1
  revert there
  decide +kernel

end PiFire
