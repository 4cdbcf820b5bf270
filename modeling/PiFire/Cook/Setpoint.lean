import PiFire.Safety.Light

/-!
# The range of the set point

A step clamps the set point to the targets the grill accepts once, after the
drain. The start of the swing comes before the clamp. Keep-warm and the steps of
a recipe give a set point after it, and the fire is judged and the controller
asked in the same step.
-/

namespace PiFire

open Transition

/-- Within the targets a configuration accepts. -/
def InRange (cfg : Cfg) (sp : ℚ) : Prop :=
  cfg.minTargetC ≤ sp ∧ sp ≤ cfg.maxTargetC

instance (cfg : Cfg) (sp : ℚ) : Decidable (InRange cfg sp) :=
  inferInstanceAs (Decidable (_ ∧ _))

/-- Whether a phase uses the set point in Hold: the swing that starts at it, the
judgement of the fire, the controller's update or the running swing. -/
def usesSetpoint (t : Tick) (p : Phase) (c : Control) : Bool :=
  c.mode == .hold &&
    match p with
    | .command .autotuneStart => autotuneReady c
    | .supervise => c.validPit.isSome && !overheated c
    | .feed => cycleDone c.cycle t.now && c.controller.isSome && !c.lidOpen
    | _ => false

/-- A phase that uses the set point finds it in range. -/
def UsedInRange (t : Tick) (p : Phase) (c : Control) : Prop :=
  usesSetpoint t p c → InRange c.cfg c.setpointC

/-- The set point is in range wherever a step uses it. -/
def StepUsedInRange (t : Tick) (c : Control) : Prop :=
  Along (Phase.act t) (UsedInRange t) (phases t) c

/-- The clamp leaves the set point in range: it finds it there, or positive and
more than the slack outside a range that is not empty. -/
def clampLands (c : Control) : Prop :=
  InRange c.cfg c.setpointC ∨
    0 < c.setpointC ∧ c.cfg.minTargetC ≤ c.cfg.maxTargetC ∧
      (c.setpointC < c.cfg.minTargetC - setpointSlackC ∨
        c.cfg.maxTargetC + setpointSlackC < c.setpointC)

instance (c : Control) : Decidable (clampLands c) :=
  inferInstanceAs (Decidable (_ ∨ _))

theorem clampSetpoint_cfg (c : Control) : (clampSetpoint c).cfg = c.cfg := by
  simp only [clampSetpoint]
  split <;> rfl

theorem inRange_clampSetpoint (c : Control) :
    InRange c.cfg (clampSetpoint c).setpointC ↔ clampLands c := by
  have slack : (0 : ℚ) < setpointSlackC := by norm_num [setpointSlackC]
  unfold clampLands
  by_cases found : InRange c.cfg c.setpointC
  · have held := clamp_eq_self found.1 found.2
    have same : clampSetpoint c = c := by
      simp [clampSetpoint, held]
    rw [same]
    exact ⟨Or.inl, fun _ => found⟩
  · rw [or_iff_right found]
    simp only [clampSetpoint]
    constructor
    · intro landed
      split at landed
      · next moved =>
          have ordered := landed.1.trans landed.2
          refine ⟨moved.1, ordered, ?_⟩
          have far := moved.2
          unfold clamp at far
          split_ifs at far with low high
          · rw [abs_of_pos (by linarith)] at far
            exact Or.inl (by linarith)
          · rw [abs_of_neg (by linarith)] at far
            exact Or.inr (by linarith)
          · exact absurd ⟨not_lt.mp low, not_lt.mp high⟩ found
      · exact absurd landed found
    · rintro ⟨positive, ordered, far⟩
      have moved : |clamp c.setpointC c.cfg.minTargetC c.cfg.maxTargetC - c.setpointC| >
          setpointSlackC := by
        rcases far with low | high
        · have below : c.setpointC < c.cfg.minTargetC := by linarith
          rw [clamp, if_pos below, abs_of_pos (by linarith)]
          linarith
        · have above : c.cfg.maxTargetC < c.setpointC := by linarith
          rw [clamp, if_neg (by linarith), if_pos above, abs_of_neg (by linarith)]
          linarith
      rw [if_pos ⟨positive, moved⟩]
      exact clamp_mem ordered

/-- Whether the targets or the timer turn the grill down to keep warm. -/
def keepsWarm (t : Tick) (c : Control) : Bool :=
  (tickNotify t c).pendingAction == afterKeepwarm && c.mode.isRunning

/-- The set point of its own, of the step a run begins. -/
def begunAim (run : RecipeRun) : Option ℚ :=
  let passed := passOver recipeMaxSteps run
  if passed.2 ∨ passed.1.current.setpointC ≤ 0 then none else some passed.1.current.setpointC

/-- The set point the recipe gives as its step ends. -/
def recipeGives (t : Tick) (c : Control) : Option ℚ :=
  let run := (weighStep t c).1.recipe
  if c.recipe.active ∧ c.mode ≠ .error ∧ (weighStep t c).2 ∧ run.step + 1 < run.r.nsteps then
    begunAim { run with step := run.step + 1 }
  else none

theorem beginAim_eq (run : RecipeRun) (sp : ℚ) : beginAim run sp = (begunAim run).getD sp := by
  simp only [beginAim, begunAim, RecipeRun.aim]
  by_cases stuck : (passOver recipeMaxSteps run).2 = true
  · rw [if_pos stuck, if_pos (Or.inl stuck)]
    rfl
  · rw [if_neg stuck]
    by_cases positive : (passOver recipeMaxSteps run).1.current.setpointC > 0
    · rw [if_pos positive, if_neg (not_or.mpr ⟨stuck, not_le.mpr positive⟩)]
      rfl
    · rw [if_neg positive, if_pos (Or.inr (not_lt.mp positive))]
      rfl

theorem recipeAim_eq (t : Tick) (c : Control) :
    recipeAim t c = (recipeGives t c).getD c.setpointC := by
  simp only [recipeAim, recipeGives, advanceAim]
  by_cases ends : c.recipe.active ∧ c.mode ≠ .error ∧ (weighStep t c).2
  · rw [if_pos ends]
    split
    · next last => rw [if_neg (by omega)]; rfl
    · next further =>
        rw [if_pos ⟨ends.1, ends.2.1, ends.2.2, not_le.mp further⟩]
        exact beginAim_eq _ _
  · rw [if_neg ends, if_neg fun all => ends ⟨all.1, all.2.1, all.2.2.1⟩]
    rfl

section Order

variable (t : Tick) (c : Control)

/-- The state the clamp finds. -/
def atClamp : Control :=
  run (Phase.act t) [.read, .request, .idleHeat] (run (Phase.act t) (drainPhases t) c)

/-- The state the targets and the timer find. -/
def atNotify : Control := clampSetpoint (atClamp t c)

/-- The state the recipe finds. -/
def atRecipe : Control := runNotify t (atNotify t c)

/-- The state the auger's cycle finds. -/
def atFeed : Control := watchLid t (supervise t (beforeSupervision t c))

theorem beforeSupervision_eq :
    beforeSupervision t c = recipeAftercare (runRecipe t (atRecipe t c)) := by
  simp only [beforeSupervision, cookPhases, atRecipe, atNotify, atClamp, run_cons, run_nil,
    Phase.act]

theorem beforeSupervision_cfg : (beforeSupervision t c).cfg = (atClamp t c).cfg := by
  have kept (p : Phase) (notCommand : ∀ cmd, p ≠ .command cmd) (c : Control) :=
    act_cfg t p c notCommand
  rw [beforeSupervision_eq]
  calc (recipeAftercare (runRecipe t (atRecipe t c))).cfg
      = (runRecipe t (atRecipe t c)).cfg := kept .aftercare (by simp) _
    _ = (atRecipe t c).cfg := kept .recipe (by simp) _
    _ = (atNotify t c).cfg := kept .notify (by simp) _
    _ = (atClamp t c).cfg := clampSetpoint_cfg _

theorem beforeSupervision_setpointC :
    (beforeSupervision t c).setpointC =
      (recipeGives t (atRecipe t c)).getD
        (actionAim (tickNotify t (atNotify t c)).pendingAction (atNotify t c)) := by
  rw [beforeSupervision_eq]
  calc (recipeAftercare (runRecipe t (atRecipe t c))).setpointC
      = (runRecipe t (atRecipe t c)).setpointC := act_setpointC t .aftercare _
    _ = recipeAim t (atRecipe t c) := act_setpointC t .recipe _
    _ = (recipeGives t (atRecipe t c)).getD (atRecipe t c).setpointC := recipeAim_eq t _
    _ = _ := congrArg _ (act_setpointC t .notify (atNotify t c))

theorem not_hold_of_shutdown (shut : (atRecipe t c).mode = .shutdown) :
    (beforeSupervision t c).mode ≠ .hold := by
  intro holding
  have moved : (beforeSupervision t c).mode =
      ((recipeEntry t (atRecipe t c)).map Entry.mode).getD (atRecipe t c).mode := by
    rw [beforeSupervision_eq]
    exact (act_mode t .aftercare (runRecipe t (atRecipe t c))).trans (act_mode t .recipe _)
  rw [holding, shut] at moved
  cases entered : recipeEntry t (atRecipe t c) with
  | none =>
      rw [entered] at moved
      cases moved
  | some e =>
      rw [entered] at moved
      have cooks : e.mode.isRunning = true := by
        rw [← show Mode.hold = e.mode from moved]
        rfl
      simp only [recipeEntry] at entered
      split at entered
      · have faulted := advanceEntry_running entered cooks (by rw [shut]; rfl)
        rw [shut] at faulted
        cases faulted
      · cases entered

/-- The set point given after the drain, by the last to give one, is in range. -/
def AimedInRange : Prop :=
  match recipeGives t (atRecipe t c) with
  | some sp => InRange (atClamp t c).cfg sp
  | none =>
      if keepsWarm t (atNotify t c) then InRange (atClamp t c).cfg (atClamp t c).cfg.keepwarmC
      else clampLands (atClamp t c)

theorem inRange_beforeSupervision (holding : (beforeSupervision t c).mode = .hold) :
    InRange (beforeSupervision t c).cfg (beforeSupervision t c).setpointC ↔
      AimedInRange t c := by
  have limits : (atNotify t c).cfg = (atClamp t c).cfg := clampSetpoint_cfg _
  rw [beforeSupervision_cfg, beforeSupervision_setpointC]
  unfold AimedInRange
  cases recipeGives t (atRecipe t c) with
  | some sp => exact Iff.rfl
  | none =>
      simp only [Option.getD_none]
      by_cases warm : keepsWarm t (atNotify t c) = true
      · have warms : (tickNotify t (atNotify t c)).pendingAction = afterKeepwarm ∧
            (atNotify t c).mode.isRunning = true := by
          simpa [keepsWarm] using warm
        rw [if_pos warm, actionAim, if_neg (by simp [warms.1, afterKeepwarm, afterShutdown]),
          if_pos warms, limits]
      · rw [if_neg warm, ← inRange_clampSetpoint]
        have notWarm : ¬((tickNotify t (atNotify t c)).pendingAction = afterKeepwarm ∧
            (atNotify t c).mode.isRunning = true) := by
          simpa [keepsWarm] using warm
        by_cases shuts : (tickNotify t (atNotify t c)).pendingAction = afterShutdown ∧
            (atNotify t c).mode.isFiring = true
        · have shut : (atRecipe t c).mode = .shutdown := by
            have moved := act_mode t .notify (atNotify t c)
            rw [phaseEntry, notifyEntry, actionEntry, if_pos shuts] at moved
            exact moved
          exact absurd holding (not_hold_of_shutdown t c shut)
        · rw [actionAim, if_neg shuts, if_neg notWarm]
          exact Iff.rfl

theorem atFeed_aim :
    (atFeed t c).cfg = (beforeSupervision t c).cfg ∧
      (atFeed t c).setpointC = (beforeSupervision t c).setpointC := by
  constructor
  · exact (act_cfg t .lid _ (by simp)).trans (act_cfg t .supervise _ (by simp))
  · exact (act_setpointC t .lid _).trans (act_setpointC t .supervise _)

theorem atFeed_hold (holding : (atFeed t c).mode = .hold) :
    (beforeSupervision t c).mode = .hold := by
  have supervised : (supervise t (beforeSupervision t c)).mode = .hold :=
    (act_mode t .lid (supervise t (beforeSupervision t c))).symm.trans holding
  have moved := act_mode t .supervise (beforeSupervision t c)
  rw [show Phase.act t .supervise (beforeSupervision t c) =
    supervise t (beforeSupervision t c) from rfl, supervised] at moved
  simp only [phaseEntry, superviseEntry] at moved
  split at moved
  · exact moved.symm
  · cases moved
  · cases moved

end Order

/-- Whether the step judges the fire of a Hold, or asks for its feed. -/
def usedInHold (t : Tick) (c : Control) : Bool :=
  usesSetpoint t .supervise (beforeSupervision t c) || usesSetpoint t .feed (atFeed t c)

/-- A swing that starts finds the set point in range. -/
def TunesInRange (p : Phase) (c : Control) : Prop :=
  match p with
  | .command .autotuneStart => autotuneReady c → InRange c.cfg c.setpointC
  | _ => True

/-- The swing starts in range, and a set point that the step goes on to use is
given in range. -/
def SetpointHeld (t : Tick) (c : Control) : Prop :=
  Along (Phase.act t) TunesInRange (drainPhases t) c ∧ (usedInHold t c → AimedInRange t c)

theorem usedInRange_drain (t : Tick) (c : Control) :
    Along (Phase.act t) (UsedInRange t) (drainPhases t) c ↔
      Along (Phase.act t) TunesInRange (drainPhases t) c := by
  apply along_congr
  intro p c inside
  have quiet (unused : usesSetpoint t p c = false) : UsedInRange t p c := by
    intro used
    rw [unused] at used
    cases used
  simp only [drainPhases, List.mem_cons, List.mem_map] at inside
  rcases inside with rfl | ⟨cmd, -, rfl⟩
  · exact iff_of_true (quiet (by simp [usesSetpoint])) trivial
  · cases cmd with
    | autotuneStart =>
        have used : usesSetpoint t (.command .autotuneStart) c = autotuneReady c := by
          simp only [usesSetpoint, autotuneReady]
          cases c.mode == .hold <;> rfl
        simp only [UsedInRange, TunesInRange, used]
    | _ => exact iff_of_true (quiet (by simp [usesSetpoint])) trivial

theorem stepUsedInRange_iff (t : Tick) (c : Control) :
    StepUsedInRange t c ↔ SetpointHeld t c := by
  have unused {ps : List Phase} (quiet : ∀ p ∈ ps, ∀ c, usesSetpoint t p c = false)
      (c : Control) : Along (Phase.act t) (UsedInRange t) ps c := by
    apply along_of_forall
    intro p inside c used
    rw [quiet p inside c] at used
    cases used
  have cooks (c : Control) : Along (Phase.act t) (UsedInRange t) cookPhases c := by
    apply unused
    intro p inside c
    fin_cases inside
    all_goals simp [usesSetpoint]
  have closes (c : Control) :
      Along (Phase.act t) (UsedInRange t) closePhases c ↔
        UsedInRange t .feed (watchLid t c) := by
    have opens (c : Control) : UsedInRange t .lid c := by
      intro used
      simp [usesSetpoint] at used
    have ends (c : Control) :
        Along (Phase.act t) (UsedInRange t) [.fan, .expire, .timed, .input, .checkpoint, .close]
          c := by
      apply unused
      intro p inside c
      fin_cases inside
      all_goals simp [usesSetpoint]
    exact ⟨fun along => along.2.1, fun used => ⟨opens c, used, ends _⟩⟩
  unfold StepUsedInRange SetpointHeld
  rw [phases, along_append, along_append, usedInRange_drain, along_cons, closes,
    and_iff_right (cooks _)]
  apply and_congr_right
  intro _
  change UsedInRange t .supervise (beforeSupervision t c) ∧ UsedInRange t .feed (atFeed t c) ↔ _
  have holds {p : Phase} {c : Control} (used : usesSetpoint t p c = true) : c.mode = .hold := by
    simp only [usesSetpoint, Bool.and_eq_true, beq_iff_eq] at used
    exact used.1
  obtain ⟨limits, aim⟩ := atFeed_aim t c
  constructor
  · rintro ⟨judged, fed⟩ used
    rcases (Bool.or_eq_true _ _).mp used with atJudgement | atCycle
    · exact (inRange_beforeSupervision t c (holds atJudgement)).mp (judged atJudgement)
    · rw [← inRange_beforeSupervision t c (atFeed_hold t c (holds atCycle)), ← limits, ← aim]
      exact fed atCycle
  · intro given
    constructor
    · intro used
      rw [inRange_beforeSupervision t c (holds used)]
      exact given (by simp [usedInHold, used])
    · intro used
      rw [limits, aim, inRange_beforeSupervision t c (atFeed_hold t c (holds used))]
      exact given (by simp [usedInHold, used])

/-- In every run the set point is in range wherever it is used exactly when
every step holds it there. -/
theorem setpoint_used_in_range (ticks : List Tick) (c : Control) :
    Along controlStep StepUsedInRange ticks c ↔ Along controlStep SetpointHeld ticks c :=
  along_congr fun t c _ => stepUsedInRange_iff t c

/-- A recipe whose second step holds a set point under every target the grill
accepts. -/
def coolSecond : List Json :=
  [.obj [("mode", .str "Hold"), ("setpoint", .num 110)],
    .obj [("mode", .str "Hold"), ("setpoint", .num 20)]]

/-- The bench lit for that recipe. -/
def benchCoolSecond : Control :=
  controlStep (benchTick coolSecond 1 (some 100) [.recipeStart 1]) benchInit

theorem reachable_benchCoolSecond : Reachable 1 benchCoolSecond :=
  reachable_benchInit.move (.step (benchTick coolSecond 1 (some 100) [.recipeStart 1]))
    (by decide) (by decide)

/-- The fire of the second step is judged at its set point before the clamp has
seen it. -/
theorem recipe_holds_out_of_range :
    ¬∀ (time : ℚ) (c : Control), Reachable time c → ∀ ticks : List Tick,
      Along controlStep StepUsedInRange ticks c := by
  intro always
  let t := benchTick coolSecond 2 (some 100) [.mode .hold 0 true]
  have used : StepUsedInRange t benchCoolSecond :=
    (always 1 benchCoolSecond reachable_benchCoolSecond [t]).1
  rw [StepUsedInRange, phases, along_append, along_append] at used
  have judged : InRange (beforeSupervision t benchCoolSecond).cfg
      (beforeSupervision t benchCoolSecond).setpointC :=
    used.2.2.1 (by decide +kernel)
  exact absurd judged (by decide +kernel)

end PiFire
