import PiFire.Fan.Duty
import PiFire.Override.Expiry
import PiFire.Safety.Lid
import PiFire.Settings.Document

/-!
# The fan in order over a run

Outside the fan logic only a command and the settings read again change what it goes by. A
daemon that starts with settings that keep the fan in order, and only reads settings that
keep the fan as it is then in order, drives the fan soundly at every step of its life.
-/

namespace PiFire

open Transition

section Kept

variable (t : Tick) {c : Control} {now : ℚ}

theorem FanFits.ite_fst {α : Type} {p : Prop} [Decidable p] {yes no : Control × α}
    (ifYes : FanFits now yes.1) (ifNo : FanFits now no.1) :
    FanFits now (if p then yes else no).1 := by
  split
  · exact ifYes
  · exact ifNo

theorem FanFits.later {later : ℚ} (fits : FanFits now c) (le : now ≤ later) :
    FanFits later c := by
  constructor
  · exact fits.settings
  · exact fits.duty
  · exact fits.modulated
  · intro ramping
    obtain ⟨some_, target, inside⟩ := fits.ramp ramping
    refine ⟨some_, target, ?_⟩
    linarith

/-- What the fan logic goes by in a state. -/
def blowerOf (c : Control) : Blower :=
  { cfg := c.cfg, duty := c.dutyCycle, pidActive := c.fanPidActive, ramping := c.fanRamping
    rampEndT := c.rampEndT }

theorem fits_smokeCycle (fits : FanFits now c) : FanFits now (smokeCycle t c) := by
  unfold smokeCycle
  simp only
  split
  · exact fits
  · exact fits

theorem fits_autotuneFinish (fits : FanFits now c) : FanFits now (autotuneFinish c) := fits

theorem fits_leaveMode (m : Mode) (fits : FanFits now c) : FanFits now (leaveMode t m c) := by
  have quiet : FanFits now (if c.autotune.active then autotuneFinish c else c) :=
    FanFits.ite (fits_autotuneFinish fits) fits
  unfold leaveMode
  dsimp only
  constructor
  · exact quiet.settings
  · exact quiet.duty
  · exact fun active => Bool.noConfusion active
  · exact fun ramping => Bool.noConfusion ramping

theorem fits_setOutput (o : Output) (on : Bool) (fits : FanFits now c) :
    FanFits now (setOutput o on c) := fits

theorem fits_onStartupEnter (fits : FanFits now c) : FanFits now (onStartupEnter t c) := fits

theorem fits_onRunEnter (prev : Mode) (fits : FanFits now c) :
    FanFits now (onRunEnter t prev c) := fits

theorem fits_setupLight (fits : FanFits now c) : FanFits now (setupLight t c) := by
  have profiled {c : Control} (fits : FanFits now c) :
      FanFits now (selectSmartstartProfile c) := fits
  unfold setupLight
  apply fits_setOutput
  apply fits_smokeCycle
  apply fits_onStartupEnter
  apply profiled
  apply fits_setOutput
  apply fits_fanOn
  exact fits_setOutput _ _ fits

theorem fits_setupSmoke (prev : Mode) (fits : FanFits now c) :
    FanFits now (setupSmoke t prev c) := by
  unfold setupSmoke
  apply fits_setOutput
  apply fits_smokeCycle
  apply fits_fanOn
  apply fits_setOutput
  exact fits_onRunEnter t prev fits

theorem fits_setupHold (prev : Mode) (fits : FanFits now c) :
    FanFits now (setupHold t prev c) := by
  have applied {c : Control} (cycle : Cycle) (fits : FanFits now c) :
      FanFits now (applyCycle cycle c) := fits
  unfold setupHold
  apply fits_setOutput
  apply applied
  apply fits_fanOn
  apply fits_setOutput
  exact fits_onRunEnter t prev fits

theorem fits_setupError (fits : FanFits now c) : FanFits now (setupError t c) := by
  unfold setupError
  extract_lets
  refine FanFits.ite (fits_fanOn 100 ?_) ?_
  · exact fits
  · exact fits

theorem fits_enterMode (m : Mode) (fits : FanFits now c) : FanFits now (enterMode t m c) := by
  have left := fits_leaveMode t m fits
  cases m with
  | stop => exact left
  | monitor | manual => exact left
  | prime =>
      unfold enterMode setupPrime
      dsimp only
      split
      · exact left
      · exact left
  | startup =>
      apply fits_setupLight
      exact left
  | reignite => exact fits_setupLight t left
  | smoke => exact fits_setupSmoke t c.mode left
  | hold => exact fits_setupHold t c.mode left
  | shutdown =>
      unfold enterMode setupShutdown
      apply fits_fanOn
      exact fits_setOutput _ _ left
  | error => exact fits_setupError t left

theorem FanFits.of_passes {t : Tick} {entered : Option Entry} {d : Control}
    (passes : Passes withoutFire t c entered d) (fits : FanFits now c) : FanFits now d := by
  have seen {c d : Control} (same : blowerOf d = blowerOf c) (fits : FanFits now c) :
      FanFits now d := by
    change Blower.Fits now (blowerOf d)
    rw [same]
    exact fits
  rcases (passes.blind blowerOf fun _ => rfl).stays_or_enters rfl with
    ⟨-, same⟩ | ⟨e, from_, -, same, into⟩
  · exact seen same fits
  · exact seen into (fits_enterMode t e.mode (seen same fits))

theorem fits_dutyCycle (num : ℚ) (fits : FanFits now c) :
    FanFits now (handleCmd t c (.dutyCycle num)) := by
  have set : FanFits now { c with
      dutyCycle := truncate (clamp num c.cfg.pwmMinDuty c.cfg.pwmMaxDuty) } := by
    constructor
    · exact fits.settings
    · exact fun dc => within_clamp num (fits.settings.ordered dc)
    · exact fits.modulated
    · exact fits.ramp
  exact FanFits.ite set set

theorem fits_manualSwitch (until_ : ℚ) (o : Output) (on : Bool) (fits : FanFits now c) :
    FanFits now (manualSwitch t until_ o on c) := by
  have full : FanFits now (setFanPct (if c.cfg.pwmMaxDuty > 0 then c.cfg.pwmMaxDuty else 100) c) :=
    fits
  have blown : FanFits now (if o = .fan ∧ on ∧ c.cfg.dcFan ∧ c.outputs.fanPct ≤ 0
      then setFanPct (if c.cfg.pwmMaxDuty > 0 then c.cfg.pwmMaxDuty else 100) c else c) :=
    FanFits.ite full fits
  unfold manualSwitch
  exact .of (fits_setOutput o on blown)

theorem fits_manualOutput (str : String) (on : Bool) (num : ℚ) (fits : FanFits now c) :
    FanFits now (manualOutput t str on num c) := by
  unfold manualOutput
  refine FanFits.ite (FanFits.ite (.of fits) ?_) fits
  split
  · exact fits_manualSwitch t _ _ _ fits
  · exact fits

/-- Whether a command reads the settings again. -/
def Cmd.reads : Cmd → Bool
  | .settingsChanged | .controllerChanged => true
  | _ => false

theorem fits_lidToggle (fits : FanFits now c) : FanFits now (lidToggle t c) := by
  have parked : FanFits now (fanOn c.dutyCycle (setOutput .auger false { c with
      lidOpen := true, lidOpenUntil := t.now + c.cfg.lidPauseS, lidLowC := c.pitC })) :=
    fits_fanOn _ fits
  refine FanFits.ite (FanFits.ite (fits_fanOn _ ?_) ?_) fits
  · exact fits
  · exact parked

theorem fits_watchLid (fits : FanFits now c) : FanFits now (watchLid t c) := by
  have sampled {c : Control} (fits : FanFits now c) : FanFits now (lidWatch t c).1 := by
    unfold lidWatch
    split
    · exact fits
    · exact FanFits.ite fits fits
  have tracked {c : Control} (dropped : Bool) (fits : FanFits now c) :
      FanFits now (trackLidEvent t dropped c) := by
    have begun : FanFits now (if dropped ∧ c.lidEvent = false then
        { c with lidEvent := true, lidEventT := t.now, aimSince := t.now } else c) :=
      FanFits.ite fits fits
    exact FanFits.ite begun begun
  have opened {c : Control} (fits : FanFits now c) : FanFits now (openLid t c) := by
    have parked : FanFits now (fanOn c.dutyCycle (setOutput .auger false { c with
        lidOpen := true, lidOpenUntil := t.now + c.cfg.lidPauseS, lidLowC := c.pitC
        targetReached := false })) := fits_fanOn _ fits
    exact parked
  have closed {c : Control} (fits : FanFits now c) : FanFits now (closeLid t c) := by
    have shut (low : Option ℚ) :
        FanFits now (fanOn c.dutyCycle { c with lidLowC := low, lidOpen := false }) :=
      fits_fanOn _ fits
    refine FanFits.ite (FanFits.ite (FanFits.ite (shut _) ?_) fits) fits
    exact shut _
  unfold watchLid
  refine FanFits.ite (closed (FanFits.ite (opened ?_) ?_)) fits
  all_goals exact tracked _ (sampled (FanFits.ite fits fits))

theorem fits_runHoldCycle (fits : FanFits now c) : FanFits now (runHoldCycle t c) := by
  have faulted (id : String) : FanFits now (controllerFault t id c) := FanFits.ite fits fits
  have asked : FanFits now (holdRatio t c).1 := by
    unfold holdRatio
    split
    · exact fits
    · refine FanFits.ite_fst fits (FanFits.ite_fst ?_ ?_)
      · exact FanFits.ite fits fits
      · unfold askController
        split
        · exact fits
        · exact faulted _
  have left := congrArg Control.cfg (withoutAsking_holdRatio t c)
  have cfg : (holdRatio t c).1.cfg = c.cfg := left
  refine FanFits.ite ?_ fits
  constructor
  · exact asked.settings
  · exact asked.duty
  · intro active
    have allowed : c.cfg.fanPid = true := by
      have modulates : (c.cfg.fanPid && !c.pwmControl && c.targetReached &&
          decide ((holdRatio t c).2 < c.cfg.uMin)) = true := active
      simp only [Bool.and_eq_true] at modulates
      exact modulates.1.1.1
    exact asked.settings.modulates ((congrArg Cfg.fanPid cfg).trans allowed)
  · exact asked.ramp

theorem fits_nextCycle (fits : FanFits now c) : FanFits now (nextCycle t c) :=
  FanFits.ite (fits_runHoldCycle t fits) (FanFits.ite (fits_smokeCycle t fits) fits)

theorem fits_feedAuger (fits : FanFits now c) : FanFits now (feedAuger t c) := by
  have followed {c : Control} (fits : FanFits now c) : FanFits now (followCycle t c) :=
    FanFits.ite (FanFits.ite (.of fits) (FanFits.ite (.of fits) fits)) fits
  have driven : FanFits now (driveCycle t c) :=
    FanFits.ite (followed (fits_nextCycle t fits)) (FanFits.ite (.of fits) fits)
  have rested {c : Control} (fits : FanFits now c) : FanFits now (restAuger t c) :=
    FanFits.ite (.of fits) fits
  have capped {c : Control} (fits : FanFits now c) : FanFits now (capAuger t c) :=
    FanFits.ite (.of fits) fits
  exact capped (rested driven)

/-- A phase that reads settings leaves the fan in order. -/
def ReadsWell (p : Phase) (c : Control) : Prop :=
  ∀ cmd, p = .command cmd → cmd.reads = true → FanFits t.now (p.act t c)

theorem fits_act {p : Phase} (fits : FanFits t.now c) (reads : ReadsWell t p c) :
    FanFits t.now (p.act t c) := by
  by_cases plans : p.plans = true ∨ p = .read ∨ p = .supervise
  · exact fits.of_passes (passes_fire t c plans)
  · obtain ⟨works, notRead, notSupervise⟩ := by simpa only [not_or] using plans
    cases p with
    | command cmd =>
        cases cmd with
        | dutyCycle num => exact fits_dutyCycle t num fits
        | manualOutput str on num => exact fits_manualOutput t str on num fits
        | lidToggle => exact fits_lidToggle t fits
        | settingsChanged => exact reads _ rfl rfl
        | controllerChanged => exact reads _ rfl rfl
        | _ => exact absurd rfl works
    | lid => exact fits_watchLid t fits
    | feed => exact fits_feedAuger t fits
    | fan => exact fits_runFan fits
    | expire => exact FanFits.ite fits fits
    | checkpoint => exact fits
    | read => exact absurd rfl notRead
    | supervise => exact absurd rfl notSupervise
    | _ => exact absurd rfl works

/-- A step that reads no settings, or only ones that leave the fan in order. -/
def StepReadsWell (c : Control) : Prop := Along (Phase.act t) (ReadsWell t) (phases t) c

theorem fits_step (fits : FanFits t.now c) (reads : StepReadsWell t c) :
    FanFits t.now (controlStep t c) :=
  controlStep_preserves (ReadsWell t) (FanFits t.now) (fun _ _ fits reads => fits_act t fits reads)
    fits reads

theorem stepReadsWell_of_plain (plain : ∀ cmd ∈ t.cmds, cmd.reads = false) (c : Control) :
    StepReadsWell t c := by
  apply along_of_forall
  rintro p inside _ cmd rfl reads
  have given : cmd ∈ t.cmds := by
    simpa [phases, drainPhases, cookPhases, closePhases] using inside
  exact absurd ((plain cmd given).symm.trans reads) Bool.false_ne_true

theorem fits_fanIn (fits : FanFits t.now c) (reads : StepReadsWell t c) :
    FanFits t.now (fanIn t c) := by
  rw [StepReadsWell, phases_eq_lead] at reads
  have lead := (along_append.mp reads).1
  apply fits_feedAuger
  exact run_preserves (ReadsWell t) (FanFits t.now) (fun _ _ fits reads => fits_act t fits reads)
    fits lead

end Kept

/-- A move that reads no settings, or only ones that leave the fan in order. -/
def Move.ReadsWell : Move → Control → Prop
  | .step t, c => StepReadsWell t c
  | .reload t, c => FanFits t.now (controlReloadSettings t c)
  | _, _ => True

theorem fits_controlResume (t : Tick) (o : Json) {c : Control} {now : ℚ} (fits : FanFits now c) :
    FanFits now (controlResume t o c).1 := by
  unfold controlResume
  split
  · exact fits
  · next m _ =>
      have entered : FanFits now (enterMode t m (restoreAim o c)) := fits_enterMode t m fits
      have recipe {c : Control} (fits : FanFits now c) : FanFits now (restoreRecipe t o c) := by
        unfold restoreRecipe
        split
        · exact fits
        · exact FanFits.ite (FanFits.ite fits fits) fits
      have placed : FanFits now (restoreRecipe t o (restoreBooks t o
          (enterMode t m (restoreAim o c)))) := recipe entered
      have feed {c : Control} (fits : FanFits now c) : FanFits now (restoreFeed o c) :=
        FanFits.ite fits fits
      have fed : FanFits now (restoreFeed o (restoreSafety t o (restoreRecipe t o
          (restoreBooks t o (enterMode t m (restoreAim o c)))))) := feed placed
      exact fed

theorem fits_controlRecover (b : Boot) (o : Json) {c : Control} {now : ℚ} (fits : FanFits now c) :
    FanFits now (controlRecover b o c).1 := by
  have lit (m : Mode) : FanFits now (relight b o m c) := by
    have counted : FanFits now (countRecovery o c) := fits
    have entered : FanFits now (enterLight b o m (countRecovery o c)) :=
      FanFits.ite (fits_enterMode b.tick .startup counted) (fits_enterMode b.tick .reignite counted)
    exact entered
  unfold controlRecover
  split
  · exact fits
  · refine FanFits.ite_fst (fits_enterMode b.tick .shutdown fits) ?_
    split
    · apply fits_enterMode
      exact fits
    · exact lit _

theorem fits_move (m : Move) {c : Control} (fits : FanFits m.tick.now c) (reads : m.ReadsWell c) :
    FanFits m.tick.now (m.act c) := by
  cases m with
  | step t => exact fits_step t fits reads
  | reload t => exact reads
  | resume t o => exact fits_controlResume t o fits
  | recover b o => exact fits_controlRecover b o fits
  | bootCheck t resuming =>
      exact FanFits.ite fits (FanFits.ite (fits_enterMode t .shutdown fits) fits)

/-- The states of a daemon that only reads settings that keep the fan in order, with the time
of its last move. -/
inductive Orderly : ℚ → Control → Prop where
  | init (settings : Json) (loadController : String → Option String)
      (ordered : FanSettings (loadCfg { augerontime := 0, pMode := 0 } settings)) :
      Orderly 0 (controlInit settings loadController)
  | checkpoint {time : ℚ} {c : Control} (before : Orderly time c) :
      Orderly time (controlSetCheckpointPath c)
  | move {time : ℚ} {c : Control} (before : Orderly time c) (m : Move)
      (started : 0 < m.tick.now) (later : time ≤ m.tick.now) (reads : m.ReadsWell c) :
      Orderly m.tick.now (m.act c)

theorem fits_controlInit {settings : Json} (loadController : String → Option String)
    (ordered : FanSettings (loadCfg { augerontime := 0, pMode := 0 } settings)) :
    FanFits 0 (controlInit settings loadController) := by
  constructor
  · exact ordered
  · exact fun dc => within_most (ordered.ordered dc)
  · exact fun active => Bool.noConfusion active
  · exact fun ramping => Bool.noConfusion ramping

theorem Orderly.fits {time : ℚ} {c : Control} (orderly : Orderly time c) : FanFits time c := by
  induction orderly with
  | init settings loadController ordered => exact fits_controlInit loadController ordered
  | checkpoint _ fits => exact fits
  | move _ m _ later reads fits => exact fits_move m (fits.later later) reads

/-- Settings with a variable fan and a ramp of Smoke Plus of this length. -/
def rampFor (seconds : ℚ) : Settings.Item :=
  .object [("platform", .object [("dc_fan", .truth true)]),
    ("smoke_plus", .object [("enabled", .truth true), ("fan_ramp", .truth true),
      ("on_time", .number seconds)])]

/-- A tick on the bench under these settings. -/
def fanTick (root : Settings.Item) (now : ℚ) (cmds : List Cmd) : Tick :=
  { benchTick [] now (some 100) cmds with settings := root.toJson }

/-- The bench in Smoke, its light ended by the user. -/
def fanSmoke (root : Settings.Item) : Control :=
  run controlStep [fanTick root 1 [.mode .smoke 0 false], fanTick root 2 [.mode .smoke 0 true]]
    (controlInit root.toJson some)

theorem reachable_fanSmoke (root : Settings.Item) : Reachable 2 (fanSmoke root) :=
  ((Reachable.init root.toJson some).move (.step (fanTick root 1 [.mode .smoke 0 false]))
    one_pos zero_le_one).move (.step (fanTick root 2 [.mode .smoke 0 true])) two_pos one_le_two

theorem fanSmoke_cfg (root : Settings.Item) :
    (fanSmoke root).cfg = loadCfg { augerontime := 0, pMode := 0 } root.toJson := by
  rw [fanSmoke, run_cons, run_cons, run_nil, controlStep_cfg, controlStep_cfg]
  · rfl
  all_goals
    intro cmd inside
    obtain rfl := List.mem_singleton.mp inside
    rfl

theorem orderly_fanSmoke {root : Settings.Item}
    (ordered : FanSettings (loadCfg { augerontime := 0, pMode := 0 } root.toJson)) :
    Orderly 2 (fanSmoke root) := by
  have plain (now : ℚ) (flag : Bool) (c : Control) :
      StepReadsWell (fanTick root now [.mode .smoke 0 flag]) c := by
    apply stepReadsWell_of_plain
    intro cmd inside
    rw [List.mem_singleton.mp inside]
    rfl
  have started := Orderly.init root.toJson some ordered
  have lit := started.move (.step (fanTick root 1 [.mode .smoke 0 false])) one_pos zero_le_one
    (plain 1 false _)
  exact lit.move (.step (fanTick root 2 [.mode .smoke 0 true])) two_pos one_le_two
    (plain 2 true _)

end PiFire
