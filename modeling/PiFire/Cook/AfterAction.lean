import Mathlib.Data.List.Induction
import PiFire.Runner.Sound

/-!
# After-actions

A target that is met and a timer that runs out may ask for the grill to be kept
warm or shut down. The targets and the timer of a tick all write the one slot
the control loop reads, the later over the earlier, and the loop empties it
whether or not the mode lets it act. This file says when every action that is
asked for is carried out all the same.
-/

namespace PiFire

open Transition

/-- Whether a target is met by this tick's reading. -/
def NotifyProbe.completes (estimates : RestEstimates) (s : Sensors) (p : NotifyProbe) : Bool :=
  ((probesFind s p.label).bind Reading.temp).any fun t => targetMet t (followRest estimates t p)

/-- Whether the timer has run out. -/
def Timer.completes (now : ℚ) (timer : Timer) : Bool :=
  timer.running && !timer.paused && now ≥ timer.endT

/-- The after-actions of the targets and of the timer that complete in this
tick, in the order they are evaluated. -/
def completions (t : Tick) (c : Control) : List ℤ :=
  let n := notifySync c.sensors c.notify
  (n.probes.filter fun p => p.completes t.services.estimates c.sensors).map NotifyProbe.after ++
    if n.timer.completes t.now then [n.timer.after] else []

/-- The action that is left in the slot: the last one that is one. -/
def lastAsked (t : Tick) (c : Control) : ℤ :=
  lastAction afterNone (completions t c)

section Slot

theorem lastAction_append (pending : ℤ) (first second : List ℤ) :
    lastAction pending (first ++ second) = lastAction (lastAction pending first) second := by
  simp [lastAction, List.foldl_append]

theorem lastAction_ite {α : Type} (pending : ℤ) (asks : α → Bool) (action : α → ℤ)
    (entries : List α) :
    lastAction pending (entries.map fun e => if asks e then action e else afterNone) =
      lastAction pending ((entries.filter asks).map action) := by
  induction entries generalizing pending with
  | nil => rfl
  | cons e entries ih =>
      cases asked : asks e with
      | true =>
          rw [List.filter_cons_of_pos asked, List.map_cons, List.map_cons, if_pos asked]
          exact ih _
      | false =>
          rw [List.filter_cons_of_neg (by simp [asked]), List.map_cons,
            if_neg (by simp [asked])]
          exact ih _

theorem lastAction_mem {asked : List ℤ} (some : ∃ a ∈ asked, a ≠ afterNone) (pending : ℤ) :
    lastAction pending asked ∈ asked ∧ lastAction pending asked = lastAction afterNone asked := by
  induction asked using List.reverseRecOn with
  | nil =>
      obtain ⟨a, inside, -⟩ := some
      cases inside
  | append_singleton asked last ih =>
      have step (before : ℤ) :
          lastAction before (asked ++ [last]) =
            if last ≠ afterNone then last else lastAction before asked := by
        rw [lastAction_append]
        rfl
      rw [step, step]
      by_cases acts : last ≠ afterNone
      · rw [if_pos acts, if_pos acts]
        exact ⟨List.mem_append_right _ (List.mem_singleton_self last), rfl⟩
      · rw [if_neg acts, if_neg acts]
        obtain ⟨a, inside, nonzero⟩ := some
        have earlier : a ∈ asked := by
          rcases List.mem_append.mp inside with before | same
          · exact before
          · rw [List.mem_singleton.mp same] at nonzero
            exact absurd nonzero acts
        obtain ⟨among, same⟩ := ih ⟨a, earlier, nonzero⟩
        exact ⟨List.mem_append_left _ among, same⟩

theorem tickProbe_snd (estimates : RestEstimates) (s : Sensors) (cooking : Bool) (units : Units)
    (p : NotifyProbe) :
    (tickProbe estimates s cooking units p).2 =
      if p.completes estimates s then p.after else afterNone := by
  have kept (t : ℚ) : (followRest estimates t p).after = p.after := by
    unfold followRest
    split <;> rfl
  unfold tickProbe NotifyProbe.completes
  cases (probesFind s p.label).bind Reading.temp with
  | none => rfl
  | some t => simp only [Option.any_some, kept]

theorem tickNotify_pendingAction (t : Tick) (c : Control) :
    (tickNotify t c).pendingAction = lastAction c.notify.pendingAction (completions t c) := by
  have timer (pending : ℤ) (expired : Bool) (after : ℤ) :
      lastAction pending [if expired then after else afterNone] =
        lastAction pending (if expired then [after] else []) := by
    cases expired <;> rfl
  simp only [tickNotify, notifyTick, List.map_map, Function.comp_def, tickProbe_snd]
  rw [lastAction_append, lastAction_ite, timer, ← lastAction_append]
  rfl

end Slot

/-- The grill is kept warm. -/
def KeepsWarm (c : Control) : Prop :=
  c.mode = .hold ∧ c.setpointC = c.cfg.keepwarmC ∧ c.sPlus = c.cfg.keepwarmSplus

/-- Every action a tick asks for is carried out, or waits in the slot; a shutdown
goes before keeping warm. -/
def CarriesOut (t : Tick) (c : Control) : Prop :=
  let after := runNotify t c
  (afterShutdown ∈ completions t c →
    after.mode = .shutdown ∨ after.notify.pendingAction = afterShutdown) ∧
  (afterKeepwarm ∈ completions t c → afterShutdown ∉ completions t c →
    KeepsWarm after ∨ after.notify.pendingAction = afterKeepwarm)

/-- A shutdown is asked for last and of a fire, or of a grill that is shutting
down; keeping warm is asked for last and of a cook, or of one that is kept warm. -/
def ActionFits (t : Tick) (c : Control) : Prop :=
  (afterShutdown ∈ completions t c →
    c.mode = .shutdown ∨ (c.mode.isFiring = true ∧ lastAsked t c = afterShutdown)) ∧
  (afterKeepwarm ∈ completions t c → afterShutdown ∉ completions t c →
    KeepsWarm c ∨ (c.mode.isRunning = true ∧ lastAsked t c = afterKeepwarm))

section Carry

variable {t : Tick} {c : Control}

theorem enterMode_notify (t : Tick) (m : Mode) (c : Control) :
    (enterMode t m c).notify = c.notify := by
  refine (congrArg Books.notify (booksOf_enterMode t c m)).trans ?_
  cases m <;> rfl

theorem switchForStep_notify (t : Tick) (stepMode : Mode) (c : Control) :
    (switchForStep t stepMode c).notify = c.notify := by
  cases stepMode with
  | startup =>
      simp only [switchForStep]
      split
      · rfl
      · exact enterMode_notify t .startup _
  | smoke | hold =>
      simp only [switchForStep]
      split
      · exact enterMode_notify t .startup _
      · split
        · rfl
        · split
          · exact enterMode_notify t _ c
          · rfl
  | shutdown => exact enterMode_notify t .shutdown c
  | stop => exact enterMode_notify t .stop c
  | monitor | prime | reignite | manual | error => rfl

theorem recipeFinishNow_notify (t : Tick) (c : Control) :
    (recipeFinishNow t c).notify = c.notify := by
  unfold recipeFinishNow
  split
  · exact enterMode_notify t .shutdown _
  · simp only [recipeBeginStep]
    split
    · rfl
    · rw [startStep, switchForStep_notify]

theorem runNotify_pendingAction (t : Tick) (c : Control) :
    (runNotify t c).notify.pendingAction = afterNone := by
  have acted (act : ℤ) (c : Control) : (afterAction t act c).notify = c.notify := by
    simp only [afterAction]
    split
    · split
      · exact recipeFinishNow_notify t c
      · exact enterMode_notify t .shutdown c
    · split
      · split
        · rfl
        · exact enterMode_notify t .hold _
      · rfl
  rw [runNotify, acted]

theorem enterHold_sPlus (t : Tick) (c : Control) :
    (enterMode t .hold c).sPlus = c.sPlus ∧ (enterMode t .hold c).cfg = c.cfg := by
  have fanned (pct : ℤ) (c : Control) : (fanOn pct c).sPlus = c.sPlus := by
    simp only [fanOn]
    split <;> rfl
  have left : (leaveMode t .hold c).sPlus = c.sPlus := by
    simp only [leaveMode]
    split <;> rfl
  constructor
  · have set (cycle : Cycle) (c : Control) :
        (setOutput .auger true (applyCycle cycle c)).sPlus = c.sPlus := rfl
    have powered (c : Control) :
        (setOutput .power true (onRunEnter t c.mode c)).sPlus = c.sPlus := rfl
    rw [enterMode, setupHold, set, fanned]
    exact left
  · exact congrArg Relay.cfg (relayOf_enterMode_plain t .hold c (by decide))

theorem afterAction_spec (t : Tick) (act : ℤ) (c : Control) :
    (act = afterShutdown → c.mode.isFiring = true → (afterAction t act c).mode = .shutdown) ∧
      (act = afterKeepwarm → c.mode.isRunning = true → KeepsWarm (afterAction t act c)) ∧
      (¬(act = afterShutdown ∧ c.mode.isFiring = true) →
        ¬(act = afterKeepwarm ∧ c.mode.isRunning = true) → afterAction t act c = c) := by
  refine ⟨?_, ?_, ?_⟩
  · intro shuts firing
    rw [afterAction, if_pos ⟨shuts, firing⟩]
    split
    · exact congrArg Relay.mode (passes_recipeFinishNow t c).core
    · exact enterMode_mode t .shutdown c
  · rintro rfl running
    have notShut : ¬(afterKeepwarm = afterShutdown ∧ c.mode.isFiring = true) := by
      rintro ⟨same, -⟩
      cases same
    rw [afterAction, if_neg notShut, if_pos ⟨rfl, running⟩]
    simp only
    split
    · next holding => exact ⟨holding, rfl, rfl⟩
    · generalize warmed : { c with
        setpointC := c.cfg.keepwarmC, sPlus := c.cfg.keepwarmSplus, targetReached := false } = warm
      obtain ⟨sPlus, cfg⟩ := enterHold_sPlus t warm
      have core := relayOf_enterMode_plain t .hold warm (by decide)
      have setpointC : (enterMode t .hold warm).setpointC = warm.setpointC :=
        congrArg Relay.setpointC core
      refine ⟨enterMode_mode t .hold warm, ?_, ?_⟩
      · rw [setpointC, cfg, ← warmed]
      · rw [sPlus, cfg, ← warmed]
  · intro notShut notWarm
    rw [afterAction, if_neg notShut, if_neg notWarm]

theorem afterAction_shutdown_iff {act : ℤ} :
    (afterAction t act c).mode = .shutdown ↔
      c.mode = .shutdown ∨ (c.mode.isFiring = true ∧ act = afterShutdown) := by
  obtain ⟨shuts, warms, stays⟩ := afterAction_spec t act c
  by_cases shut : act = afterShutdown ∧ c.mode.isFiring = true
  · exact iff_of_true (shuts shut.1 shut.2) (Or.inr ⟨shut.2, shut.1⟩)
  by_cases warm : act = afterKeepwarm ∧ c.mode.isRunning = true
  · have holds := (warms warm.1 warm.2).1
    apply iff_of_false
    · rw [holds]
      decide
    · rintro (isOver | ⟨firing, same⟩)
      · rw [isOver] at warm
        cases warm.2
      · exact shut ⟨same, firing⟩
  · rw [stays shut warm]
    constructor
    · exact Or.inl
    · rintro (isOver | ⟨firing, same⟩)
      · exact isOver
      · exact absurd ⟨same, firing⟩ shut

theorem afterAction_keepsWarm_iff {act : ℤ} (notShut : act ≠ afterShutdown) :
    KeepsWarm (afterAction t act c) ↔
      KeepsWarm c ∨ (c.mode.isRunning = true ∧ act = afterKeepwarm) := by
  obtain ⟨-, warms, stays⟩ := afterAction_spec t act c
  by_cases warm : act = afterKeepwarm ∧ c.mode.isRunning = true
  · exact iff_of_true (warms warm.1 warm.2) (Or.inr ⟨warm.2, warm.1⟩)
  · rw [stays (fun shut => notShut shut.1) warm]
    constructor
    · exact Or.inl
    · rintro (kept | ⟨running, same⟩)
      · exact kept
      · exact absurd ⟨same, running⟩ warm

theorem carriesOut_iff : CarriesOut t c ↔ ActionFits t c := by
  have emptied := runNotify_pendingAction t c
  have slot {a : ℤ} (inside : a ∈ completions t c) (acts : a ≠ afterNone) :
      (tickNotify t c).pendingAction ∈ completions t c ∧
        (tickNotify t c).pendingAction = lastAsked t c := by
    rw [tickNotify_pendingAction]
    exact lastAction_mem ⟨a, inside, acts⟩ _
  unfold CarriesOut ActionFits
  simp only [emptied]
  refine and_congr ?_ ?_
  · apply imp_congr_right
    intro shuts
    obtain ⟨-, last⟩ := slot shuts (by decide)
    rw [or_iff_left (by decide), runNotify, afterAction_shutdown_iff, last]
  · apply imp_congr_right
    intro warms
    apply imp_congr_right
    intro notShut
    obtain ⟨among, last⟩ := slot warms (by decide)
    have other : (tickNotify t c).pendingAction ≠ afterShutdown := by
      intro same
      rw [same] at among
      exact notShut among
    rw [or_iff_left (by decide), runNotify, afterAction_keepsWarm_iff other, last]
    rfl

end Carry

/-- Every tick carries out what it asks for. -/
def Doing.CarriesOut : Doing → Control → Prop
  | .move (.step t), c =>
      Along (Phase.act t) (fun p c => p = .notify → PiFire.CarriesOut t c) (phases t) c
  | _, _ => True

/-- What every tick asks for fits the grill it is asked of. -/
def Doing.ActionFits : Doing → Control → Prop
  | .move (.step t), c =>
      Along (Phase.act t) (fun p c => p = .notify → PiFire.ActionFits t c) (phases t) c
  | _, _ => True

/-- No after-action is lost in exactly the lives in which the last one of every
tick is the one to be carried out, and the grill is in a mode for it. -/
theorem after_actions_carried_iff (settings : Json) (loadController : String → Option String)
    (doings : List Doing) :
    Along Doing.act Doing.CarriesOut doings (controlInit settings loadController) ↔
      Along Doing.act Doing.ActionFits doings (controlInit settings loadController) := by
  apply along_congr
  intro d c _
  cases d with
  | keepCheckpoint => exact Iff.rfl
  | move m =>
      cases m with
      | step t => exact along_congr fun p c _ => imp_congr_right fun _ => carriesOut_iff
      | reload | resume | recover | bootCheck => exact Iff.rfl

/-- A tick on the bench with two food probes that read the same. -/
def benchFood (now food : ℚ) (cmds : List Cmd) : Tick :=
  let probe (label : String) : Reading :=
    { label := label, role := .food, enabled := true, ambient := false, inUse := true
      temp := some food }
  let bench := benchTick [] now (some 100) cmds
  { bench with
    sensors := { bench.sensors with
      readings := bench.sensors.readings ++ [probe "point", probe "flat"] } }

/-- A Hold cook on the bench with a target on each probe: the first one shuts the
grill down, the second one keeps it warm. -/
def benchTargets : List Doing :=
  [ .move (.step (benchFood 1 20 [.mode .startup 0 false])),
    .move (.step (benchFood 2 20
      [ .mode .hold 200 true,
        .notifyTarget "point" 150 0 afterShutdown false "" "",
        .notifyTarget "flat" 150 0 afterKeepwarm false "" "" ])) ]

/-- The step in which both targets are met. -/
def benchMet : Tick := benchFood 3 100 []

/-- Both targets are met in one tick, and the grill is kept warm. -/
theorem shutdown_overwritten :
    ¬∀ (settings : Json) (loadController : String → Option String) (doings : List Doing),
      Along Doing.act Doing.CarriesOut doings (controlInit settings loadController) := by
  intro carried
  have life := carried (.obj []) some (benchTargets ++ [.move (.step benchMet)])
  have met : Along (Phase.act benchMet) (fun p c => p = .notify → CarriesOut benchMet c)
      (phases benchMet) (run Doing.act benchTargets benchInit) := (along_append.mp life).2.1
  have split : phases benchMet =
      [.begin, .read, .request, .idleHeat, .clampSp] ++ .notify ::
        ([.recipe, .aftercare] ++ .supervise :: closePhases) := rfl
  rw [split] at met
  obtain ⟨shuts, -⟩ := (along_append.mp met).2.1 rfl
  have after := shuts (by decide +kernel)
  revert after
  decide +kernel

end PiFire
