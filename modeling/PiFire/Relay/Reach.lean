import PiFire.Relay.Switch

/-!
# The core over the life of the daemon

The moves of a start enter a mode and do nothing else to the core, so what holds
of the core of every reachable state follows from what the phases of a step, the
entries and the limits preserve.
-/

namespace PiFire

open Transition

/-- What a warm restart enters. -/
def resumeEntry (t : Tick) (o : Json) (c : Control) : Option Entry :=
  (resumedMode t o c).map .plain

/-- What a recovery enters. -/
def recoverEntry (b : Boot) (o : Json) (c : Control) : Option Entry :=
  (recoveredMode b o c).map fun m =>
    if tuningInterrupted b o m then .plain .shutdown
    else
      match refusal b o m c with
      | some _ => .plain .error
      | none => .plain (if m = .startup then .startup else .reignite)

/-- What a start that picks no cook up enters. -/
def bootEntry (resuming : Bool) (c : Control) : Option Entry :=
  if resuming = false ∧ readsAbove c.validPit c.cfg.restartHotC then some (.plain .shutdown)
  else none

/-- The set point a snapshot gives. -/
def snapshotAim (o : Json) (c : Control) : ℚ :=
  let sp := jsonNum o ["setpoint_c"] 0
  if sp > 0 then sp else c.setpointC

section Start

variable (t : Tick) (b : Boot) (o : Json) (c : Control)

theorem relayOf_restoreRecipe : relayOf (restoreRecipe t o c) = relayOf c := by
  unfold restoreRecipe
  split
  · rfl
  · simp only
    split
    · split <;> rfl
    · rfl

theorem relayOf_restoreSafety : relayOf (restoreSafety t o c) = relayOf c := by
  have restored (s : Safety) (since : s.igniterOnSince = c.safety.igniterOnSince)
      (locked : s.igniterLockedOut = c.safety.igniterLockedOut) :
      relayOf { c with safety := s } = relayOf c := by
    simp only [relayOf, since, locked]
  unfold restoreSafety
  split
  · exact restored _ rfl rfl
  · split
    · exact restored _ rfl rfl
    · exact restored _ rfl rfl

theorem relayOf_restoreFeed : relayOf (restoreFeed o c) = relayOf c := by
  unfold restoreFeed
  extract_lets u
  split <;> rfl

theorem relayOf_controlResume :
    relayOf (controlResume t o c).1 =
      match resumedMode t o c with
      | none => relayOf c
      | some m => ((relayOf c).aimAt (snapshotAim o c)).enter t.now (.plain m) := by
  unfold controlResume
  cases resumed : resumedMode t o c with
  | none => rfl
  | some m =>
      have notPrime : m ≠ .prime := by
        have accepted := (Option.filter_eq_some_iff.mp resumed).2
        intro same
        simp [same, resumable, Mode.isFiring] at accepted
      have notified (c : Control) : relayOf (restoreNotify t o c) = relayOf c := rfl
      have booked (c : Control) : relayOf (restoreBooks t o c) = relayOf c := rfl
      have aimed : relayOf (restoreAim o c) = (relayOf c).aimAt (snapshotAim o c) := rfl
      simp only
      rw [notified, relayOf_restoreFeed, relayOf_restoreSafety, relayOf_restoreRecipe, booked,
        relayOf_enterMode_plain t m _ notPrime, aimed]

theorem relayOf_relight (m : Mode) :
    relayOf (relight b o m c) =
      ((relayOf c).aimAt (snapshotAim o c)).enter b.tick.now
        (.plain (if m = .startup then .startup else .reignite)) := by
  have total (c : Control) : relayOf (restoreTotals o c) = relayOf c := rfl
  have counted : relayOf (countRecovery o c) = (relayOf c).aimAt (snapshotAim o c) := rfl
  rw [relight, total, enterLight]
  by_cases cold : m = .startup
  · rw [if_pos cold, if_pos cold, relayOf_enterMode_plain b.tick .startup _ (by decide), ← counted]
    rfl
  · rw [if_neg cold, if_neg cold, relayOf_enterMode_plain b.tick .reignite _ (by decide),
      ← counted]
    rfl

theorem relayOf_controlRecover :
    ∃ sp, relayOf (controlRecover b o c).1 =
      ((relayOf c).aimAt sp).enterIf b.tick.now (recoverEntry b o c) := by
  unfold controlRecover recoverEntry
  cases recoveredMode b o c with
  | none => exact ⟨c.setpointC, rfl⟩
  | some m =>
      simp only [Option.map_some, Relay.enterIf_some]
      split
      · exact ⟨c.setpointC, relayOf_enterMode_plain b.tick .shutdown c (by decide)⟩
      · cases refusal b o m c with
        | some why => exact ⟨c.setpointC, relayOf_enterMode_plain b.tick .error _ (by decide)⟩
        | none => exact ⟨snapshotAim o c, relayOf_relight b o c m⟩

theorem relayOf_controlBootCheck (resuming : Bool) :
    relayOf (controlBootCheck t resuming c) =
      (relayOf c).enterIf t.now (bootEntry resuming c) := by
  unfold controlBootCheck bootEntry
  cases resuming with
  | true => rfl
  | false =>
      simp only [Bool.false_eq_true, if_false, true_and]
      split
      · exact relayOf_enterMode_plain t .shutdown c (by decide)
      · rfl

end Start

/-- A property of the core and the time that the effects of a phase, an entry, a
set point and other limits preserve. -/
structure CoreInvariant (property : ℚ → Relay → Prop) : Prop where
  later : ∀ {time now : ℚ} {r : Relay}, time ≤ now → property time r → property now r
  effect : ∀ (t : Tick) (p : Phase) (c : Control) (r : Relay), 0 < t.now →
    property t.now (relayOf c) → Effect t p c r → property t.now r
  enter : ∀ (now : ℚ) (e : Entry) (r : Relay), 0 < now → property now r →
    property now (r.enter now e)
  aimAt : ∀ (now sp : ℚ) (r : Relay), property now r → property now (r.aimAt sp)
  limits : ∀ (now : ℚ) (cfg : Cfg) (r : Relay), property now r →
    property now { r with cfg := cfg }

section Invariant

variable {property : ℚ → Relay → Prop} (invariant : CoreInvariant property)

include invariant

theorem CoreInvariant.enterIf {now : ℚ} {e : Option Entry} {r : Relay} (positive : 0 < now)
    (holds : property now r) : property now (r.enterIf now e) := by
  cases e with
  | none => exact holds
  | some e => exact invariant.enter now e r positive holds

theorem CoreInvariant.step {t : Tick} {c : Control} (positive : 0 < t.now)
    (holds : property t.now (relayOf c)) : property t.now (relayOf (controlStep t c)) :=
  controlStep_invariant (fun c => property t.now (relayOf c))
    (fun p c holds => invariant.effect t p c _ positive holds (effect_act t p c)) holds

theorem CoreInvariant.move {m : Move} {c : Control} (positive : 0 < m.tick.now)
    (holds : property m.tick.now (relayOf c)) :
    property m.tick.now (relayOf (m.act c)) := by
  cases m with
  | step t => exact invariant.step positive holds
  | reload t =>
      exact invariant.effect t (.command .settingsChanged) c _ positive holds
        (effect_handleCmd t c .settingsChanged)
  | resume t o =>
      rw [Move.act, relayOf_controlResume]
      split
      · exact holds
      · exact invariant.enter _ _ _ positive (invariant.aimAt _ _ _ holds)
  | recover b o =>
      obtain ⟨sp, recovered⟩ := relayOf_controlRecover b o c
      rw [Move.act, recovered]
      exact invariant.enterIf positive (invariant.aimAt _ _ _ holds)
  | bootCheck t resuming =>
      rw [Move.act, relayOf_controlBootCheck]
      exact invariant.enterIf positive holds

theorem CoreInvariant.reachable
    (init : ∀ settings loadController,
      property 0 (relayOf (controlInit settings loadController)))
    {time : ℚ} {c : Control} (reached : Reachable time c) : property time (relayOf c) := by
  induction reached with
  | init settings loadController => exact init settings loadController
  | checkpoint _ before => exact before
  | move _ m started after before =>
      exact invariant.move started (invariant.later after before)

end Invariant

/-- The limits after a command. -/
def cmdCfg (t : Tick) (cfg : Cfg) : Cmd → Cfg
  | .settingsChanged | .controllerChanged =>
      loadCfg (cfg.ssProf.headD { augerontime := 0, pMode := 0 }) t.settings
  | _ => cfg

theorem handleCmd_cfg (t : Tick) (c : Control) (cmd : Cmd) :
    (handleCmd t c cmd).cfg = cmdCfg t c.cfg cmd := by
  by_cases direct : cmd.isDirect = true
  · cases cmd with
    | manualOutput str on num =>
        have core := congrArg Relay.cfg (relayOf_manualOutput t c str on num)
        refine core.trans ?_
        split
        · next o _ =>
            split
            · cases o <;> rfl
            · rfl
        · rfl
    | lidToggle =>
        rcases relayOf_lidToggle t c with same | off
        · exact congrArg Relay.cfg same
        · exact congrArg Relay.cfg off
    | settingsChanged =>
        simp only [handleCmd, controlReloadSettings]
        split <;> rfl
    | controllerChanged => rfl
    | _ => cases direct
  · have core := congrArg Relay.cfg (relayOf_handleCmd t c cmd (by simpa using direct))
    have kept : (handleCmd t c cmd).cfg = c.cfg := by
      refine core.trans ?_
      cases cmdEntry t c cmd <;> rfl
    rw [kept]
    cases cmd <;> first | rfl | exact absurd rfl direct

section Limits

variable (property : Cfg → Prop) (loaded : ∀ before r, property (loadCfg before r))

include loaded

theorem act_loaded (t : Tick) (p : Phase) {c : Control} (holds : property c.cfg) :
    property (p.act t c).cfg := by
  by_cases isCommand : ∃ cmd, p = .command cmd
  · obtain ⟨cmd, rfl⟩ := isCommand
    rw [Phase.act, handleCmd_cfg]
    unfold cmdCfg
    split
    · exact loaded _ _
    · exact loaded _ _
    · exact holds
  · rw [act_cfg t p c fun cmd same => isCommand ⟨cmd, same⟩]
    exact holds

theorem move_loaded (m : Move) {c : Control} (holds : property c.cfg) :
    property (m.act c).cfg := by
  change property (relayOf (m.act c)).cfg
  cases m with
  | step t =>
      exact controlStep_invariant (fun c => property c.cfg)
        (fun p _ holds => act_loaded property loaded t p holds) holds
  | reload t => exact act_loaded property loaded t (.command .settingsChanged) holds
  | resume t o =>
      rw [Move.act, relayOf_controlResume]
      split
      · exact holds
      · exact holds
  | recover b o =>
      obtain ⟨sp, recovered⟩ := relayOf_controlRecover b o c
      rw [Move.act, recovered]
      cases recoverEntry b o c <;> exact holds
  | bootCheck t resuming =>
      rw [Move.act, relayOf_controlBootCheck]
      cases bootEntry resuming c <;> exact holds

theorem Reachable.limits {time : ℚ} {c : Control} (reached : Reachable time c) :
    property c.cfg := by
  apply reached.invariant
  · intro settings loadController
    exact loaded _ settings
  · intro c holds
    exact holds
  · intro m c holds
    exact move_loaded property loaded m holds

end Limits

theorem run_req {t : Tick} {ps : List Phase}
    (quiet : ∀ p ∈ ps, (∀ cmd, p ≠ .command cmd) ∧ p ≠ .request) (c : Control) :
    (run (Phase.act t) ps c).req = c.req := by
  induction ps generalizing c with
  | nil => rfl
  | cons p ps ih =>
      have here := quiet p List.mem_cons_self
      rw [run_cons, ih fun q inside => quiet q (List.mem_cons_of_mem p inside),
        act_req]
      unfold phaseReq
      split
      · next cmd => exact absurd rfl (here.1 cmd)
      · exact absurd rfl here.2
      · rfl

theorem controlStep_req (t : Tick) (c : Control) : (controlStep t c).req = none := by
  have split : phases t = (drainPhases t ++ [.read, .request]) ++
      ([.idleHeat, .clampSp, .notify, .recipe, .aftercare, .supervise] ++ closePhases) := by
    simp [phases, cookPhases, closePhases]
  rw [controlStep_eq_run, split, run_append, run_req, run_append, run_cons, run_cons, run_nil,
    act_req]
  · rfl
  · simp [closePhases]

theorem Reachable.req_none {time : ℚ} {c : Control} (reached : Reachable time c) :
    c.req = none := by
  apply reached.invariant
  · intro settings loadController
    rfl
  · intro c empty
    exact empty
  · intro m c empty
    change (relayOf (m.act c)).req = none
    cases m with
    | step t => exact controlStep_req t c
    | reload t => exact (act_req t (.command .settingsChanged) c).trans empty
    | resume t o =>
        rw [Move.act, relayOf_controlResume]
        split
        · exact empty
        · exact empty
    | recover b o =>
        obtain ⟨sp, recovered⟩ := relayOf_controlRecover b o c
        rw [Move.act, recovered]
        cases recoverEntry b o c <;> exact empty
    | bootCheck t resuming =>
        rw [Move.act, relayOf_controlBootCheck]
        cases bootEntry resuming c <;> exact empty

end PiFire
