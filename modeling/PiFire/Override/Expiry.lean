import PiFire.Override.Cook
import PiFire.Override.Stamps

/-!
# The end of an override

A run with manual commands is compared with the run without them. Both cook the
same way. Once the overrides have run out, the auger follows its cycle again and
the fan of Smoke and Hold its own logic, as if no command had been given; the
cap on the auger and its rest are about how long it really ran, and the phases
of Smoke Plus and of the fan's modulation begin again from where the hand left
the fan.
-/

namespace PiFire

open Transition

/-! ## The run without the manual commands -/

/-- The input without its manual commands. -/
def Tick.unhanded (t : Tick) : Tick :=
  { t with cmds := t.cmds.filter fun cmd => !cmd.isManual }

section Unhanded

variable (t : Tick) (c : Control)

theorem phases_unhanded : phases t.unhanded = (phases t).filter fun p => !p.isManual := by
  have commands (cmds : List Cmd) :
      (cmds.filter fun cmd => !cmd.isManual).map Phase.command =
        (cmds.map Phase.command).filter fun p => !p.isManual := by
    rw [List.filter_map]
    rfl
  rw [phases, phases, drainPhases, drainPhases, List.filter_append, Tick.unhanded, commands]
  rfl

theorem act_unhanded (p : Phase) : p.act t.unhanded c = p.act t c := by
  cases p with
  | command cmd => cases cmd <;> rfl
  | _ => rfl

theorem run_unhanded (ps : List Phase) :
    run (Phase.act t.unhanded) ps c = run (Phase.act t) ps c := by
  induction ps generalizing c with
  | nil => simp only [run_nil]
  | cons p ps ih =>
      simp only [run_cons, act_unhanded]
      exact ih _

theorem cookOf_act_manual {p : Phase} (manual : p.isManual = true) :
    cookOf (p.act t c) = cookOf c := by
  cases p with
  | command cmd =>
      cases cmd with
      | manualOutput str on num => exact cookOf_manualOutput t c str on num
      | _ => cases manual
  | _ => cases manual

theorem nextCycle_unhanded : nextCycle t.unhanded c = nextCycle t c := rfl

theorem timedTransition_unhanded : timedTransition t.unhanded c = timedTransition t c :=
  act_unhanded t c .timed

theorem inputEntry_unhanded : inputEntry t.unhanded c = inputEntry t c := rfl

theorem timedEntry_unhanded : timedEntry t.unhanded c = timedEntry t c := rfl

theorem feedAuger_unhanded : feedAuger t.unhanded c = feedAuger t c :=
  act_unhanded t c .feed

theorem cookOf_run_phases (ps : List Phase) {c d : Control} (same : cookOf c = cookOf d) :
    cookOf (run (Phase.act t) ps c) =
      cookOf (run (Phase.act t.unhanded) (ps.filter fun p => !p.isManual) d) := by
  rw [run_unhanded]
  exact erase_run_filter Phase.isManual (fun p manual c => cookOf_act_manual t c manual)
    (byCook_act t) ps same

theorem cookOf_controlStep {c d : Control} (same : cookOf c = cookOf d) :
    cookOf (controlStep t c) = cookOf (controlStep t.unhanded d) := by
  rw [controlStep_eq_run, controlStep_eq_run, phases_unhanded]
  exact cookOf_run_phases t (phases t) same

theorem cookOf_run (ticks : List Tick) {c d : Control} (same : cookOf c = cookOf d) :
    cookOf (run controlStep ticks c) = cookOf (run controlStep (ticks.map Tick.unhanded) d) :=
  erase_run_map Tick.unhanded (fun t _ _ same => cookOf_controlStep t same) ticks same

theorem ripeStep_unhanded (deadline : ℚ) : RipeStep deadline t.unhanded c := by
  rw [RipeStep, phases_unhanded]
  apply along_of_forall
  intro p inside c manual
  have notManual := (List.mem_filter.mp inside).2
  simp [manual] at notManual

end Unhanded

/-! ## The auger at the end of a step -/

/-- The phases of a step before the auger is fed. -/
def leadPhases (t : Tick) : List Phase :=
  drainPhases t ++ (cookPhases ++ [.supervise, .lid])

/-- The state in which a step feeds the auger. -/
def fedIn (t : Tick) (c : Control) : Control :=
  run (Phase.act t) (leadPhases t) c

/-- The state in which a step runs the fan. -/
def fanIn (t : Tick) (c : Control) : Control :=
  feedAuger t (fedIn t c)

/-- The state in which a step lets time and the physical input act. -/
def timedIn (t : Tick) (c : Control) : Control :=
  expireManual t (runFan t (fanIn t c))

/-- What the end of a step enters. -/
def endEntry (t : Tick) (c : Control) : Option Entry :=
  (inputEntry t (timedTransition t c)).or (timedEntry t c)

/-- Whether the mode drives the auger in this state. -/
def drivesAuger (t : Tick) (c : Control) : Bool :=
  cycleRuns c && cycleAugerOn (nextCycle t c).cycle t.now

section Auger

variable (t : Tick) (c : Control)

theorem phases_eq_lead :
    phases t = leadPhases t ++ [.feed, .fan, .expire, .timed, .input, .checkpoint, .close] := by
  simp [phases, leadPhases, closePhases]

theorem controlStep_eq_timedIn :
    controlStep t c =
      endStep t (checkpoint t (shutdownInput t (timedTransition t (timedIn t c)))) := by
  rw [controlStep_eq_run, phases_eq_lead, run_append]
  rfl

theorem cookOf_fedIn {c d : Control} (same : cookOf c = cookOf d) :
    cookOf (fedIn t c) = cookOf (fedIn t.unhanded d) := by
  have lead : leadPhases t.unhanded = (leadPhases t).filter fun p => !p.isManual := by
    have whole := phases_unhanded t
    rw [phases_eq_lead, phases_eq_lead, List.filter_append] at whole
    exact List.append_cancel_right whole
  rw [fedIn, fedIn, lead]
  exact cookOf_run_phases t (leadPhases t) same

theorem drivesAuger_cook {c d : Control} (same : cookOf c = cookOf d) :
    drivesAuger t c = drivesAuger t.unhanded d := by
  have runs (c : Control) : cycleRuns (cookOf c) = cycleRuns c := rfl
  have cycle (c : Control) : (cookOf c).cycle = c.cycle := rfl
  rw [drivesAuger, drivesAuger, nextCycle_unhanded, ← runs c, same, runs d,
    ← cycle (nextCycle t c), (byCook_nextCycle t).congr same, cycle]
  rfl

theorem driveCycle_auger (isOver : c.manualUntil.auger ≤ t.now)
    (overNext : (nextCycle t c).manualUntil.auger ≤ t.now) (notManual : c.mode ≠ .manual) :
    (driveCycle t c).outputs.auger =
      (drivesAuger t c && (c.outputs.auger || decide (c.augerRestUntil ≤ t.now))) := by
  have core := relayOf_nextCycle t c
  have auger : (nextCycle t c).outputs.auger = c.outputs.auger := congrArg Relay.auger core
  have rest : (nextCycle t c).augerRestUntil = c.augerRestUntil :=
    congrArg Relay.augerRestUntil core
  unfold driveCycle drivesAuger
  by_cases runs : cycleRuns c = true
  · rw [if_pos runs, runs, Bool.true_and]
    simp only [followCycle, if_pos overNext, auger, rest, ge_iff_le]
    cases want : cycleAugerOn (nextCycle t c).cycle t.now with
    | false =>
        cases on : c.outputs.auger with
        | false => simp [auger, on]
        | true => simp [bookAuger, setOutput]
    | true =>
        by_cases rested : c.augerRestUntil ≤ t.now
        · cases on : c.outputs.auger with
          | false => simp [rested, setOutput]
          | true => simp [auger, on]
        · simp [rested, auger]
  · have idle : cycleRuns c = false := by simpa using runs
    rw [if_neg runs, idle, Bool.false_and, parkAuger]
    cases on : c.outputs.auger with
    | false => simp [on]
    | true => simp [notManual, isOver, setOutput]

theorem Relay.rest_cap_auger {now : ℚ} (r : Relay) {want was : Bool}
    (driven : r.auger = (want && (was || decide (r.augerRestUntil ≤ now)))) :
    ((r.rest now).cap now).auger =
      (want && decide (((r.rest now).cap now).augerRestUntil ≤ now)) := by
  have later : ¬now + augerRestS ≤ now := by norm_num [augerRestS]
  by_cases rested : r.augerRestUntil ≤ now
  · have here : r.auger = want := by rw [driven, decide_eq_true rested, Bool.or_true, Bool.and_true]
    have unrested : r.rest now = r := if_neg fun resting => not_lt.mpr rested resting.1
    rw [unrested, Relay.cap]
    split
    · simp [later]
    · simp [here, rested]
  · have resting : now < r.augerRestUntil := not_le.mp rested
    have parked : (r.rest now).auger = false := by
      unfold Relay.rest
      by_cases on : r.auger = true
      · rw [if_pos ⟨resting, on⟩]
      · rw [if_neg fun both => on both.2]
        simpa using on
    have still : (r.rest now).augerRestUntil = r.augerRestUntil := by
      unfold Relay.rest
      split <;> rfl
    have uncapped : (r.rest now).cap now = r.rest now :=
      if_neg fun on => by simp [parked] at on
    rw [uncapped, parked, still, decide_eq_false rested, Bool.and_false]

theorem feedAuger_auger (isOver : c.manualUntil.auger ≤ t.now)
    (overNext : (nextCycle t c).manualUntil.auger ≤ t.now) (notManual : c.mode ≠ .manual) :
    (feedAuger t c).outputs.auger =
      (drivesAuger t c && decide ((feedAuger t c).augerRestUntil ≤ t.now)) := by
  have rest : (driveCycle t c).augerRestUntil = c.augerRestUntil := by
    rcases relayOf_driveCycle t c with same | same | ⟨same, -⟩
    all_goals exact congrArg Relay.augerRestUntil same
  have driven := driveCycle_auger t c isOver overNext notManual
  rw [← rest] at driven
  have fed := Relay.rest_cap_auger (relayOf (driveCycle t c)) driven
  rw [← relayOf_feedAuger] at fed
  exact fed

theorem end_auger (errorOff : c.mode = .error → c.outputs.auger = false) :
    (shutdownInput t (timedTransition t c)).outputs.auger =
        ((endEntry t c).map fun e => e.mode.feeds).getD c.outputs.auger ∧
      (shutdownInput t (timedTransition t c)).mode =
        ((endEntry t c).map Entry.mode).getD c.mode ∧
      (shutdownInput t (timedTransition t c)).augerRestUntil = c.augerRestUntil := by
  have timed : (timedTransition t c).outputs.auger =
        ((timedEntry t c).map fun e => e.mode.feeds).getD c.outputs.auger ∧
      (timedTransition t c).mode = ((timedEntry t c).map Entry.mode).getD c.mode ∧
      (timedTransition t c).augerRestUntil = c.augerRestUntil := by
    change (relayOf (timedTransition t c)).auger = _ ∧ (relayOf (timedTransition t c)).mode = _ ∧
      (relayOf (timedTransition t c)).augerRestUntil = _
    by_cases faulted : c.mode = .error
    · have stays : timedEntry t c = none := by rw [timedEntry, faulted]
      rw [relayOf_timedTransition_error t c faulted, stays]
      rcases relayOf_errorFan t c with same | dark
      · rw [same]
        exact ⟨rfl, rfl, rfl⟩
      · rw [dark]
        exact ⟨(errorOff faulted).symm, rfl, rfl⟩
    · rw [(passes_timedTransition t c faulted).core]
      cases timedEntry t c <;> exact ⟨rfl, rfl, rfl⟩
  have input := (passes_shutdownInput t (timedTransition t c)).core
  change (relayOf (shutdownInput t (timedTransition t c))).auger = _ ∧
    (relayOf (shutdownInput t (timedTransition t c))).mode = _ ∧
    (relayOf (shutdownInput t (timedTransition t c))).augerRestUntil = _
  rw [input, endEntry]
  cases inputEntry t (timedTransition t c) with
  | none => exact timed
  | some e => exact ⟨rfl, rfl, timed.2.2⟩

theorem endEntry_cook {c d : Control} (same : cookOf c = cookOf d) :
    endEntry t c = endEntry t.unhanded d := by
  have timed (c : Control) : timedEntry t (cookOf c) = timedEntry t c := rfl
  have input (c : Control) : inputEntry t (cookOf c) = inputEntry t c := rfl
  rw [endEntry, endEntry, timedTransition_unhanded, inputEntry_unhanded, timedEntry_unhanded,
    ← timed c, ← input (timedTransition t c), same, (byCook_timedTransition t).congr same, timed,
    input]

theorem relayOf_timedIn : relayOf (timedIn t c) = relayOf (fanIn t c) := by
  have expired (c : Control) : relayOf (expireManual t c) = relayOf c := by
    unfold expireManual
    split <;> rfl
  rw [timedIn, expired, relayOf_runFan]

theorem cookOf_timedIn : cookOf (timedIn t c) = cookOf (fanIn t c) := by
  rw [timedIn, cookOf_expireManual, cookOf_runFan]

theorem timedIn_mode : (timedIn t c).mode = (fedIn t c).mode := by
  have fed : (fanIn t c).mode = (fedIn t c).mode := act_mode t .feed (fedIn t c)
  rw [← fed]
  exact congrArg Relay.mode (relayOf_timedIn t c)

variable {t c}

theorem released_fedIn {deadline : ℚ} (nonneg : 0 ≤ deadline) (released : Released deadline c)
    (ripe : RipeStep deadline t c) : Released deadline (fedIn t c) := by
  rw [RipeStep, phases_eq_lead] at ripe
  exact run_preserves (Ripe deadline t) (Released deadline)
    (fun _ _ released ripe => released_act nonneg released ripe) released
    (along_append.mp ripe).1

theorem fanIn_auger (nonneg : 0 ≤ t.now) (released : Released t.now (fedIn t c))
    (busy : outputsFree (fedIn t c).mode = false) :
    (fanIn t c).outputs.auger =
      (drivesAuger t (fedIn t c) && decide ((fanIn t c).augerRestUntil ≤ t.now)) := by
  have next : Released t.now (nextCycle t (fedIn t c)) :=
    released.spares nonneg (spares_nextCycle t (Or.inl rfl))
  have mode : (nextCycle t (fedIn t c)).mode = (fedIn t c).mode :=
    congrArg Relay.mode (relayOf_nextCycle t (fedIn t c))
  have notManual : (fedIn t c).mode ≠ .manual := by
    intro manual
    simp [manual, outputsFree] at busy
  exact feedAuger_auger t (fedIn t c) (released busy .auger) (next (mode ▸ busy) .auger) notManual

theorem controlStep_auger (nonneg : 0 ≤ t.now) (released : Released t.now (fedIn t c))
    (busy : outputsFree (controlStep t c).mode = false) :
    (controlStep t c).outputs.auger =
      ((endEntry t (timedIn t c)).map fun e => e.mode.feeds).getD
        (drivesAuger t (fedIn t c) && decide ((controlStep t c).augerRestUntil ≤ t.now)) := by
  have core := relayOf_timedIn t c
  have auger : (timedIn t c).outputs.auger = (fanIn t c).outputs.auger :=
    congrArg Relay.auger core
  have rest : (timedIn t c).augerRestUntil = (fanIn t c).augerRestUntil :=
    congrArg Relay.augerRestUntil core
  have errorOff : (timedIn t c).mode = .error → (timedIn t c).outputs.auger = false := by
    intro faulted
    rw [timedIn_mode] at faulted
    have idle : cycleRuns (fedIn t c) = false := by
      simp [cycleRuns, faulted, Mode.isFiring]
    rw [auger, fanIn_auger nonneg released (by simp [faulted, outputsFree]), drivesAuger, idle]
    rfl
  obtain ⟨ends, mode, still⟩ := end_auger t (timedIn t c) errorOff
  rw [controlStep_eq_timedIn] at busy ⊢
  have busy : outputsFree (shutdownInput t (timedTransition t (timedIn t c))).mode = false := busy
  change (shutdownInput t (timedTransition t (timedIn t c))).outputs.auger =
    ((endEntry t (timedIn t c)).map fun e => e.mode.feeds).getD (drivesAuger t (fedIn t c) &&
      decide ((shutdownInput t (timedTransition t (timedIn t c))).augerRestUntil ≤ t.now))
  rw [ends, still, rest, auger]
  cases entered : endEntry t (timedIn t c) with
  | some e => rfl
  | none =>
      rw [entered] at mode
      have stayed : (shutdownInput t (timedTransition t (timedIn t c))).mode =
          (fedIn t c).mode := mode.trans (timedIn_mode t c)
      exact fanIn_auger nonneg released (stayed ▸ busy)

end Auger

/-! ## The fan at the end of a step -/

/-- Smoke or Hold runs the fan steadily: no lid, no modulation and no Smoke
Plus has it. -/
def steadyFan (c : Control) : Bool :=
  c.mode.isRunning && !c.lidOpen && !(c.mode == .hold && c.fanPidActive) && !splusPhase c

/-- A variable-speed fan whose duty Hold does not choose by the pit. -/
def fixedDuty (c : Control) : Bool :=
  c.cfg.dcFan && !(c.pwmControl && c.mode == .hold)

section Fan

variable (t : Tick) (c : Control)

theorem fanOn_fan (pct : ℤ) : (fanOn pct c).outputs.fan = true := by
  unfold fanOn
  simp only
  split <;> rfl

theorem smokeCycle_outputs : (smokeCycle t c).outputs = c.outputs := by
  unfold smokeCycle
  simp only
  split <;> rfl

theorem enterMode_fan {m : Mode} (running : m.isRunning) :
    (enterMode t m c).outputs.fan = true := by
  have kept (o : Outputs) : (outputsSet .auger true o).fan = o.fan := rfl
  have on (c : Control) : (setOutput .auger true c).outputs.fan = c.outputs.fan := rfl
  have applied (cycle : Cycle) (c : Control) : (applyCycle cycle c).outputs = c.outputs := rfl
  cases m with
  | smoke => rw [enterMode, setupSmoke, on, smokeCycle_outputs, fanOn_fan]
  | hold => rw [enterMode, setupHold, on, applied, fanOn_fan]
  | stop | monitor | prime | startup | reignite | shutdown | manual | error => cases running

theorem defaultFan_fan : (defaultFan c).outputs.fan = true := by
  simp only [defaultFan]
  cases on : c.outputs.fan with
  | false =>
      rw [if_pos rfl]
      exact fanOn_fan c _
  | true =>
      rw [if_neg (by simp)]
      repeat' split
      all_goals exact on

theorem defaultFan_fanPct (on : c.outputs.fan = true) (fixed : fixedDuty c = true) :
    (defaultFan c).outputs.fanPct = c.cfg.pwmMaxDuty := by
  have dc : c.cfg.dcFan = true := (Bool.and_eq_true_iff.mp fixed).1
  have byPit : ¬(c.pwmControl = true ∧ c.mode = .hold) := by
    rintro ⟨pwm, hold⟩
    simp [fixedDuty, pwm, hold] at fixed
  simp only [defaultFan]
  rw [if_neg (by simp [on]), if_pos dc, if_neg byPit]
  by_cases there : c.outputs.fanPct = c.cfg.pwmMaxDuty
  · rw [if_neg (by simp [there])]
    split
    · exact there
    · exact there
  · rw [if_pos there]
    rfl

theorem choosePwmDuty_outputs : (choosePwmDuty t c).outputs = c.outputs := by
  unfold choosePwmDuty
  split <;> rfl

theorem runFan_steady (isOver : c.manualUntil.fan ≤ t.now) (steady : steadyFan c = true) :
    runFan t c = defaultFan (choosePwmDuty t c) := by
  simp only [steadyFan, Bool.and_eq_true, Bool.not_eq_true'] at steady
  obtain ⟨⟨⟨running, shut⟩, unmodulated⟩, plain⟩ := steady
  have aside : ¬(c.manualUntil.fan > t.now ∨ c.lidOpen = true) := by
    rintro (later | lid)
    · exact absurd later (not_lt.mpr isOver)
    · simp [shut] at lid
  have modulated : ¬(c.mode = .hold ∧ c.fanPidActive = true) := by
    rintro ⟨hold, active⟩
    simp [hold, active] at unmodulated
  rw [runFan, if_pos running, runFanLogic, if_neg aside]
  simp only
  rw [if_neg modulated, if_neg (by simp [plain])]

theorem timedTransition_running (running : (timedTransition t c).mode.isRunning) :
    timedTransition t c = c ∨
      c.mode.isRunning = false ∧
        ∃ m lit, m.isRunning ∧ timedTransition t c = enterMode t m lit := by
  unfold timedTransition at running ⊢
  cases mode : c.mode with
  | startup | reignite =>
      simp only [mode] at running ⊢
      by_cases done : startupDone c = true
      · rw [if_pos done]
        exact Or.inr ⟨rfl, handoverMode c, _, handoverMode_isRunning c, rfl⟩
      · rw [if_neg done]
        exact Or.inl rfl
  | shutdown =>
      simp only [mode] at running ⊢
      by_cases cooled : cooledDown t c = true
      · rw [if_pos cooled] at running
        have stopped : (enterMode t .stop c).mode.isRunning := running
        rw [enterMode_mode] at stopped
        cases stopped
      · rw [if_neg cooled]
        exact Or.inl rfl
  | prime =>
      simp only [mode] at running ⊢
      by_cases isOver : t.now - c.modeStart > c.primeDurationS
      · rw [if_pos isOver, endPrime] at running
        split at running
        all_goals
          rw [enterMode_mode] at running
          cases running
      · rw [if_neg isOver]
        exact Or.inl rfl
  | error =>
      simp only [mode] at running
      have kept : (errorFan t c).mode = c.mode := by
        rcases relayOf_errorFan t c with same | dark
        · exact congrArg Relay.mode same
        · exact congrArg Relay.mode dark
      rw [kept, mode] at running
      cases running
  | stop | monitor | smoke | hold | manual => exact Or.inl rfl

theorem controlStep_running (running : (controlStep t c).mode.isRunning) :
    ((controlStep t c).outputs = (timedIn t c).outputs ∧
        cookOf (controlStep t c) = cookOf (endStep t (fanIn t c))) ∨
      (fanIn t c).mode.isRunning = false ∧ (controlStep t c).outputs.fan = true := by
  have unasked : shutdownInput t (timedTransition t (timedIn t c)) =
      timedTransition t (timedIn t c) := by
    rw [controlStep_eq_timedIn] at running
    have running : (shutdownInput t (timedTransition t (timedIn t c))).mode.isRunning := running
    unfold shutdownInput at running ⊢
    split
    · next asked =>
        rw [if_pos asked, enterMode_mode] at running
        split at running <;> cases running
    · rfl
  have ended : controlStep t c = endStep t (checkpoint t (timedTransition t (timedIn t c))) := by
    rw [controlStep_eq_timedIn, unasked]
  have mode : (timedIn t c).mode = (fanIn t c).mode :=
    congrArg Relay.mode (relayOf_timedIn t c)
  rw [ended] at running ⊢
  have running : (timedTransition t (timedIn t c)).mode.isRunning := running
  rcases timedTransition_running t _ running with stayed | ⟨idle, m, lit, enters, entered⟩
  · left
    rw [stayed]
    have closed : ByCook fun d => endStep t (checkpoint t d) := fun _ => rfl
    have plain : cookOf (endStep t (checkpoint t (fanIn t c))) = cookOf (endStep t (fanIn t c)) :=
      rfl
    exact ⟨rfl, (closed.congr (cookOf_timedIn t c)).trans plain⟩
  · right
    rw [entered]
    exact ⟨mode ▸ idle, enterMode_fan t lit enters⟩

theorem steadyFan_fanIn
    (same : cookOf (controlStep t c) = cookOf (endStep t (fanIn t c))) :
    steadyFan (controlStep t c) = steadyFan (fanIn t c) ∧
      fixedDuty (controlStep t c) = fixedDuty (fanIn t c) ∧
      (controlStep t c).cfg = (fanIn t c).cfg := by
  have steady (c : Control) : steadyFan (cookOf c) = steadyFan c := rfl
  have fixed (c : Control) : fixedDuty (cookOf c) = fixedDuty c := rfl
  have limits (c : Control) : (cookOf c).cfg = c.cfg := rfl
  have steadyClosed (c : Control) : steadyFan (endStep t c) = steadyFan c := rfl
  have fixedClosed (c : Control) : fixedDuty (endStep t c) = fixedDuty c := rfl
  have limitsClosed (c : Control) : (endStep t c).cfg = c.cfg := rfl
  refine ⟨?_, ?_, ?_⟩
  · rw [← steady, same, steady, steadyClosed]
  · rw [← fixed, same, fixed, fixedClosed]
  · rw [← limits, same, limits, limitsClosed]

variable {t c}

theorem controlStep_fan (nonneg : 0 ≤ t.now) (released : Released t.now (fedIn t c))
    (steady : steadyFan (controlStep t c) = true) :
    (controlStep t c).outputs.fan = true ∧
      (fixedDuty (controlStep t c) = true → (fanIn t c).mode.isRunning →
        (fanIn t c).outputs.fan = true →
          (controlStep t c).outputs.fanPct = (controlStep t c).cfg.pwmMaxDuty) := by
  have running : (controlStep t c).mode.isRunning := by
    simp only [steadyFan, Bool.and_eq_true] at steady
    exact steady.1.1.1
  rcases controlStep_running t c running with ⟨driven, same⟩ | ⟨idle, on⟩
  · obtain ⟨steadyIn, fixedIn, limits⟩ := steadyFan_fanIn t c same
    rw [steadyIn] at steady
    have fed : Released t.now (fanIn t c) := released_feedAuger nonneg released
    have busy : outputsFree (fanIn t c).mode = false := by
      simp only [steadyFan, Bool.and_eq_true] at steady
      have runs := steady.1.1.1
      cases mode : (fanIn t c).mode <;> first | rfl | (rw [mode] at runs; cases runs)
    have logic := runFan_steady t (fanIn t c) (fed busy .fan) steady
    have kept : (timedIn t c).outputs = (runFan t (fanIn t c)).outputs := by
      rw [timedIn, expireManual]
      split <;> rfl
    rw [driven, kept, logic, fixedIn, limits]
    refine ⟨defaultFan_fan _, ?_⟩
    intro fixed _ on
    have cook := cookOf_choosePwmDuty t (fanIn t c)
    have fixedChosen : fixedDuty (choosePwmDuty t (fanIn t c)) = true := by
      change fixedDuty (cookOf (choosePwmDuty t (fanIn t c))) = true
      rw [cook]
      exact fixed
    have limitsChosen : (choosePwmDuty t (fanIn t c)).cfg = (fanIn t c).cfg := by
      change (cookOf (choosePwmDuty t (fanIn t c))).cfg = (cookOf (fanIn t c)).cfg
      rw [cook]
    rw [defaultFan_fanPct _ _ fixedChosen, limitsChosen]
    rw [choosePwmDuty_outputs]
    exact on
  · refine ⟨on, ?_⟩
    intro _ runs
    rw [idle] at runs
    cases runs

end Fan

/-! ## Runs with and without manual commands -/

/-- A step with its manual commands from one state, and without them from
another, end with one cook; the auger is the same unless one of them rests it;
a steady fan is, and its duty when the relay was left on. -/
structure EndsAlike (t : Tick) (c d : Control) : Prop where
  cook : cookOf (controlStep t c) = cookOf (controlStep t.unhanded d)
  auger : outputsFree (controlStep t c).mode = false →
    (controlStep t c).augerRestUntil ≤ t.now → (controlStep t.unhanded d).augerRestUntil ≤ t.now →
      (controlStep t c).outputs.auger = (controlStep t.unhanded d).outputs.auger
  fan : steadyFan (controlStep t c) = true →
    (controlStep t c).outputs.fan = (controlStep t.unhanded d).outputs.fan
  duty : steadyFan (controlStep t c) = true → fixedDuty (controlStep t c) = true →
    (fanIn t c).mode.isRunning → (fanIn t c).outputs.fan = true →
      (fanIn t.unhanded d).outputs.fan = true →
        (controlStep t c).outputs.fanPct = (controlStep t.unhanded d).outputs.fanPct

/-- Where every override has run out, a step ends alike with and without manual
commands. -/
theorem endsAlike {t : Tick} {c d : Control} (started : 0 < t.now) (same : cookOf c = cookOf d)
    (left : Released t.now (fedIn t c))
    (right : Released t.unhanded.now (fedIn t.unhanded d)) : EndsAlike t c d := by
  have begun : 0 < t.unhanded.now := started
  have cook := cookOf_controlStep t same
  have fed := cookOf_fedIn t same
  have fanned : cookOf (fanIn t c) = cookOf (fanIn t.unhanded d) := by
    rw [fanIn, fanIn, feedAuger_unhanded]
    exact (byCook_feedAuger t).congr fed
  have drives := drivesAuger_cook t fed
  have ends : endEntry t (timedIn t c) = endEntry t.unhanded (timedIn t.unhanded d) := by
    apply endEntry_cook
    rw [cookOf_timedIn, cookOf_timedIn, fanned]
  have mode : (controlStep t c).mode = (controlStep t.unhanded d).mode := by
    rw [← cookOf_mode, cook, cookOf_mode]
  have steady (c : Control) : steadyFan (cookOf c) = steadyFan c := rfl
  have fixed (c : Control) : fixedDuty (cookOf c) = fixedDuty c := rfl
  have limits (c : Control) : (cookOf c).cfg = c.cfg := rfl
  have steadies : steadyFan (controlStep t c) = steadyFan (controlStep t.unhanded d) := by
    rw [← steady, cook, steady]
  constructor
  · exact cook
  · intro busy restedLeft restedRight
    have first := controlStep_auger started.le left busy
    have second := controlStep_auger begun.le right (mode ▸ busy)
    have restedRight : (controlStep t.unhanded d).augerRestUntil ≤ t.unhanded.now := restedRight
    rw [decide_eq_true restedLeft] at first
    rw [decide_eq_true restedRight] at second
    rw [first, second, drives, ends]
  · intro runs
    rw [(controlStep_fan started.le left runs).1,
      (controlStep_fan begun.le right (steadies ▸ runs)).1]
  · intro runs still running onLeft onRight
    have stillRight : fixedDuty (controlStep t.unhanded d) = true := by
      rw [← fixed, ← cook, fixed]
      exact still
    have runningRight : (fanIn t.unhanded d).mode.isRunning := by
      rw [← cookOf_mode, ← fanned, cookOf_mode]
      exact running
    rw [(controlStep_fan started.le left runs).2 still running onLeft,
      (controlStep_fan begun.le right (steadies ▸ runs)).2 stillRight runningRight onRight,
      ← limits, cook, limits]

/-- Smoke on a bench where the outputs may be switched by hand, the auger
switched off by hand in it. -/
def benchHandled : List Tick :=
  [benchTick [] 1 (some 20) [.mode .startup 0 false],
    benchTick [] 2 (some 20) [.mode .smoke 0 true],
    benchTick [] 3 (some 20) [.manualOutput "auger" false 0],
    benchTick [] 20 (some 20) []]

/-- A daemon whose settings let the outputs be switched by hand. -/
def benchHandInit : Control :=
  controlInit (.obj [("safety", .obj [("allow_manual_changes", .bool true)])]) some

/-- Smoke drives the igniter only as it is entered: switched on by hand there it
stays on past its override, until the cap. -/
example :
    let handled := [benchTick [] 1 (some 20) [.mode .startup 0 false],
      benchTick [] 2 (some 20) [.mode .smoke 0 true],
      benchTick [] 3 (some 20) [.manualOutput "igniter" true 0], benchTick [] 40 (some 20) []]
    (run controlStep handled benchHandInit).outputs.igniter = true ∧
      (run controlStep (handled.map Tick.unhanded) benchHandInit).outputs.igniter = false := by
  decide +kernel

end PiFire
