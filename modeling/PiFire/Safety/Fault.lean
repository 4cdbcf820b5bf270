import Mathlib.Tactic.FinCases
import PiFire.Relay.Reach

/-!
# Faults

What Error holds off, that a pit over its limit ends in it, and how long the
grill stays in it. Only Stop is meant to lead out of Error. In the tick after a
fault the recipe is still marked active, and two of its commands are the other
way out.
-/

namespace PiFire

open Transition

/-- In Error neither the auger nor the igniter is on. -/
def Relay.dark (r : Relay) : Prop :=
  r.mode = .error → r.auger = false ∧ r.igniter = false

theorem Relay.dark_enter (now : ℚ) (e : Entry) (r : Relay) : (r.enter now e).dark := by
  intro faulted
  change e.mode = .error at faulted
  simp [enter, Entry.lights, faulted, Mode.feeds, Mode.isLighting]

theorem Relay.dark_of_le {r : Relay} (dark : r.dark) {auger igniter : Bool}
    (augerLower : auger = true → r.auger = true)
    (igniterLower : igniter = true → r.igniter = true) :
    ({ r with auger := auger, igniter := igniter } : Relay).dark := by
  intro faulted
  obtain ⟨augerOff, igniterOff⟩ := dark faulted
  constructor
  · exact Bool.eq_false_iff.mpr fun on => by simp [augerLower on] at augerOff
  · exact Bool.eq_false_iff.mpr fun on => by simp [igniterLower on] at igniterOff

theorem Relay.capIgniter_lower {now : ℚ} {r : Relay} (on : (r.capIgniter now).igniter = true) :
    r.igniter = true := by
  by_contra off
  unfold capIgniter at on
  rw [if_neg off] at on
  exact off on

theorem Relay.rest_cap_lower {now : ℚ} {r : Relay}
    (on : ((r.rest now).cap now).auger = true) : r.auger = true := by
  by_contra off
  have parked : r.rest now = r := by
    unfold rest
    rw [if_neg fun resting => off resting.2]
  unfold cap at on
  rw [parked, if_neg fun tripped => off tripped.1] at on
  exact off on

theorem effect_dark {t : Tick} {p : Phase} {c : Control} {r : Relay}
    (dark : (relayOf c).dark) (moved : Effect t p c r) : r.dark := by
  cases moved with
  | enter => exact Relay.dark_enter _ _ _
  | read => exact dark
  | limits => exact dark
  | byHand named accepted =>
      intro faulted
      rw [Relay.byHand_mode] at faulted
      have refused : acceptsManual c = false := by
        change c.mode = .error at faulted
        simp [acceptsManual, faulted]
      rw [refused] at accepted
      cases accepted
  | lower _ _ _ plain stays augerLower igniterLower =>
      exact Relay.dark_of_le (show (aimed t p c).dark from dark) augerLower igniterLower
  | judge quiet lit =>
      intro faulted
      obtain ⟨igniter, since, locked, capped⟩ := Relay.capIgniter_eq t.now (relayOf c)
      have mode : c.mode = .error := by
        simp only [capped] at faulted
        exact faulted
      obtain ⟨augerOff, igniterOff⟩ := dark mode
      refine ⟨by simp only [capped]; exact augerOff, Bool.eq_false_iff.mpr fun on => ?_⟩
      rcases lit on with was | ⟨-, running⟩
      · rw [Relay.capIgniter_lower was] at igniterOff
        cases igniterOff
      · simp [mode, Mode.isRunning] at running
  | @feed _ driven drives =>
      intro faulted
      obtain ⟨auger, until_, capped⟩ := Relay.rest_cap_eq t.now driven
      have mode : driven.mode = .error := by
        rw [capped] at faulted
        exact faulted
      have drivenDark : driven.auger = false ∧ driven.igniter = false := by
        rcases drives with rfl | rfl | ⟨rfl, -, runs⟩
        · exact dark mode
        · exact ⟨rfl, (dark mode).2⟩
        · change c.mode = .error at mode
          simp [cycleRuns, mode, Mode.isFiring] at runs
      have igniterSame : ((driven.rest t.now).cap t.now).igniter = driven.igniter := by
        rw [capped]
      refine ⟨Bool.eq_false_iff.mpr fun on => ?_, igniterSame.trans drivenDark.2⟩
      rw [Relay.rest_cap_lower on] at drivenDark
      cases drivenDark.1

theorem coreInvariant_dark : CoreInvariant fun _ r => r.dark where
  later _ dark := dark
  effect _ _ _ _ _ dark moved := effect_dark dark moved
  enter now e r _ _ := Relay.dark_enter now e r
  aimAt _ _ _ dark := dark
  limits _ _ _ dark := dark

/-- In every reachable state in Error, the auger and the igniter are off. -/
theorem Reachable.dark {time : ℚ} {c : Control} (reached : Reachable time c) :
    (relayOf c).dark := by
  refine coreInvariant_dark.reachable ?_ reached
  intro settings loadController faulted
  cases faulted

section Overtemp

variable (t : Tick)

theorem run_mode {m : Mode} {ps : List Phase}
    (stays : ∀ p ∈ ps, ∀ c : Control, c.mode = m → phaseEntry t p c = none) {c : Control}
    (mode : c.mode = m) : (run (Phase.act t) ps c).mode = m := by
  induction ps generalizing c with
  | nil => exact mode
  | cons p ps ih =>
      apply ih
      · intro q inside
        exact stays q (List.mem_cons_of_mem p inside)
      · rw [act_mode, stays p List.mem_cons_self c mode]
        exact mode

theorem superviseEntry_rest {c : Control} (resting : c.mode = .stop ∨ c.mode = .error) :
    superviseEntry t c = none := by
  have cool : overheated c = false := by
    rcases resting with mode | mode
    · simp [overheated, mode]
    · simp [overheated, mode]
  have mode := capIgniter_mode t c
  have cold : ¬c.mode.isFiring = true := by
    rcases resting with mode | mode
    · simp [mode, Mode.isFiring]
    · simp [mode, Mode.isFiring]
  rw [superviseEntry, safetyTick, if_neg (by simp [cool])]
  simp only [if_neg cold]

theorem superviseEntry_overheated {c : Control} (notStop : c.mode ≠ .stop)
    (notError : c.mode ≠ .error) {pit : ℚ} (valid : c.validPit = some pit)
    (isOver : c.cfg.maxTempC < pit) : superviseEntry t c = some (.plain .error) := by
  have hot : overheated c = true := by
    simp [overheated, notStop, notError, valid, readsAbove, isOver]
  rw [superviseEntry, safetyTick, if_pos hot]

theorem closePhases_mode_stop {c : Control} (mode : c.mode = .stop) :
    (run (Phase.act t) closePhases c).mode = .stop := by
  refine run_mode t ?_ mode
  intro p inside c mode
  fin_cases inside
  all_goals first | rfl | simp [phaseEntry, timedEntry, inputEntry, mode]

theorem closePhases_mode_error {c : Control} (mode : c.mode = .error) :
    (run (Phase.act t) closePhases c).mode = if t.shutdownInput then .stop else .error := by
  have before : (run (Phase.act t) [.lid, .feed, .fan, .expire, .timed] c).mode = .error := by
    refine run_mode t ?_ mode
    intro p inside c mode
    fin_cases inside
    all_goals first | rfl | simp [phaseEntry, timedEntry, mode]
  have order : closePhases = [.lid, .feed, .fan, .expire, .timed] ++ [.input, .checkpoint, .close] :=
    rfl
  rw [order, run_append, run_cons]
  generalize run (Phase.act t) [.lid, .feed, .fan, .expire, .timed] c = acted at before ⊢
  have switched : (Phase.act t .input acted).mode = if t.shutdownInput then .stop else .error := by
    rw [act_mode]
    cases input : t.shutdownInput <;>
      simp [phaseEntry, inputEntry, input, before, Mode.isRunning]
  refine run_mode t ?_ switched
  intro p inside c mode
  fin_cases inside
  all_goals rfl

end Overtemp

theorem run_validPit {t : Tick} {ps : List Phase} (notRead : ∀ p ∈ ps, p ≠ .read) (c : Control) :
    (run (Phase.act t) ps c).validPit = c.validPit := by
  induction ps generalizing c with
  | nil => rfl
  | cons p ps ih =>
      rw [run_cons, ih fun q inside => notRead q (List.mem_cons_of_mem p inside),
        act_validPit t p c (notRead p List.mem_cons_self)]

theorem beforeSupervision_validPit (t : Tick) (c : Control) :
    (beforeSupervision t c).validPit = t.sensors.pit := by
  rw [beforeSupervision, cookPhases, run_cons, run_validPit (by simp)]
  exact readSensors_validPit t _

/-- Error is dark after every step, and a step that finds a valid pit above the
limit in force ends in it, unless the grill is in Stop when the supervision
judges it or the shutdown input is asserted. -/
theorem overtemp_ends_in_error {time : ℚ} {c : Control} (reached : Reachable time c) (t : Tick) :
    ((controlStep t c).mode = .error →
        (controlStep t c).outputs.auger = false ∧ (controlStep t c).outputs.igniter = false) ∧
      ∀ pit, t.sensors.pit = some pit → (beforeSupervision t c).cfg.maxTempC < pit →
        ((controlStep t c).mode = .error ↔
          (beforeSupervision t c).mode ≠ .stop ∧ t.shutdownInput = false) := by
  refine ⟨?_, ?_⟩
  · exact controlStep_invariant (fun c => (relayOf c).dark)
      (fun p c dark => effect_dark dark (effect_act t p c)) reached.dark
  · intro pit read isOver
    rw [controlStep_eq_supervise]
    rw [← beforeSupervision_validPit t c] at read
    generalize beforeSupervision t c = b at read isOver
    have entered : (supervise t b).mode = if b.mode = .stop then .stop else .error := by
      have moved := act_mode t .supervise b
      change (supervise t b).mode = ((superviseEntry t b).map Entry.mode).getD b.mode at moved
      rw [moved]
      by_cases stopped : b.mode = .stop
      · rw [superviseEntry_rest t (Or.inl stopped), if_pos stopped]
        exact stopped
      · rw [if_neg stopped]
        by_cases faulted : b.mode = .error
        · rw [superviseEntry_rest t (Or.inr faulted)]
          exact faulted
        · rw [superviseEntry_overheated t stopped faulted read isOver]
          rfl
    by_cases stopped : b.mode = .stop
    · rw [if_pos stopped] at entered
      rw [closePhases_mode_stop t entered]
      simp [stopped]
    · rw [if_neg stopped] at entered
      rw [closePhases_mode_error t entered]
      cases t.shutdownInput <;> simp [stopped]

/-- A light on the bench that reads a pit over the limit. -/
theorem overtemp_ends_in_error_on_bench :
    (controlStep (benchTick [] 2 (some 400) [.setpoint 230])
      (controlStep (benchTick [] 1 (some 20) [.mode .startup 0 false]) benchInit)).mode = .error :=
  ((overtemp_ends_in_error
      (reachable_benchInit.move (.step (benchTick [] 1 (some 20) [.mode .startup 0 false]))
        (by decide) (by decide))
      (benchTick [] 2 (some 400) [.setpoint 230])).2 400 (by decide)
    (by decide +kernel)).mpr (by decide +kernel)

/-- A cook on the bench, and a tick that reads a pit over the limit while the
user stops the grill. -/
theorem overtemp_yields_to_stop :
    ¬∀ (time : ℚ) (c : Control) (t : Tick), Reachable time c → 0 < t.now → time ≤ t.now →
      c.mode ≠ .stop → c.mode ≠ .error →
      (∃ pit, t.sensors.pit = some pit ∧ c.cfg.maxTempC < pit) →
      (controlStep t c).mode = .error ∧
        (controlStep t c).outputs.auger = false ∧ (controlStep t c).outputs.igniter = false := by
  intro always
  have reached := reachable_benchInit.move
    (.step (benchTick [] 1 (some 20) [.mode .startup 0 false])) (by decide)
    (by decide)
  have ended := always _ _ (benchTick [] 2 (some 400) [.stop]) reached (by decide)
    (by decide +kernel) (by decide +kernel) (by decide +kernel) ⟨400, by decide +kernel⟩
  have stopped : (controlStep (benchTick [] 2 (some 400) [.stop])
      ((Move.step (benchTick [] 1 (some 20) [.mode .startup 0 false])).act benchInit)).mode =
        .stop := by
    decide +kernel
  rw [stopped] at ended
  cases ended.1

/-- The commands that ask for Stop. -/
def Cmd.asksStop : Cmd → Bool
  | .stop | .clearError | .mode .stop _ _ => true
  | _ => false

/-- A tick in which nobody asks for Stop. -/
structure Tick.AsksNoStop (t : Tick) : Prop where
  commands : ∀ cmd ∈ t.cmds, cmd.asksStop = false
  input : t.shutdownInput = false

/-- A recipe command drained while the recipe is active that begins a step which
enters a mode: a Startup, Smoke, Hold, Shutdown or Stop step, in Error. -/
def stepsOut (p : Phase) (c : Control) : Bool :=
  match p with
  | .command .recipeSkip => c.recipe.active && (advanceEntry c.mode c.recipe).isSome
  | .command .recipeBack =>
      c.recipe.active && c.recipe.step > 0 &&
        (beginEntry c.mode { c.recipe with step := c.recipe.step - 1 }).isSome
  | _ => false

/-- In this step no recipe command steps out of the mode. -/
def StaysInError (t : Tick) (c : Control) : Prop :=
  Along (Phase.act t) (fun p c => stepsOut p c = false) (drainPhases t) c

instance (t : Tick) (c : Control) : Decidable (StaysInError t c) :=
  inferInstanceAs (Decidable (Along _ _ _ _))

/-- In Error, with no Stop in the slot. -/
structure HeldInError (c : Control) : Prop where
  faulted : c.mode = .error
  slot : ∀ r, c.req = some r → r.mode ≠ .stop

section Sticky

variable {t : Tick} {c : Control}

theorem cmdEntry_error {cmd : Cmd} (faulted : c.mode = .error) (noStop : cmd.asksStop = false)
    (stays : stepsOut (.command cmd) c = false) : cmdEntry t c cmd = none := by
  cases cmd with
  | stop => cases noStop
  | clearError => cases noStop
  | mode m num flag => simp [cmdEntry, forcesHandover, faulted, Mode.isLighting]
  | prime num str => simp [cmdEntry, faulted]
  | recipeStart num => simp [cmdEntry, faulted]
  | recipeSkip =>
      simp only [stepsOut, Bool.and_eq_false_iff, Option.isSome_eq_false_iff,
        Option.isNone_iff_eq_none] at stays
      simp only [cmdEntry]
      rcases stays with idle | still
      · rw [if_neg (by simp [idle])]
      · rw [still, ite_self]
  | recipeBack =>
      simp only [stepsOut, Bool.and_eq_false_iff, Option.isSome_eq_false_iff,
        Option.isNone_iff_eq_none, decide_eq_false_iff_not] at stays
      simp only [cmdEntry]
      rcases stays with (idle | first) | still
      · rw [if_neg (by simp [idle])]
      · rw [if_neg (by tauto)]
      · rw [still, ite_self]
  | _ => rfl

theorem cmdReq_error {cmd : Cmd} (held : HeldInError c) (noStop : cmd.asksStop = false) :
    ∀ r, cmdReq c cmd = some r → r.mode ≠ .stop := by
  intro r waiting
  cases cmd with
  | stop => cases noStop
  | mode m num flag =>
      simp only [cmdReq, forcesHandover, held.faulted, Mode.isLighting, Bool.and_false,
        Bool.false_and, Bool.false_eq_true, if_false, Option.some.injEq] at waiting
      rw [← waiting]
      rintro rfl
      cases noStop
  | setpoint num =>
      simp only [cmdReq, held.faulted, reduceCtorEq, and_false, if_false] at waiting
      exact held.slot r waiting
  | _ => exact held.slot r waiting

theorem phaseEntry_error {p : Phase} (held : HeldInError c)
    (noStop : ∀ cmd, p = .command cmd → cmd.asksStop = false) (input : t.shutdownInput = false)
    (stays : stepsOut p c = false) : phaseEntry t p c = none := by
  have faulted := held.faulted
  cases p with
  | command cmd => exact cmdEntry_error faulted (noStop cmd rfl) stays
  | request =>
      simp only [phaseEntry, requestEntry]
      cases waiting : c.req with
      | none => rfl
      | some r =>
          have notStop := held.slot r waiting
          have refused : refuses c.mode r.mode = true := by
            rw [faulted]
            cases mode : r.mode <;> first | rfl | exact absurd mode notStop
          simp only [refused, if_true]
  | notify =>
      simp [phaseEntry, notifyEntry, actionEntry, faulted, Mode.isFiring, Mode.isRunning]
  | recipe => simp [phaseEntry, recipeEntry, faulted]
  | supervise => exact superviseEntry_rest t (Or.inr faulted)
  | timed => simp [phaseEntry, timedEntry, faulted]
  | input => simp [phaseEntry, inputEntry, input]
  | _ => rfl

theorem heldInError_act {p : Phase} (held : HeldInError c)
    (noStop : ∀ cmd, p = .command cmd → cmd.asksStop = false) (input : t.shutdownInput = false)
    (stays : stepsOut p c = false) : HeldInError (p.act t c) where
  faulted := by
    rw [act_mode, phaseEntry_error held noStop input stays]
    exact held.faulted
  slot := by
    rw [act_req]
    cases p with
    | command cmd => exact cmdReq_error held (noStop cmd rfl)
    | request =>
        intro r waiting
        cases waiting
    | _ => exact held.slot

theorem noWayOut (noStop : t.AsksNoStop) (stays : StaysInError t c) :
    Along (Phase.act t)
      (fun p c => (∀ cmd, p = .command cmd → cmd.asksStop = false) ∧ stepsOut p c = false)
      (phases t) c := by
  rw [phases, along_append]
  constructor
  · refine Along.and (along_of_forall ?_ c) stays
    intro p inside c cmd same
    rw [same] at inside
    simp only [drainPhases, List.mem_cons, reduceCtorEq, List.mem_map, Phase.command.injEq,
      exists_eq_right, false_or] at inside
    exact noStop.commands cmd inside
  · refine along_of_forall ?_ _
    intro p inside c
    fin_cases inside
    all_goals exact ⟨by simp, rfl⟩

theorem controlStep_error (held : HeldInError c) (noStop : t.AsksNoStop)
    (stays : StaysInError t c) : HeldInError (controlStep t c) := by
  refine controlStep_preserves _ HeldInError ?_ held (noWayOut noStop stays)
  intro p c held ok
  exact heldInError_act held ok.1 noStop.input ok.2

theorem along_heldInError (held : HeldInError c) (noStop : t.AsksNoStop)
    (stays : StaysInError t c) :
    Along (Phase.act t) (fun p c => HeldInError c ∧ phaseEntry t p c = none) (phases t) c := by
  refine Along.strengthen HeldInError ?_ ?_ held (noWayOut noStop stays)
  · intro p c held ok
    exact heldInError_act held ok.1 noStop.input ok.2
  · intro p c held ok
    exact ⟨held, phaseEntry_error held ok.1 noStop.input ok.2⟩

end Sticky

/-- Error is sticky as long as no recipe command of the tick after the fault
steps out of it: whatever else is drained and read, it holds after every step in
which nobody asks for Stop. -/
theorem error_is_sticky {time : ℚ} {c : Control} (reached : Reachable time c)
    (faulted : c.mode = .error) {ticks : List Tick} (noStop : ∀ t ∈ ticks, t.AsksNoStop)
    (stays : Along controlStep StaysInError ticks c) :
    Throughout controlStep (fun c => c.mode = .error) ticks c := by
  have held : HeldInError c := ⟨faulted, by simp [reached.req_none]⟩
  have asked : Along controlStep (fun t _ => t.AsksNoStop) ticks c :=
    along_of_forall (fun t inside _ => noStop t inside) c
  apply Along.strengthen HeldInError _ _ held (asked.and stays)
  · intro t c held ok
    exact controlStep_error held ok.1 ok.2
  · intro t c held ok
    exact (controlStep_error held ok.1 ok.2).faulted

/-- A recipe of two Hold steps. -/
def twoHolds : List Json :=
  [.obj [("mode", .str "Hold"), ("setpoint", .num 110)],
    .obj [("mode", .str "Hold"), ("setpoint", .num 110)]]

/-- The bench in the tick after a fault, the recipe still marked active. -/
def benchFault : Control :=
  run controlStep
    [benchTick twoHolds 1 (some 20) [.recipeStart 1], benchTick twoHolds 2 (some 400) []] benchInit

theorem reachable_benchFault : Reachable 2 benchFault :=
  (reachable_benchInit.move (.step (benchTick twoHolds 1 (some 20) [.recipeStart 1]))
    (by decide) (by decide)).move
    (.step (benchTick twoHolds 2 (some 400) [])) (by decide) (by decide)

/-- Stepping a recipe back or answering its prompt, a request for another mode,
a prime and a new set point all leave the bench in Error. -/
theorem error_is_sticky_on_bench :
    Throughout controlStep (fun c => c.mode = .error)
      [benchTick twoHolds 3 (some 100) [.recipeBack, .recipeNext, .mode .hold 230 true],
        benchTick twoHolds 4 (some 100) [.recipeSkip, .prime 20 "Startup", .setpoint 230]]
      benchFault :=
  error_is_sticky reachable_benchFault (by decide +kernel)
    (by
      intro t inside
      fin_cases inside
      all_goals exact ⟨by decide, rfl⟩)
    (by decide +kernel)

/-- Skipping the step of the faulted recipe puts the bench in Hold. -/
theorem recipeSkip_leaves_error :
    ¬∀ (time : ℚ) (c : Control), Reachable time c → c.mode = .error →
      ∀ ticks : List Tick, (∀ t ∈ ticks, t.AsksNoStop) →
        Throughout controlStep (fun c => c.mode = .error) ticks c := by
  intro always
  have held := always 2 benchFault reachable_benchFault (by decide +kernel)
    [benchTick twoHolds 3 (some 100) [.recipeSkip]] (by
      intro t inside
      fin_cases inside
      exact ⟨by decide, rfl⟩)
  have left : (controlStep (benchTick twoHolds 3 (some 100) [.recipeSkip]) benchFault).mode =
      .hold := by
    decide +kernel
  exact absurd (left.symm.trans held.1) (by decide)

end PiFire
