import PiFire.Control.Step
import PiFire.Transition.Run

/-!
# The life of the daemon

Between two steps the daemon may read the settings again, and as it starts it
may recover a cook, look for a hot pit, keep a checkpoint and resume a cook. The
states these moves and the steps lead to, with the clock never turned back, are
the reachable ones.
-/

namespace PiFire

/-- Keep a checkpoint at a path from now on. -/
def controlSetCheckpointPath (c : Control) : Control :=
  { c with
    checkpoint := { c.checkpoint with enabled := true, onDisk := c.checkpoint.file.isSome } }

/-- What the daemon does with the control state. -/
inductive Move where
  | step (t : Tick)
  | reload (t : Tick)
  | resume (t : Tick) (o : Json)
  | recover (b : Boot) (o : Json)
  | bootCheck (t : Tick) (resuming : Bool)

/-- The input of a move. -/
def Move.tick : Move → Tick
  | step t | reload t | resume t _ | bootCheck t _ => t
  | recover b _ => b.tick

/-- What a move does. -/
def Move.act : Move → Control → Control
  | step t, c => controlStep t c
  | reload t, c => controlReloadSettings t c
  | resume t o, c => (controlResume t o c).1
  | recover b o, c => (controlRecover b o c).1
  | bootCheck t resuming, c => controlBootCheck t resuming c

/-- The states the control loop reaches, with the time of the last move. -/
inductive Reachable : ℚ → Control → Prop where
  | init (settings : Json) (loadController : String → Option String) :
      Reachable 0 (controlInit settings loadController)
  | checkpoint {time : ℚ} {c : Control} (before : Reachable time c) :
      Reachable time (controlSetCheckpointPath c)
  | move {time : ℚ} {c : Control} (before : Reachable time c) (m : Move)
      (started : 0 < m.tick.now) (later : time ≤ m.tick.now) :
      Reachable m.tick.now (m.act c)

/-- What a fresh daemon has and no move breaks, every reachable state has. -/
theorem Reachable.invariant {property : Control → Prop}
    (init : ∀ settings loadController, property (controlInit settings loadController))
    (checkpoint : ∀ c, property c → property (controlSetCheckpointPath c))
    (move : ∀ (m : Move) c, property c → property (m.act c))
    {time : ℚ} {c : Control} (reached : Reachable time c) : property c := by
  induction reached with
  | init settings loadController => exact init settings loadController
  | checkpoint _ before => exact checkpoint _ before
  | move _ m _ _ before => exact move m _ before

/-- Services for trying the loop: one stored recipe of the given steps, the
least feed from everything that is asked for one. -/
def benchServices (steps : List Json) : Services :=
  { recipes :=
      { row := fun _ => some { steps := some (.arr steps), units := some "C" }
        ends := fun _ _ => none }
    estimates := { restPull := fun _ target => target, takeOff := fun _ target => target }
    learningUff := fun _ _ low _ => low
    loadController := some
    controllerUpdate := fun _ _ => some (1 / 10)
    relayStart := fun _ => none
    relayStep := fun _ => { u := 1 / 10, uCenter := 1 / 10, lastLoad := 0, finished := false }
    evalTree := fun _ _ => false
    treeEta := fun _ _ => -1 }

/-- A tick on the bench: the factory settings, one pit probe, and a wall clock
that shows the same time as the other one. -/
def benchTick (steps : List Json) (now : ℚ) (pit : Option ℚ) (cmds : List Cmd) : Tick :=
  { now := now
    wall := now
    bootId := "bench"
    cmds := cmds
    settings := .obj []
    sensors :=
      { readings := [{ label := "pit", role := .primary, enabled := true, ambient := false
                       inUse := true, temp := pit }]
        primary := some 0 }
    weatherC := none
    ambientLast := none
    shutdownInput := false
    services := benchServices steps }

/-- A daemon just started on the bench. -/
def benchInit : Control := controlInit (.obj []) some

theorem reachable_benchInit : Reachable 0 benchInit := .init (.obj []) some

end PiFire

/-!
# The phases of a step

A step is a run of its own: each drained command and each later part of the
step acts on the state the one before it left. Conditions and invariants are
stated phase by phase and carried over the step by the rules for runs.
-/

namespace PiFire

open Transition

/-- The parts of a step, in the order the step runs them. -/
inductive Phase where
  | begin
  | command (cmd : Cmd)
  | read
  | request
  | idleHeat
  | clampSp
  | notify
  | recipe
  | aftercare
  | supervise
  | lid
  | feed
  | fan
  | expire
  | timed
  | input
  | checkpoint
  | close

/-- What a phase does. -/
def Phase.act (t : Tick) : Phase → Control → Control
  | .begin => beginStep t
  | .command cmd => fun c => handleCmd t c cmd
  | .read => readSensors t
  | .request => applyRequest t
  | .idleHeat => noticeIdleHeat
  | .clampSp => clampSetpoint
  | .notify => runNotify t
  | .recipe => runRecipe t
  | .aftercare => recipeAftercare
  | .supervise => PiFire.supervise t
  | .lid => watchLid t
  | .feed => feedAuger t
  | .fan => runFan t
  | .expire => expireManual t
  | .timed => timedTransition t
  | .input => shutdownInput t
  | .checkpoint => PiFire.checkpoint t
  | .close => endStep t

/-- The phases up to the pending request being applied. -/
def drainPhases (t : Tick) : List Phase :=
  .begin :: t.cmds.map .command

/-- The phases between the drain and the supervision. -/
def cookPhases : List Phase :=
  [.read, .request, .idleHeat, .clampSp, .notify, .recipe, .aftercare]

/-- The phases after the supervision. -/
def closePhases : List Phase :=
  [.lid, .feed, .fan, .expire, .timed, .input, .checkpoint, .close]

/-- The phases of a step. -/
def phases (t : Tick) : List Phase :=
  drainPhases t ++ (cookPhases ++ .supervise :: closePhases)

/-- The state the phases before the supervision lead to. -/
def beforeSupervision (t : Tick) (c : Control) : Control :=
  run (Phase.act t) cookPhases (run (Phase.act t) (drainPhases t) c)

theorem ne_supervise_of_mem {t : Tick} {p : Phase} (inside : p ∈ drainPhases t ++ cookPhases) :
    p ≠ .supervise := by
  rintro rfl
  simp [drainPhases, cookPhases] at inside

theorem run_drainPhases (t : Tick) (c : Control) :
    run (Phase.act t) (drainPhases t) c = drain t (beginStep t c) := by
  have commands (cmds : List Cmd) (c : Control) :
      run (Phase.act t) (cmds.map .command) c = cmds.foldl (handleCmd t) c := by
    induction cmds generalizing c with
    | nil => rfl
    | cons cmd cmds ih => exact ih _
  exact commands t.cmds (beginStep t c)

theorem controlStep_eq_run (t : Tick) (c : Control) :
    controlStep t c = run (Phase.act t) (phases t) c := by
  rw [phases, run_append, run_drainPhases]
  simp only [cookPhases, closePhases, List.cons_append, List.nil_append, run_cons, run_nil,
    Phase.act, controlStep, runMode]

theorem controlStep_eq_supervise (t : Tick) (c : Control) :
    controlStep t c =
      run (Phase.act t) closePhases (supervise t (beforeSupervision t c)) := by
  rw [controlStep_eq_run, phases, run_append, run_append, run_cons, beforeSupervision]
  rfl

theorem controlStep_preserves {t : Tick} (ok : Phase → Control → Prop)
    (invariant : Control → Prop)
    (preserved : ∀ (p : Phase) c, invariant c → ok p c → invariant (p.act t c))
    {c : Control} (holds : invariant c) (along : Along (Phase.act t) ok (phases t) c) :
    invariant (controlStep t c) := by
  rw [controlStep_eq_run]
  exact run_preserves ok invariant preserved holds along

theorem controlStep_invariant {t : Tick} (invariant : Control → Prop)
    (preserved : ∀ (p : Phase) c, invariant c → invariant (p.act t c)) {c : Control}
    (holds : invariant c) : invariant (controlStep t c) := by
  rw [controlStep_eq_run]
  exact run_invariant invariant preserved holds

end PiFire
