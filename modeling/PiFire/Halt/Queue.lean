import PiFire.Halt.Rest
import PiFire.Transition.Buffer

/-!
# The command queue

Every producer pushes into one ring of sixty-four commands, and a step drains it
whole before it does anything else. A Stop that found room in it ends the step
in Stop unless a command behind it asks for another mode; the Stop that is a
mode request waits in the slot a later set point may take.
-/

namespace PiFire

open Transition

/-- The length of the queue. -/
def queueLen : ℕ := 64

instance : Inhabited Cmd := ⟨.probesChanged⟩

/-- The command queue. -/
abbrev Cmdq := Ring Cmd queueLen

def cmdqInit : Cmdq := Ring.empty (by decide)

/-- Push a command: `0`, or `-1` when the queue is full. -/
def cmdqPush (cmd : Cmd) (q : Cmdq) : Cmdq × ℤ :=
  let pushed := q.push cmd
  (pushed.1, if pushed.2 then 0 else -1)

def cmdqPop (q : Cmdq) : Option (Cmd × Cmdq) := q.pop

/-- The drain: handle the commands until the queue is empty. -/
def drainQueue (t : Tick) : ℕ → Cmdq → Control → Cmdq × Control
  | 0, q, c => (q, c)
  | fuel + 1, q, c =>
      match cmdqPop q with
      | none => (q, c)
      | some (cmd, rest) => drainQueue t fuel rest (handleCmd t c cmd)

/-- A tick whose step finds this queue. -/
def Tick.draining (t : Tick) (q : Cmdq) : Tick :=
  { t with cmds := q.toList }

/-- Whether a command is a Stop: the emergency stop, or a request for the mode. -/
def Cmd.isStop : Cmd → Bool
  | .stop => true
  | .mode m _ _ => m == .stop
  | _ => false

/-- Whether a command takes the slot from a request without being one: a set
point in Smoke asks for Hold. -/
def Cmd.overrides (c : Control) : Cmd → Prop
  | .setpoint num => num > 0 ∧ c.mode = .smoke
  | _ => False

/-- The Stop a producer pushes is accepted, and the next step ends in Stop. -/
def Honoured (t : Tick) (c : Control) (q : Cmdq) (cmd : Cmd) (later : List Cmd) : Prop :=
  (cmdqPush cmd q).2 = 0 ∧
    (controlStep (t.draining ((cmdqPush cmd q).1.pushAll later)) c).mode = .stop

instance (t : Tick) (c : Control) (q : Cmdq) (cmd : Cmd) (later : List Cmd) :
    Decidable (Honoured t c q cmd later) :=
  inferInstanceAs (Decidable (_ ∧ _))

/-- The grill is at rest with no recipe, or Stop is what the slot asks for. -/
def Stopping (c : Control) : Prop :=
  (AtRest c ∧ c.recipe.active = false) ∨ ∃ r, c.req = some r ∧ r.mode = .stop

section Stopping

variable {t : Tick} {c : Control} {cmd : Cmd}

theorem handleCmd_inactive (isOver : c.recipe.active = false) (quiet : cmd.rouses false = false) :
    (handleCmd t c cmd).recipe.active = false := by
  have active : (handleCmd t c cmd).recipe.active = (cmdRun t c.mode c.recipe cmd).active :=
    (parts_of_place (handleCmd_place t c cmd)).1
  rw [active]
  cases cmd with
  | recipeStart => cases quiet
  | stop | recipeStop => rfl
  | _ => simp [cmdRun, isOver]

theorem atRest_stop :
    AtRest (handleCmd t c .stop) ∧ (handleCmd t c .stop).recipe.active = false := by
  have isOver : (handleCmd t c .stop).recipe.active = false := rfl
  have mode := act_mode t (.command .stop) c
  have req := act_req t (.command .stop) c
  refine ⟨⟨mode, ?_, not_wakes isOver⟩, isOver⟩
  change ∀ r ∈ ((Phase.command .stop).act t c).req, r.mode = .stop
  rw [req]
  exact nofun

/-- The commands of a drain as a run. -/
abbrev drainAll (t : Tick) (cmds : List Cmd) (c : Control) : Control :=
  run (fun cmd c => handleCmd t c cmd) cmds c

theorem inert_command (inert : AtRest c ∧ c.recipe.active = false)
    (quiet : cmd.rouses false = false) :
    AtRest (handleCmd t c cmd) ∧ (handleCmd t c cmd).recipe.active = false := by
  obtain ⟨rest, isOver⟩ := inert
  refine ⟨rest.command ?_, handleCmd_inactive isOver quiet⟩
  rw [isOver]
  exact quiet

theorem inert_drain {cmds : List Cmd} (inert : AtRest c ∧ c.recipe.active = false)
    (quiet : ∀ cmd ∈ cmds, cmd.rouses false = false) :
    AtRest (drainAll t cmds c) ∧ (drainAll t cmds c).recipe.active = false :=
  run_preserves (fun cmd _ => cmd.rouses false = false)
    (fun c => AtRest c ∧ c.recipe.active = false)
    (fun _ _ inert quiet => inert_command inert quiet) inert
    (along_of_forall (fun cmd inside _ => quiet cmd inside) c)

theorem stopping_of_isStop (stop : cmd.isStop = true) : Stopping (handleCmd t c cmd) := by
  cases cmd with
  | stop => exact Or.inl atRest_stop
  | mode m num flag =>
      have same : m = .stop := by simpa [Cmd.isStop] using stop
      subst same
      have unforced : forcesHandover c .stop flag = false := by
        simp [forcesHandover, Mode.isRunning]
      have req := act_req t (.command (.mode .stop num flag)) c
      simp only [phaseReq, cmdReq, unforced, Bool.false_eq_true, if_false] at req
      exact Or.inr ⟨_, req, rfl⟩
  | _ => cases stop

theorem Stopping.command (stopping : Stopping c) (quiet : cmd.rouses false = false)
    (kept : ¬cmd.overrides c) : Stopping (handleCmd t c cmd) := by
  rcases stopping with ⟨rest, isOver⟩ | ⟨r, waiting, stop⟩
  · exact Or.inl (inert_command ⟨rest, isOver⟩ quiet)
  · have req := act_req t (.command cmd) c
    simp only [Phase.act, phaseReq] at req
    cases cmd with
    | stop => exact Or.inl atRest_stop
    | mode m num flag =>
        apply stopping_of_isStop
        simpa [Cmd.isStop, Cmd.rouses] using quiet
    | setpoint num =>
        have away : ¬(num > 0 ∧ c.mode = .smoke) := kept
        simp only [cmdReq, if_neg away] at req
        exact Or.inr ⟨r, req.trans waiting, stop⟩
    | _ => exact Or.inr ⟨r, req.trans waiting, stop⟩

theorem stopping_drain {cmds : List Cmd} (stopping : Stopping c)
    (quiet : ∀ cmd ∈ cmds, cmd.rouses false = false)
    (kept : Along (fun cmd c => handleCmd t c cmd) (fun cmd c => ¬cmd.overrides c) cmds c) :
    Stopping (drainAll t cmds c) :=
  run_preserves (fun cmd c => ¬cmd.overrides c ∧ cmd.rouses false = false) Stopping
    (fun _ _ stopping ok => stopping.command ok.2 ok.1) stopping
    (kept.and (along_of_forall (fun cmd inside _ => quiet cmd inside) c))

theorem Stopping.step (stopping : Stopping (drain t (beginStep t c))) :
    (controlStep t c).mode = .stop := by
  have quiet {ps : List Phase} (none : ∀ cmd, .command cmd ∉ ps) (c : Control) :
      Along (Phase.act t)
        (fun p c => ∀ cmd, p = .command cmd → cmd.rouses c.recipe.active = false) ps c := by
    apply along_of_forall
    rintro p inside c cmd rfl
    exact absurd inside (none cmd)
  have requested : AtRest (run (Phase.act t) [.read, .request] (drain t (beginStep t c))) := by
    rcases stopping with ⟨rest, -⟩ | ⟨r, waiting, stop⟩
    · exact rest.run (quiet (by simp) _)
    · have read := act_req t .read (drain t (beginStep t c))
      exact (atRest_of_request (read.trans waiting) stop).1
  have split : phases t = drainPhases t ++ ([.read, .request] ++
      ([.idleHeat, .clampSp, .notify, .recipe, .aftercare, .supervise] ++ closePhases)) := by
    simp [phases, cookPhases, closePhases]
  rw [controlStep_eq_run, split, run_append, run_append, run_drainPhases]
  exact (requested.run (quiet (by simp [closePhases]) _)).stopped

end Stopping

/-- The queue has room for the command, and where that is a request for Stop, no
set point drained behind it finds the grill in Smoke. -/
def AcceptedAndKept (t : Tick) (c : Control) (q : Cmdq) (cmd : Cmd) (later : List Cmd) : Prop :=
  let drained := t.draining ((cmdqPush cmd q).1.pushAll later)
  q.len < queueLen ∧
    (cmd = .stop ∨
      Along (fun cmd c => handleCmd drained c cmd) (fun cmd c => ¬cmd.overrides c)
        (later.take (queueLen - (q.len + 1)))
        ((q.toList ++ [cmd]).foldl (handleCmd drained) (beginStep drained c)))

/-- A Stop that the queue accepts and no set point displaces ends the next step in
Stop, whatever the queue and the grill, unless a command behind it asks for
another mode. -/
theorem stop_is_honoured (t : Tick) (c : Control) (q : Cmdq) (cmd : Cmd)
    (stop : cmd.isStop = true) (later : List Cmd)
    (others : ∀ other ∈ later, other.rouses false = false)
    (kept : AcceptedAndKept t c q cmd later) : Honoured t c q cmd later := by
  obtain ⟨room, undisplaced⟩ := kept
  have pushed : (cmdqPush cmd q).1 = (q.push cmd).1 := rfl
  have accepted : (q.push cmd).2 = true := Ring.push_room room
  refine ⟨by simp [cmdqPush, accepted], ?_⟩
  generalize drained : t.draining ((cmdqPush cmd q).1.pushAll later) = d at undisplaced ⊢
  have len : (q.push cmd).1.len = q.len + 1 := by
    rw [← Ring.length_toList, Ring.toList_push room]
    simp
  have cmds : d.cmds = (q.toList ++ [cmd]) ++ later.take (queueLen - (q.len + 1)) := by
    rw [← drained, Tick.draining, pushed, Ring.toList_pushAll, Ring.toList_push room, len]
  apply Stopping.step
  rw [drain, cmds, List.foldl_append]
  generalize begun : (q.toList ++ [cmd]).foldl (handleCmd d) (beginStep d c) = s at undisplaced ⊢
  have quiet : ∀ other ∈ later.take (queueLen - (q.len + 1)), other.rouses false = false :=
    fun other inside => others other (List.mem_of_mem_take inside)
  have handled : s = handleCmd d (q.toList.foldl (handleCmd d) (beginStep d c)) cmd := by
    rw [← begun, List.foldl_append]
    rfl
  rcases undisplaced with rfl | along
  · rw [handled]
    exact Or.inl (inert_drain (atRest_stop (c := _)) quiet)
  · rw [handled] at along ⊢
    exact stopping_drain (stopping_of_isStop stop) quiet along

/-- A Stop behind a Hold and before a set point. -/
theorem stop_is_honoured_on_bench :
    Honoured (benchTick [] 3 (some 100) []) benchSmoke (cmdqInit.pushAll [.mode .hold 225 false])
      .stop [.setpoint 225] :=
  stop_is_honoured _ _ _ _ rfl _ (by decide) ⟨by decide, Or.inl rfl⟩

/-- A request for Stop, and a set point that takes the slot from it. -/
example : ¬Honoured (benchTick [] 3 (some 100) []) benchSmoke cmdqInit (.mode .stop 0 false)
    [.setpoint 225] := by decide +kernel

/-- Sixty-four commands that were pushed since the last step. -/
def benchFullQueue : Cmdq := cmdqInit.pushAll (List.replicate 64 (.smokePlus true))

/-- A full queue turns the Stop away, and the grill cooks on. -/
theorem full_queue_loses_stop :
    ¬∀ (time : ℚ) (c : Control), Reachable time c → ∀ (t : Tick) (q : Cmdq) (cmd : Cmd),
      cmd.isStop = true → ∀ later : List Cmd, (∀ other ∈ later, other.rouses false = false) →
        Honoured t c q cmd later := by
  intro always
  have honoured := always 2 benchSmoke reachable_benchSmoke (benchTick [] 3 (some 100) [])
    benchFullQueue .stop rfl [] nofun
  exact absurd honoured (by decide +kernel)

end PiFire
