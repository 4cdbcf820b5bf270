import PiFire.Relay.Course

/-!
# Batches of commands

The queue is drained whole, and then the one request left in the slot is carried
out. Drained one a step, every command has its request carried out before the
next one is looked at. The two carry out the same requests as long as no command
disturbs a request that waits behind it.
-/

namespace PiFire

open Transition

/-- The request a command makes of the grill it finds. -/
def asks (c : Control) : Cmd → Option Request
  | .mode m num flag =>
      if forcesHandover c m flag then none
      else some { mode := m, setpointC := if num > 0 then toC num c.cfg.units else 0 }
  | .setpoint num =>
      if num > 0 ∧ c.mode = .smoke then
        some { mode := .hold, setpointC := toC num c.cfg.units }
      else none
  | _ => none

/-- A request unless the mode refuses it. -/
def accepted (m : Mode) (r : Option Request) : Option Request :=
  r.filter fun r => !refuses m r.mode

/-- The request a step carries out. -/
def carriedOut (t : Tick) (c : Control) : Option Request :=
  let read := readSensors t (drain t (beginStep t c))
  accepted read.mode read.req

/-- The requests a sequence of steps carries out. -/
def carriedOutAll : List Tick → Control → List Request
  | [], _ => []
  | t :: ticks, c => (carriedOut t c).toList ++ carriedOutAll ticks (controlStep t c)

/-- The same tick with a single command in the queue. -/
def Tick.single (t : Tick) (cmd : Cmd) : Tick :=
  { t with cmds := [cmd] }

/-- One step that drains the whole queue carries out the requests that steps
with a command each carry out. -/
def BatchedAlike (t : Tick) (c : Control) : Prop :=
  carriedOutAll (t.cmds.map t.single) c = (carriedOut t c).toList

instance (t : Tick) (c : Control) : Decidable (BatchedAlike t c) :=
  inferInstanceAs (Decidable (_ = _))

section Requests

variable (t : Tick) (c : Control) (cmd : Cmd)

theorem cmdReq_eq : cmdReq c cmd = if cmd = .stop then none else (asks c cmd).or c.req := by
  cases cmd with
  | mode m num flag =>
      simp only [cmdReq, asks, reduceCtorEq, if_false]
      split <;> rfl
  | setpoint num =>
      simp only [cmdReq, asks, reduceCtorEq, if_false]
      split <;> rfl
  | _ => rfl

theorem cmdEntry_of_asks {r : Request} (asked : asks c cmd = some r) :
    cmdEntry t c cmd = none := by
  cases cmd with
  | mode m num flag =>
      simp only [asks] at asked
      split at asked
      · cases asked
      · next unforced => exact if_neg unforced
  | setpoint num => rfl
  | _ => cases asked

/-- The mode a command leaves the grill in. -/
def modeAfter : Mode := ((cmdEntry t c cmd).map Entry.mode).getD c.mode

theorem handleCmd_mode : (handleCmd t c cmd).mode = modeAfter t c cmd :=
  act_mode t (.command cmd) c

theorem handleCmd_req : (handleCmd t c cmd).req = cmdReq c cmd :=
  act_req t (.command cmd) c

theorem modeAfter_of_asks {r : Request} (asked : asks c cmd = some r) :
    modeAfter t c cmd = c.mode := by
  rw [modeAfter, cmdEntry_of_asks t c cmd asked]
  rfl

end Requests

/-- In the same mode, under the same limits and at the same place in the recipe. -/
structure Alike (b s : Control) : Prop where
  mode : b.mode = s.mode
  cfg : b.cfg = s.cfg
  place : b.recipe.place = s.recipe.place

theorem Alike.trans {b s u : Control} (first : Alike b s) (second : Alike s u) : Alike b u where
  mode := first.mode.trans second.mode
  cfg := first.cfg.trans second.cfg
  place := first.place.trans second.place

section Alike

variable {b s : Control} (alike : Alike b s) (t : Tick) (cmd : Cmd)

include alike

theorem Alike.forcesHandover (m : Mode) (flag : Bool) :
    forcesHandover b m flag = forcesHandover s m flag := by
  simp only [PiFire.forcesHandover, alike.mode]

theorem Alike.asks : asks b cmd = asks s cmd := by
  cases cmd with
  | mode m num flag =>
      simp only [PiFire.asks]
      rw [alike.forcesHandover, alike.cfg]
  | setpoint num => simp only [PiFire.asks, alike.mode, alike.cfg]
  | _ => rfl

theorem Alike.cmdEntry : cmdEntry t b cmd = cmdEntry t s cmd := by
  obtain ⟨active, step, flags, r⟩ := parts_of_place alike.place
  cases cmd with
  | mode m num flag =>
      simp only [PiFire.cmdEntry]
      rw [alike.forcesHandover]
  | prime num str => simp only [PiFire.cmdEntry, alike.mode, alike.cfg]
  | clearError => simp only [PiFire.cmdEntry, alike.mode]
  | recipeStart num =>
      simp only [PiFire.cmdEntry, alike.mode]
      generalize recipeLoad t.services.recipes (settingsUnits t.settings) (truncate num) = load
      have started :
          beginEntry s.mode { b.recipe with
            r := load.1, active := true, step := 0, flags := clearFlags, leftRunning := false } =
          beginEntry s.mode { s.recipe with
            r := load.1, active := true, step := 0, flags := clearFlags, leftRunning := false } := by
        apply beginEntry_place
        exact place_eq rfl rfl rfl rfl
      rw [started]
  | recipeSkip =>
      simp only [PiFire.cmdEntry]
      rw [active, alike.mode, advanceEntry_place alike.place]
  | recipeBack =>
      have back : beginEntry s.mode { b.recipe with step := b.recipe.step - 1 } =
          beginEntry s.mode { s.recipe with step := s.recipe.step - 1 } := by
        apply beginEntry_place
        exact place_eq active (congrArg (· - 1) step) flags r
      simp only [PiFire.cmdEntry]
      rw [alike.mode, back, active, step]
  | _ => rfl

theorem Alike.modeAfter : modeAfter t b cmd = modeAfter t s cmd := by
  simp only [PiFire.modeAfter, alike.cmdEntry, alike.mode]

theorem Alike.handleCmd : Alike (handleCmd t b cmd) (handleCmd t s cmd) where
  mode := by rw [handleCmd_mode, handleCmd_mode, alike.modeAfter]
  cfg := by rw [handleCmd_cfg, handleCmd_cfg, alike.cfg]
  place := by
    rw [handleCmd_place, handleCmd_place, alike.mode]
    exact cmdRun_place alike.place t s.mode cmd

end Alike

theorem alike_single (t : Tick) (c : Control) (cmd : Cmd) :
    Alike (handleCmd t c cmd) (handleCmd (t.single cmd) c cmd) where
  mode := by
    rw [handleCmd_mode, handleCmd_mode]
    cases cmd <;> rfl
  cfg := by
    rw [handleCmd_cfg, handleCmd_cfg]
    cases cmd <;> rfl
  place := by
    rw [handleCmd_place, handleCmd_place]
    cases cmd <;> rfl

theorem alike_beginStep (t : Tick) (c : Control) : Alike c (beginStep t c) := by
  unfold beginStep
  split <;> exact ⟨rfl, rfl, rfl⟩

theorem readSensors_recipe (t : Tick) (c : Control) : (readSensors t c).recipe = c.recipe := by
  have same := congrArg Control.recipe (withoutReadings_readSensors t c)
  exact same

theorem alike_readSensors (t : Tick) (c : Control) : Alike c (readSensors t c) where
  mode := (act_mode t .read c).symm
  cfg := (act_cfg t .read c (by simp)).symm
  place := congrArg _ (readSensors_recipe t c).symm

theorem alike_applyRequest (t : Tick) (c : Control) (refused : accepted c.mode c.req = none) :
    Alike c (applyRequest t c) := by
  unfold applyRequest
  cases waiting : c.req with
  | none => exact ⟨rfl, rfl, rfl⟩
  | some r =>
      rw [waiting, accepted, Option.filter_eq_none_iff] at refused
      have refuses : refuses c.mode r.mode = true := by
        simpa using refused r rfl
      simp only [refuses, if_true]
      exact ⟨rfl, rfl, rfl⟩

/-- The state in which a step has taken its request. -/
def taken (t : Tick) (c : Control) : Control :=
  applyRequest t (readSensors t (drain t (beginStep t c)))

/-- A request that waits and is accepted stays so behind a command: the command
asks for nothing, is no Stop, and leaves a mode that accepts it. One that is
refused is replaced, dropped or refused still. -/
def Keeps (t : Tick) (cmd : Cmd) (b : Control) : Prop :=
  match b.req with
  | none => True
  | some r =>
      if refuses b.mode r.mode then
        asks b cmd ≠ none ∨ cmd = .stop ∨ refuses (modeAfter t b cmd) r.mode
      else asks b cmd = none ∧ cmd ≠ .stop ∧ refuses (modeAfter t b cmd) r.mode = false

instance (t : Tick) (cmd : Cmd) (b : Control) : Decidable (Keeps t cmd b) := by
  unfold Keeps
  split <;> infer_instance

/-- The commands of a queue disturb no request: in the drained batch, at `b`,
each one keeps the request that waits behind it. Drained one a step, at `s`, a
command behind an accepted request asks for nothing the mode accepts, and before
there is one the rest of the step stands still. -/
def Undisturbed (t : Tick) : List Cmd → Control → Control → Prop
  | [], _, _ => True
  | cmd :: cmds, b, s =>
      Keeps t cmd b ∧
        (accepted b.mode b.req ≠ none → accepted s.mode (asks s cmd) = none) ∧
        (accepted b.mode b.req = none → accepted s.mode (asks s cmd) = none →
          Alike (taken (t.single cmd) s) (controlStep (t.single cmd) s)) ∧
        Undisturbed t cmds (handleCmd t b cmd) (controlStep (t.single cmd) s)

section Batch

variable {t : Tick} {cmd : Cmd} {b s : Control}

theorem carriedOut_single (empty : s.req = none) :
    carriedOut (t.single cmd) s = accepted s.mode (asks s cmd) := by
  have begun := alike_beginStep (t.single cmd) s
  have mode : carriedOut (t.single cmd) s =
      accepted (modeAfter (t.single cmd) (beginStep (t.single cmd) s) cmd)
        (cmdReq (beginStep (t.single cmd) s) cmd) := by
    rw [← handleCmd_mode, ← handleCmd_req (t.single cmd)]
    exact congrArg₂ accepted (act_mode _ .read _) (act_req _ .read _)
  have slot : (beginStep (t.single cmd) s).req = none :=
    (act_req (t.single cmd) .begin s).trans empty
  rw [mode, cmdReq_eq, slot, ← begun.asks]
  cases asked : asks s cmd with
  | none => split <;> rfl
  | some r =>
      have notStop : cmd ≠ .stop := by
        rintro rfl
        cases asked
      rw [if_neg notStop, modeAfter_of_asks _ _ _ (begun.asks cmd ▸ asked), ← begun.mode]
      rfl

theorem accepted_kept (keeps : Keeps t cmd b) {r : Request}
    (waits : accepted b.mode b.req = some r) :
    accepted (handleCmd t b cmd).mode (handleCmd t b cmd).req = some r := by
  obtain ⟨waiting, fits⟩ := Option.filter_eq_some_iff.mp waits
  have fits : refuses b.mode r.mode = false := by simpa using fits
  simp only [Keeps, waiting, fits, Bool.false_eq_true, if_false] at keeps
  obtain ⟨silent, notStop, still⟩ := keeps
  rw [handleCmd_mode, handleCmd_req, cmdReq_eq, if_neg notStop, silent, waiting]
  simp [accepted, still]

theorem accepted_asked (keeps : Keeps t cmd b) (free : accepted b.mode b.req = none) :
    accepted (handleCmd t b cmd).mode (handleCmd t b cmd).req =
      accepted b.mode (asks b cmd) := by
  rw [handleCmd_mode, handleCmd_req, cmdReq_eq]
  cases asked : asks b cmd with
  | some r =>
      have notStop : cmd ≠ .stop := by
        rintro rfl
        cases asked
      rw [if_neg notStop, modeAfter_of_asks t b cmd asked]
      rfl
  | none =>
      split
      · rfl
      · next notStop =>
          cases waiting : b.req with
          | none => rfl
          | some r =>
              rw [waiting, accepted, Option.filter_eq_none_iff] at free
              have refused : refuses b.mode r.mode = true := by simpa using free r rfl
              simp only [Keeps, waiting, refused, if_true, asked] at keeps
              have still : refuses (modeAfter t b cmd) r.mode = true := by
                rcases keeps with other | stops | still
                · exact absurd rfl other
                · exact absurd stops notStop
                · exact still
              simp [accepted, still]

theorem alike_step (empty : s.req = none) (alike : Alike b s)
    (free : accepted s.mode (asks s cmd) = none)
    (still : Alike (taken (t.single cmd) s) (controlStep (t.single cmd) s)) :
    Alike (handleCmd t b cmd) (controlStep (t.single cmd) s) := by
  have begun := alike.trans (alike_beginStep (t.single cmd) s)
  have drained : Alike (handleCmd t b cmd) (drain (t.single cmd) (beginStep (t.single cmd) s)) :=
    (begun.handleCmd t cmd).trans (alike_single t _ cmd)
  have read := drained.trans (alike_readSensors (t.single cmd) _)
  refine (read.trans (alike_applyRequest (t.single cmd) _ ?_)).trans still
  exact (carriedOut_single empty).trans free

theorem accepted_drain {cmds : List Cmd} (empty : s.req = none)
    (alike : accepted b.mode b.req = none → Alike b s) (undisturbed : Undisturbed t cmds b s) :
    (accepted (cmds.foldl (handleCmd t) b).mode (cmds.foldl (handleCmd t) b).req).toList =
      (accepted b.mode b.req).toList ++ carriedOutAll (cmds.map t.single) s := by
  induction cmds generalizing b s with
  | nil => simp [carriedOutAll]
  | cons cmd cmds ih =>
      obtain ⟨keeps, quiet, still, rest⟩ := undisturbed
      have next := ih (controlStep_req (t.single cmd) s) ?_ rest
      · rw [List.foldl_cons, next, List.map_cons, carriedOutAll, carriedOut_single empty,
          ← List.append_assoc]
        congr 1
        cases waits : accepted b.mode b.req with
        | some r => rw [accepted_kept keeps waits, quiet (by rw [waits]; simp)]; rfl
        | none =>
            have same := alike waits
            rw [accepted_asked keeps waits, same.mode, same.asks]
            rfl
      · intro free
        cases waits : accepted b.mode b.req with
        | some r =>
            rw [accepted_kept keeps waits] at free
            cases free
        | none =>
            have same := alike waits
            rw [accepted_asked keeps waits, same.mode, same.asks] at free
            exact alike_step empty same free (still waits free)

end Batch

/-- The bench in Smoke, its light ended by the user. -/
def benchSmoke : Control :=
  run controlStep
    [benchTick [] 1 (some 100) [.mode .smoke 0 false],
      benchTick [] 2 (some 100) [.mode .smoke 0 true]] benchInit

theorem reachable_benchSmoke : Reachable 2 benchSmoke :=
  (reachable_benchInit.move (.step (benchTick [] 1 (some 100) [.mode .smoke 0 false]))
    (by decide) (by decide)).move
    (.step (benchTick [] 2 (some 100) [.mode .smoke 0 true])) (by decide)
    (by decide)

end PiFire
