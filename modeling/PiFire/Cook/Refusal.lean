import PiFire.Cook.Batch

/-!
# Refused commands

A command that asks for a mode, a prime or a move of the recipe is refused in
the wrong mode, or without a recipe to move. Some of the handlers write first
and are refused later. This file says what a refused command leaves behind.
-/

namespace PiFire

/-- What a refused command has no business to change. -/
structure Standing where
  setpointC : ℚ
  nextMode : Mode
  primeAmountG : ℚ
  /-- The recipe that runs. -/
  running : Option RecipeRun
  outputs : Outputs

/-- What stands in a state. -/
def standingOf (c : Control) : Standing :=
  { setpointC := c.setpointC
    nextMode := c.nextMode
    primeAmountG := c.primeAmountG
    running := if c.recipe.active then some c.recipe else none
    outputs := c.outputs }

/-- The recipe a start loads, and whether it succeeds. -/
def startLoad (t : Tick) (num : ℚ) : Recipe × Bool :=
  recipeLoad t.services.recipes (settingsUnits t.settings) (truncate num)

/-- A mode, prime or recipe command that is refused in the state it finds. -/
def refused (t : Tick) (c : Control) : Cmd → Bool
  | .mode m _ flag => !forcesHandover c m flag && refuses c.mode m
  | .prime _ _ => c.mode != .stop && c.mode != .monitor
  | .recipeStart num => c.mode == .error || !(startLoad t num).2
  | .recipeNext | .recipeStop | .recipeSkip => !c.recipe.active
  | .recipeBack => !(c.recipe.active && c.recipe.step > 0)
  | .recipeFlag num _ =>
      !(c.recipe.active && 0 ≤ truncate num && truncate num < c.recipe.r.nsteps &&
        truncate num < recipeMaxSteps)
  | _ => false

/-- What a refused command would write stands already: no other set point comes
with a mode, a prime has the amount and the mode to go to, and no recipe runs
that a failed load would clear. -/
def WritesNothing (t : Tick) (c : Control) : Cmd → Prop
  | .mode _ num _ => num > 0 → toC num c.cfg.units > 0 → toC num c.cfg.units = c.setpointC
  | .prime num str =>
      num = c.primeAmountG ∧ (if strcasecmp str "Startup" then .startup else .stop) = c.nextMode
  | .recipeStart num => c.mode ≠ .error → c.recipe.active → (startLoad t num).1 = c.recipe.r
  | _ => True

section Frame

variable (t : Tick) (c : Control)

theorem standingOf_beginStep : standingOf (beginStep t c) = standingOf c := by
  unfold beginStep
  split <;> rfl

theorem standingOf_readSensors : standingOf (readSensors t c) = standingOf c := by
  have same := congrArg standingOf (withoutReadings_readSensors t c)
  exact same

theorem standingOf_applyRequest {r : Request} (waiting : c.req = some r)
    (refused : refuses c.mode r.mode = true) :
    standingOf (applyRequest t c) =
      { standingOf c with
        setpointC := if r.setpointC > 0 then r.setpointC else c.setpointC } := by
  simp only [applyRequest, waiting, refused, if_true]
  rfl

theorem standingOf_quiet (empty : c.req = none) :
    standingOf (applyRequest t (readSensors t c)) = standingOf c := by
  have slot : (readSensors t c).req = none := (act_req t .read c).trans empty
  have same : applyRequest t (readSensors t c) = readSensors t c := by
    simp only [applyRequest, slot]
  rw [same, standingOf_readSensors]

end Frame

section Refused

variable {t : Tick} {c : Control}

theorem refusedMode_iff {m : Mode} {num : ℚ} {flag : Bool}
    (no : refused t c (.mode m num flag)) :
    standingOf (applyRequest t (readSensors t (commandMode t m num flag c))) = standingOf c ↔
      WritesNothing t c (.mode m num flag) := by
  simp only [refused, Bool.and_eq_true, Bool.not_eq_true'] at no
  obtain ⟨unforced, refused⟩ := no
  let asked := controlRequest m (if num > 0 then toC num c.cfg.units else 0) c
  have made : commandMode t m num flag c = asked := by
    rw [commandMode, unforced]
    rfl
  have mode : (readSensors t asked).mode = c.mode := act_mode t .read asked
  have aim : (readSensors t asked).setpointC = c.setpointC := act_setpointC t .read asked
  have slot : (readSensors t asked).req = asked.req := act_req t .read asked
  rw [made, standingOf_applyRequest t _ slot (by rw [mode]; exact refused),
    standingOf_readSensors, aim]
  have stands (sp : ℚ) :
      ({ standingOf asked with setpointC := sp } : Standing) = standingOf c ↔
        sp = c.setpointC := by
    simp [standingOf, asked, controlRequest]
  rw [stands]
  simp only [WritesNothing]
  by_cases given : num > 0
  · by_cases positive : toC num c.cfg.units > 0
    · simp only [given, positive, if_true, forall_const]
    · simp [given, positive]
  · simp [given]

theorem refusedPrime_iff {num : ℚ} {str : String} (no : refused t c (.prime num str))
    (empty : c.req = none) :
    standingOf (applyRequest t (readSensors t (commandPrime t num str c))) = standingOf c ↔
      WritesNothing t c (.prime num str) := by
  have notIdle : ¬(c.mode = .stop ∨ c.mode = .monitor) := by
    simpa [refused, not_or] using no
  let written := { c with
    primeAmountG := num
    nextMode := if strcasecmp str "Startup" then .startup else .stop }
  have made : commandPrime t num str c = written := if_neg notIdle
  rw [made, standingOf_quiet t written empty]
  simp only [standingOf, written, Standing.mk.injEq, WritesNothing]
  constructor
  · rintro ⟨-, next, amount, -⟩
    exact ⟨amount, next⟩
  · rintro ⟨amount, next⟩
    exact ⟨trivial, next, amount, trivial, trivial⟩

theorem refusedStart_iff {num : ℚ} (no : refused t c (.recipeStart num)) (empty : c.req = none) :
    standingOf (applyRequest t (readSensors t (commandRecipeStart t num c))) = standingOf c ↔
      WritesNothing t c (.recipeStart num) := by
  by_cases faulted : c.mode = .error
  · have same : commandRecipeStart t num c = c := if_pos faulted
    rw [same, standingOf_quiet t c empty]
    simp [WritesNothing, faulted]
  · have failed : (startLoad t num).2 = false := by
      simpa [refused, faulted] using no
    let stored := { c with recipe := { c.recipe with r := (startLoad t num).1 } }
    have made : commandRecipeStart t num c = stored := by
      unfold startLoad at failed
      simp only [commandRecipeStart, if_neg faulted, failed, Bool.false_eq_true, if_false]
      rfl
    rw [made, standingOf_quiet t stored empty]
    simp only [standingOf, stored, Standing.mk.injEq, WritesNothing, true_and, and_true,
      faulted, ne_eq, not_false_eq_true, forall_const]
    by_cases active : c.recipe.active = true
    · simp only [active, if_true, Option.some.injEq, forall_const]
      constructor
      · intro same
        exact congrArg RecipeRun.r same
      · intro same
        rw [same, ← active]
    · simp [active]

theorem refused_elsewhere {cmd : Cmd} (no : refused t c cmd)
    (recipe : cmd = .recipeNext ∨ cmd = .recipeStop ∨ cmd = .recipeSkip ∨ cmd = .recipeBack ∨
      ∃ num num2, cmd = .recipeFlag num num2) :
    handleCmd t c cmd = c := by
  rcases recipe with rfl | rfl | rfl | rfl | ⟨num, num2, rfl⟩
  · have inactive : c.recipe.active = false := by simpa [refused] using no
    simp [handleCmd, commandRecipeNext, inactive]
  · have inactive : c.recipe.active = false := by simpa [refused] using no
    simp [handleCmd, inactive]
  · have inactive : c.recipe.active = false := by simpa [refused] using no
    simp [handleCmd, commandRecipeSkip, inactive]
  · have still : ¬(c.recipe.active = true ∧ c.recipe.step > 0) := by
      rintro ⟨active, later⟩
      simp [refused, active] at no
      omega
    simp only [handleCmd, commandRecipeBack, if_neg still]
  · have outside : ¬(c.recipe.active = true ∧ 0 ≤ truncate num ∧
        truncate num < c.recipe.r.nsteps ∧ truncate num < recipeMaxSteps) := by
      rintro ⟨active, above, inside, flagged⟩
      simp [refused, active] at no
      omega
    simp only [handleCmd, commandRecipeFlag, if_neg outside]

/-- A refused command leaves what stands exactly when it would write nothing
new, in a state without a pending request. -/
theorem refused_iff {cmd : Cmd} (no : refused t c cmd) (empty : c.req = none) :
    standingOf (applyRequest t (readSensors t (handleCmd t c cmd))) = standingOf c ↔
      WritesNothing t c cmd := by
  have untouched (same : handleCmd t c cmd = c) :
      standingOf (applyRequest t (readSensors t (handleCmd t c cmd))) = standingOf c := by
    rw [same, standingOf_quiet t c empty]
  cases cmd with
  | mode m num flag => exact refusedMode_iff no
  | prime num str => exact refusedPrime_iff no empty
  | recipeStart num => exact refusedStart_iff no empty
  | recipeNext | recipeStop | recipeSkip | recipeBack =>
      exact iff_of_true (untouched (refused_elsewhere no (by simp))) trivial
  | recipeFlag num num2 =>
      exact iff_of_true (untouched (refused_elsewhere no (by simp))) trivial
  | _ => cases no

end Refused

/-- A refused command, alone in the queue, leaves the set point, the mode to go
to after lighting, the prime amount, the running recipe and the outputs exactly
when what it would write stands already. -/
theorem refused_leaves_standing {time : ℚ} {c : Control} (reached : Reachable time c) {t : Tick}
    {cmd : Cmd} (alone : t.cmds = [cmd]) (no : refused t c cmd) :
    standingOf (taken t c) = standingOf c ↔ WritesNothing t c cmd := by
  have empty : (beginStep t c).req = none := (act_req t .begin c).trans reached.req_none
  have drained : drain t (beginStep t c) = handleCmd t (beginStep t c) cmd := by
    rw [drain, alone]
    rfl
  have begun : refused t (beginStep t c) cmd = refused t c cmd ∧
      (WritesNothing t (beginStep t c) cmd ↔ WritesNothing t c cmd) := by
    unfold beginStep
    split
    · cases cmd <;> exact ⟨rfl, Iff.rfl⟩
    · exact ⟨rfl, Iff.rfl⟩
  rw [taken, drained, ← standingOf_beginStep t c, refused_iff (begun.1.trans no) empty, begun.2]

/-- The bench lit for a Hold. -/
def benchLitForHold : Control :=
  controlStep (benchTick [] 1 (some 20) [.mode .hold 225 false]) benchInit

theorem reachable_benchLitForHold : Reachable 1 benchLitForHold :=
  reachable_benchInit.move (.step (benchTick [] 1 (some 20) [.mode .hold 225 false]))
    (by decide) (by decide)

/-- Manual, refused while the grill is lit, leaves everything. -/
theorem refused_leaves_standing_on_bench :
    standingOf (taken (benchTick [] 2 (some 20) [.mode .manual 0 false]) benchLitForHold) =
      standingOf benchLitForHold := by
  have refused : refused (benchTick [] 2 (some 20) [.mode .manual 0 false]) benchLitForHold
      (.mode .manual 0 false) := by
    decide +kernel
  apply (refused_leaves_standing reachable_benchLitForHold rfl refused).mpr
  intro positive
  exact absurd positive (by decide)

/-- A prime refused while the grill is lit for a Hold leaves it lit for nothing. -/
theorem prime_forgets_hold :
    ¬∀ (time : ℚ) (c : Control), Reachable time c → ∀ (t : Tick) (cmd : Cmd), t.cmds = [cmd] →
      refused t c cmd → standingOf (taken t c) = standingOf c := by
  intro always
  have same := always 1 benchLitForHold reachable_benchLitForHold
    (benchTick [] 2 (some 20) [.prime 20 ""]) (.prime 20 "") rfl (by decide +kernel)
  exact absurd (congrArg Standing.nextMode same) (by decide +kernel)

end PiFire
