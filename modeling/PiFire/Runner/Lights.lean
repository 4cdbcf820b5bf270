import PiFire.Runner.Owed
import PiFire.Runner.Sound
import PiFire.Safety.Verdict

/-!
# A light ends in the step that began during it

What a phase that neither begins a step nor redirects the light does to where
the light goes: nothing, but for a prime asked for while the grill is lit. With
that, a step that begins during a light gets its mode and its set point, in
exactly the lives in which no step begins during a Relight that goes back to
another mode, and no prime is asked for while a Startup owes another mode than
Smoke.
-/

namespace PiFire

open Transition

section Commands

variable {t : Tick} {c : Control}

theorem notHold_of_lighting (lit : c.mode.isLighting = true) : c.mode ≠ .hold := by
  intro hold
  rw [hold] at lit
  cases lit

theorem notLighting_of_running {m : Mode} (running : m.isRunning = true) :
    ¬m.isLighting = true := by
  cases m <;> first | decide | cases running

theorem bearingOf_manualOutput (t : Tick) (str : String) (on : Bool) (num : ℚ) (c : Control) :
    bearingOf (manualOutput t str on num c) = bearingOf c := by
  unfold manualOutput
  split
  · extract_lets until_
    split
    · rfl
    · split
      · unfold manualSwitch
        extract_lets blown switched
        have same : bearingOf blown = bearingOf c := by
          unfold blown
          split <;> rfl
        exact same
      · rfl
  · rfl

/-- A command that neither begins a step nor redirects a light, nor ends it,
leaves it alone; a prime does not. -/
theorem bearingOf_handleCmd {cmd : Cmd} (lit : c.mode.isLighting = true)
    (after : (handleCmd t c cmd).mode.isLighting = true)
    (still : begins t (.command cmd) c = none) (kept : redirects (.command cmd) c = false)
    (notPrime : ∀ num str, cmd ≠ .prime num str) :
    bearingOf (handleCmd t c cmd) = bearingOf c := by
  cases cmd with
  | stop =>
      have stopped : (commandStop t c).mode = .stop := enterMode_mode t .stop c
      rw [handleCmd, stopped] at after
      cases after
  | mode m num flag =>
      rw [handleCmd, commandMode] at after ⊢
      by_cases forced : forcesHandover c m flag = true
      · rw [if_pos forced, forceHandover, enterMode_mode] at after
        simp only [forcesHandover, Bool.and_eq_true] at forced
        exact absurd after (notLighting_of_running forced.2)
      · rw [if_neg forced]
        rfl
  | setpoint num =>
      have ignored : ¬num > 0 := by simpa [redirects] using kept
      rw [handleCmd, commandSetpoint, if_neg ignored]
  | dutyCycle num =>
      simp only [handleCmd]
      split <;> rfl
  | manualOutput str on num => exact bearingOf_manualOutput t str on num c
  | lidToggle => rw [handleCmd, lidToggle, if_neg (notHold_of_lighting lit)]
  | prime num str => exact absurd rfl (notPrime num str)
  | settingsChanged =>
      simp only [handleCmd, controlReloadSettings]
      split <;> rfl
  | clearError =>
      have calm : c.mode ≠ .error := by
        intro faulted
        rw [faulted] at lit
        cases lit
      rw [handleCmd, if_neg calm]
  | recipeStart num =>
      have calm : c.mode ≠ .error := by
        intro faulted
        rw [faulted] at lit
        cases lit
      have failed : (askedLoad t num).2 = false := by
        rw [askedLoad_snd, ← Bool.not_eq_true]
        intro has
        simp [begins, calm, has] at still
      rw [recipeStart_failed calm failed]
      rfl
  | recipeNext =>
      simp only [handleCmd, commandRecipeNext]
      split <;> rfl
  | recipeStop =>
      simp only [handleCmd]
      split <;> rfl
  | recipeSkip =>
      have inactive : ¬c.recipe.active = true := by
        intro active
        simp [begins, active] at still
      rw [handleCmd, commandRecipeSkip, if_neg inactive]
  | recipeBack =>
      have stays : ¬(c.recipe.active = true ∧ c.recipe.step > 0) := by
        intro going
        simp [begins, going] at still
      rw [handleCmd, commandRecipeBack, if_neg stays]
  | recipeFlag num num2 =>
      simp only [handleCmd, commandRecipeFlag]
      split <;> rfl
  | autotuneStart =>
      simp only [handleCmd, autotuneStart]
      split
      · split <;> rfl
      · rfl
  | autotuneStop =>
      simp only [handleCmd]
      split <;> rfl
  | _ => rfl

theorem bearingOf_applyRequest (kept : redirects .request c = false) :
    bearingOf (applyRequest t c) = bearingOf c := by
  unfold applyRequest
  cases asked : c.req with
  | none => rfl
  | some r =>
      simp only [redirects, asked, Option.any_some, Bool.or_eq_false_iff, Bool.not_eq_false',
        decide_eq_false_iff_not] at kept
      simp only [if_pos kept.1, if_neg kept.2]
      rfl

end Commands

section Phases

variable {t : Tick} {c : Control} {p : Phase}

theorem bearingOf_runNotify (lit : c.mode.isLighting = true)
    (after : (runNotify t c).mode.isLighting = true) :
    bearingOf (runNotify t c) = bearingOf c := by
  have quiet : notifyEntry t c = none := by
    cases entered : notifyEntry t c with
    | none => rfl
    | some e =>
        have mode : (runNotify t c).mode = e.mode := by
          have moved := act_mode t .notify c
          rw [phaseEntry, entered] at moved
          exact moved
        rw [mode] at after
        simp only [notifyEntry, actionEntry] at entered
        split at entered
        · cases entered
          cases after
        · split at entered
          · cases entered
            cases after
          · cases entered
  have notShut : ¬((tickNotify t c).pendingAction = afterShutdown ∧ c.mode.isFiring = true) := by
    intro shuts
    simp [notifyEntry, actionEntry, shuts] at quiet
  have notWarm : ¬((tickNotify t c).pendingAction = afterKeepwarm ∧ c.mode.isRunning = true) := by
    rintro ⟨-, running⟩
    exact notLighting_of_running running lit
  rw [runNotify, afterAction, if_neg notShut, if_neg notWarm]
  rfl

theorem bearingOf_weighStep (t : Tick) (c : Control) :
    bearingOf (weighStep t c).1 = bearingOf c := by
  have noticed : bearingOf (noticeLid c) = bearingOf c := by
    unfold noticeLid
    split <;> rfl
  have paused (c : Control) : bearingOf (endOrPause c).1 = bearingOf c := by
    unfold endOrPause
    split <;> rfl
  have weighed (c : Control) : bearingOf (weighEnds t c).1 = bearingOf c := by
    simp only [weighEnds]
    split
    · rfl
    · split <;> rfl
  simp only [weighStep]
  split
  · split
    · rw [paused, noticed]
    · exact noticed
  · split
    · exact noticed
    · split
      · rw [paused, noticed]
      · split
        · exact noticed
        · rw [weighed, noticed]

theorem bearingOf_runRecipe (still : begins t .recipe c = none) :
    bearingOf (runRecipe t c) = bearingOf c := by
  simp only [runRecipe]
  split
  · rfl
  · next active =>
      split
      · rfl
      · next calm =>
          have stays : ¬(weighStep t c).2 = true := by
            intro ended
            simp only [Bool.not_eq_eq_eq_not, Bool.not_true, Bool.not_eq_false] at active
            simp [begins, active, calm, ended] at still
          rw [if_neg stays]
          exact bearingOf_weighStep t c

theorem superviseEntry_lighting (lit : c.mode.isLighting = true) :
    superviseEntry t c ≠ some (.plain .reignite) := by
  intro relit
  have action : (safetyTick t c).2 = .reignite := by
    unfold superviseEntry at relit
    split at relit
    · cases relit
    · cases relit
    · assumption
  have verdict := verdict_safetyTick t c
  generalize safetyTick t c = judged at verdict action
  cases verdict with
  | overheat => cases action
  | blind =>
      unfold judgeProbe at action
      split at action
      · cases action
      · split at action
        · cases action
        · cases action
  | light =>
      rw [judgeLight_eq] at action
      split at action
      · cases action
      · cases action
  | unlit => cases action
  | cook _ _ running => exact notLighting_of_running running lit
  | idle => cases action

theorem bearingOf_act (lit : c.mode.isLighting = true)
    (after : (p.act t c).mode.isLighting = true) (still : begins t p c = none)
    (kept : redirects p c = false) (notPrime : ∀ num str, p ≠ .command (.prime num str))
    (notClamp : p ≠ .clampSp) : bearingOf (p.act t c) = bearingOf c := by
  cases p with
  | begin | read | idleHeat | lid | feed | fan | expire | close =>
      exact bearingOf_of_still (stillOf_quiet t c rfl)
  | command cmd =>
      exact bearingOf_handleCmd lit after still kept fun num str same =>
        notPrime num str (congrArg Phase.command same)
  | request => exact bearingOf_applyRequest kept
  | clampSp => exact absurd rfl notClamp
  | notify => exact bearingOf_runNotify lit after
  | recipe => exact bearingOf_runRecipe still
  | aftercare =>
      simp only [Phase.act, recipeAftercare]
      split <;> rfl
  | supervise =>
      have mode := act_mode t .supervise c
      have setpointC : (supervise t c).setpointC = c.setpointC := act_setpointC t .supervise c
      have heading := headingOf_supervise t c
      rw [if_neg (superviseEntry_lighting lit)] at heading
      have nextMode : (supervise t c).nextMode = c.nextMode := congrArg Heading.nextMode heading
      have reigniteLast : (supervise t c).safety.reigniteLast = c.safety.reigniteLast :=
        congrArg Heading.reigniteLast heading
      have stays : (supervise t c).mode = c.mode := by
        cases entered : superviseEntry t c with
        | none =>
            rw [phaseEntry, entered] at mode
            exact mode
        | some e =>
            rw [phaseEntry, entered] at mode
            rw [mode] at after
            unfold superviseEntry at entered
            split at entered
            · cases entered
            · cases entered
              cases after
            · next relit =>
                exact absurd (by rw [superviseEntry, relit]) (superviseEntry_lighting (t := t) lit)
      change bearingOf (supervise t c) = bearingOf c
      rw [bearingOf, stays, nextMode, reigniteLast, setpointC, bearingOf]
  | timed =>
      have waits : startupDone c = false := by
        rw [← Bool.not_eq_true]
        intro done
        have mode := act_mode t .timed c
        have entered : timedEntry t c = some (.plain (handoverMode c)) := by
          cases light : c.mode with
          | startup | reignite => simp [timedEntry, light, done]
          | _ =>
              rw [light] at lit
              cases lit
        rw [phaseEntry, entered] at mode
        rw [mode] at after
        exact notLighting_of_running (handoverMode_isRunning c) after
      have same : timedTransition t c = c := by
        cases light : c.mode with
        | startup | reignite => simp [timedTransition, light, waits]
        | _ =>
            rw [light] at lit
            cases lit
      exact congrArg bearingOf same
  | input =>
      have stays : ¬(t.shutdownInput = true ∧ c.mode ≠ .stop) := by
        intro pressed
        rw [Phase.act, shutdownInput, if_pos pressed, enterMode_mode] at after
        split at after
        · cases after
        · cases after
      rw [Phase.act, shutdownInput, if_neg stays]
  | checkpoint => rfl

end Phases

end PiFire
