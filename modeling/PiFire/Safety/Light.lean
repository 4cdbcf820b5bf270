import PiFire.Safety.Fault

/-!
# Lighting before cooking

Smoke and Hold feed a fire that is burning. From a mode in which nothing burns
under control they are reached through a light, and a light gives way to them
when it is proven or when the user says so. The one way around the light is the
one out of Error: a recipe command of the tick after a fault.
-/

namespace PiFire

open Transition

theorem Mode.isRunning_of_not {m : Mode} (notIdle : ¬m.isIdle = true)
    (notLighting : ¬m.isLighting = true) (notError : m ≠ .error) : m.isRunning = true := by
  cases m <;>
    first
      | rfl
      | exact absurd rfl notIdle
      | exact absurd rfl notLighting
      | exact absurd rfl notError

/-- A phase that takes the grill to Smoke or Hold from another mode finds it
being lit, and either the light is done or the user hands it over. -/
def LitFirst (t : Tick) (p : Phase) (c : Control) : Prop :=
  (p.act t c).mode.isRunning → c.mode.isRunning = false →
    c.mode.isLighting ∧
      (p = .timed ∧ startupDone c ∨ ∃ m num, p = .command (.mode m num true))

/-- Every change of mode within a step lights first. -/
def StepLitFirst (t : Tick) (c : Control) : Prop :=
  Along (Phase.act t) (LitFirst t) (phases t) c

/-- A recipe command drained in Error while the recipe is active that begins a
Smoke or a Hold step. -/
def cooksFromError (p : Phase) (c : Control) : Bool :=
  match p with
  | .command .recipeSkip =>
      c.mode == .error && c.recipe.active &&
        (advanceEntry c.mode c.recipe).any (·.mode.isRunning)
  | .command .recipeBack =>
      c.mode == .error && c.recipe.active && c.recipe.step > 0 &&
        (beginEntry c.mode { c.recipe with step := c.recipe.step - 1 }).any (·.mode.isRunning)
  | _ => false

/-- No command of the step cooks from Error. -/
def LightsFromError (t : Tick) (c : Control) : Prop :=
  Along (Phase.act t) (fun p c => cooksFromError p c = false) (phases t) c

section Entries

variable {t : Tick} {c : Control} {e : Entry}

theorem switchEntry_running {mode stepMode : Mode} (entered : switchEntry mode stepMode = some e)
    (cooks : e.mode.isRunning = true) (notRunning : mode.isRunning = false) : mode = .error := by
  cases stepMode with
  | smoke | hold =>
      cases mode <;>
        first
          | rfl
          | (cases entered; done)
          | (cases entered; cases cooks; done)
          | cases notRunning
  | startup =>
      simp only [switchEntry] at entered
      split at entered <;> cases entered
      cases cooks
  | shutdown | stop =>
      cases entered
      cases cooks
  | monitor | prime | reignite | manual | error => cases entered

theorem beginEntry_running {mode : Mode} {run : RecipeRun} (entered : beginEntry mode run = some e)
    (cooks : e.mode.isRunning = true) (notRunning : mode.isRunning = false) : mode = .error := by
  simp only [beginEntry] at entered
  split at entered
  · cases entered
  · exact switchEntry_running entered cooks notRunning

theorem advanceEntry_running {mode : Mode} {run : RecipeRun}
    (entered : advanceEntry mode run = some e) (cooks : e.mode.isRunning = true)
    (notRunning : mode.isRunning = false) : mode = .error := by
  simp only [advanceEntry] at entered
  split at entered
  · cases entered
  · exact beginEntry_running entered cooks notRunning

/-- A command goes to Smoke or Hold past the light only as a handover by the
user, or by a recipe command in Error. -/
theorem cmdEntry_running {cmd : Cmd} (entered : cmdEntry t c cmd = some e)
    (cooks : e.mode.isRunning = true) (notRunning : c.mode.isRunning = false) :
    (c.mode.isLighting ∧ ∃ m num, cmd = .mode m num true) ∨
      cooksFromError (.command cmd) c = true := by
  cases cmd with
  | stop =>
      cases entered
      cases cooks
  | mode m num flag =>
      left
      simp only [cmdEntry] at entered
      split at entered
      · next forced =>
          simp only [forcesHandover, Bool.and_eq_true] at forced
          exact ⟨forced.1.2, m, num, by rw [forced.1.1]⟩
      · cases entered
  | prime num str =>
      simp only [cmdEntry] at entered
      split at entered <;> cases entered
      cases cooks
  | clearError =>
      simp only [cmdEntry] at entered
      split at entered <;> cases entered
      cases cooks
  | recipeStart num =>
      simp only [cmdEntry] at entered
      split at entered
      · next accepted => exact absurd (beginEntry_running entered cooks notRunning) accepted.1
      · cases entered
  | recipeSkip =>
      right
      simp only [cmdEntry] at entered
      split at entered
      · next active =>
          have faulted := advanceEntry_running entered cooks notRunning
          simp only [cooksFromError, Bool.and_eq_true, beq_iff_eq]
          exact ⟨⟨faulted, active⟩, by rw [entered]; exact cooks⟩
      · cases entered
  | recipeBack =>
      right
      simp only [cmdEntry] at entered
      split at entered
      · next active =>
          have faulted := beginEntry_running entered cooks notRunning
          simp only [cooksFromError, Bool.and_eq_true, beq_iff_eq, decide_eq_true_eq]
          exact ⟨⟨⟨faulted, active.1⟩, active.2⟩, by rw [entered]; exact cooks⟩
      · cases entered
  | _ => cases entered

theorem requestEntry_running (entered : requestEntry c = some e)
    (cooks : e.mode.isRunning = true) : c.mode.isRunning = true := by
  unfold requestEntry at entered
  split at entered
  · cases entered
  · next r waiting =>
      split at entered
      · cases entered
      · next accepted =>
          cases asked : r.mode with
          | smoke | hold =>
              simp only [carriedEntry, asked] at entered
              split at entered
              · cases entered
                cases cooks
              · next notIdle =>
                  split at entered
                  · cases entered
                  · next notLighting =>
                      refine Mode.isRunning_of_not notIdle (fun lighting => ?_) fun faulted => ?_
                      · exact notLighting (Or.inr lighting)
                      · exact accepted (by rw [asked, faulted]; rfl)
          | startup =>
              simp only [carriedEntry, asked] at entered
              split at entered <;> cases entered <;> cases cooks
          | stop | monitor | prime | reignite | shutdown | manual | error =>
              simp only [carriedEntry, asked, Option.some.injEq] at entered
              rw [← entered] at cooks
              cases cooks

theorem timedEntry_running (entered : timedEntry t c = some e) (cooks : e.mode.isRunning = true) :
    c.mode.isLighting ∧ startupDone c := by
  unfold timedEntry at entered
  split at entered
  · next mode =>
      split at entered
      · next done => exact ⟨by rw [mode]; rfl, done⟩
      · cases entered
  · next mode =>
      split at entered
      · next done => exact ⟨by rw [mode]; rfl, done⟩
      · cases entered
  · split at entered <;> cases entered
    cases cooks
  · split at entered
    · cases entered
      split at cooks <;> cases cooks
    · cases entered
  · cases entered

end Entries

theorem litFirst_iff (t : Tick) (p : Phase) (c : Control) :
    LitFirst t p c ↔ cooksFromError p c = false := by
  unfold LitFirst
  rw [act_mode]
  constructor
  · intro lit
    by_contra cooks
    rw [Bool.not_eq_false] at cooks
    have entered : c.mode = .error ∧ ((phaseEntry t p c).any (·.mode.isRunning)) = true := by
      unfold cooksFromError at cooks
      split at cooks
      · simp only [Bool.and_eq_true, beq_iff_eq] at cooks
        refine ⟨cooks.1.1, ?_⟩
        rw [phaseEntry, cmdEntry, if_pos cooks.1.2]
        exact cooks.2
      · simp only [Bool.and_eq_true, beq_iff_eq, decide_eq_true_eq] at cooks
        refine ⟨cooks.1.1.1, ?_⟩
        rw [phaseEntry, cmdEntry, if_pos ⟨cooks.1.1.2, cooks.1.2⟩]
        exact cooks.2
      · cases cooks
    obtain ⟨faulted, running⟩ := entered
    obtain ⟨e, into, cooks⟩ := (Option.any_eq_true _ _).mp running
    rw [into] at lit
    have lighting := (lit cooks (by rw [faulted]; rfl)).1
    rw [faulted] at lighting
    cases lighting
  · intro honest cooks notRunning
    cases entered : phaseEntry t p c with
    | none =>
        rw [entered] at cooks
        exact absurd cooks (by simp [notRunning])
    | some e =>
        rw [entered] at cooks
        replace cooks : e.mode.isRunning = true := cooks
        cases p with
        | command cmd =>
            rcases cmdEntry_running entered cooks notRunning with ⟨lighting, m, num, rfl⟩ | fires
            · exact ⟨lighting, Or.inr ⟨m, num, rfl⟩⟩
            · rw [honest] at fires
              cases fires
        | request =>
            rw [requestEntry_running entered cooks] at notRunning
            cases notRunning
        | notify =>
            simp only [phaseEntry, notifyEntry, actionEntry] at entered
            split at entered
            · cases entered
              cases cooks
            · split at entered
              · next warms =>
                  rw [warms.2.1] at notRunning
                  cases notRunning
              · cases entered
        | recipe =>
            simp only [phaseEntry, recipeEntry] at entered
            split at entered
            · next runs => exact absurd (advanceEntry_running entered cooks notRunning) runs.2.1
            · cases entered
        | supervise =>
            simp only [phaseEntry, superviseEntry] at entered
            split at entered <;> cases entered <;> cases cooks
        | timed =>
            obtain ⟨lighting, done⟩ := timedEntry_running entered cooks
            exact ⟨lighting, Or.inl ⟨rfl, done⟩⟩
        | input =>
            simp only [phaseEntry, inputEntry] at entered
            split at entered
            · cases entered
              split at cooks <;> cases cooks
            · cases entered
        | _ => cases entered

/-- In every run, every change of mode lights first exactly when no recipe
command drained in Error begins a Smoke or a Hold step. -/
theorem cooking_is_lit_first (ticks : List Tick) (c : Control) :
    Along controlStep StepLitFirst ticks c ↔ Along controlStep LightsFromError ticks c :=
  along_congr fun t _ _ => along_congr fun p c _ => litFirst_iff t p c

/-- Skipping the step of a faulted recipe goes from Error straight to Hold. -/
theorem recipeSkip_cooks_unlit :
    ¬∀ (time : ℚ) (c : Control), Reachable time c → ∀ ticks : List Tick,
      Along controlStep StepLitFirst ticks c := by
  intro always
  have lit := always 2 benchFault reachable_benchFault
    [benchTick twoHolds 3 (some 100) [.recipeSkip]]
  have skipped := lit.1.2.1 (by decide +kernel) (by decide +kernel)
  exact absurd skipped.1 (by decide +kernel)

end PiFire
