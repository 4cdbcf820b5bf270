import PiFire.Restart.Books

/-!
# Where a light goes

Where a light hands over to is read from two fields, one for a Startup and one
for a Relight, and from the recipe that set them. Most phases of a step leave
all of it alone; this file says which, and what entering a mode and the
supervision do to it.
-/

namespace PiFire

/-- What decides where a light goes, and the recipe being run. -/
structure Heading where
  nextMode : Mode
  reigniteLast : Mode
  recipe : RecipeRun

/-- The heading of the control state. -/
def headingOf (c : Control) : Heading :=
  { nextMode := c.nextMode
    reigniteLast := c.safety.reigniteLast
    recipe := c.recipe }

/-- Stop forgets where a Startup goes, and a Startup where a Relight does. -/
def Heading.enter (m : Mode) (h : Heading) : Heading :=
  { h with
    nextMode := if m = .stop then .stop else h.nextMode
    reigniteLast := if m = .startup then .stop else h.reigniteLast }

/-- The heading is part of the books. -/
def Books.heading (b : Books) : Heading :=
  { nextMode := b.nextMode, reigniteLast := b.reigniteLast, recipe := b.recipe }

section Frame

variable (t : Tick) (c : Control)

@[simp]
theorem headingOf_mapRecipe (f : RecipeRun → RecipeRun) :
    headingOf (mapRecipe f c) = { headingOf c with recipe := f c.recipe } := rfl

@[simp]
theorem headingOf_setOutput (o : Output) (on : Bool) :
    headingOf (setOutput o on c) = headingOf c := rfl

@[simp]
theorem headingOf_setFanPct (pct : ℤ) : headingOf (setFanPct pct c) = headingOf c := rfl

@[simp]
theorem headingOf_autotuneFinish : headingOf (autotuneFinish c) = headingOf c := rfl

@[simp]
theorem headingOf_onStartupExit : headingOf (onStartupExit t c) = headingOf c := rfl

@[simp]
theorem headingOf_setError (fault : Fault) : headingOf (setError fault c) = headingOf c := rfl

theorem headingOf_enterMode (m : Mode) :
    headingOf (enterMode t m c) = (headingOf c).enter m := by
  have books := congrArg Books.heading (booksOf_enterMode t c m)
  cases m <;> exact books

end Frame

/-- The heading is read off what the quiet phases leave alone. -/
def Still.heading (s : Still) : Heading :=
  { nextMode := s.nextMode, reigniteLast := s.safety.reigniteLast, recipe := s.recipe }

theorem headingOf_of_still {c c' : Control} (same : stillOf c' = stillOf c) :
    headingOf c' = headingOf c :=
  congrArg Still.heading same

section Supervision

variable (t : Tick) (c : Control)

theorem headingOf_capIgniter : headingOf (capIgniter t c) = headingOf c := by
  simp only [capIgniter]
  split_ifs <;> rfl

theorem headingOf_safetyTick :
    headingOf (safetyTick t c).1 =
      if (safetyTick t c).2 = .reignite then { headingOf c with reigniteLast := c.mode }
      else headingOf c := by
  by_cases hot : overheated c = true
  · rw [safetyTick, if_pos hot]
    rfl
  · have judges := judges_safetyTick t c (by simpa using hot)
    rw [← headingOf_capIgniter t c, ← capIgniter_mode t c]
    generalize safetyTick t c = judged at judges ⊢
    cases judges with
    | calm igniter same =>
        have heading := congrArg headingOf same
        exact heading
    | fails auger igniter same =>
        have heading := congrArg headingOf same
        exact heading
    | relights same =>
        have heading := congrArg headingOf same
        exact heading

theorem headingOf_supervise :
    headingOf (supervise t c) =
      { headingOf c with
        reigniteLast :=
          if superviseEntry t c = some (.plain .reignite) then c.mode
          else c.safety.reigniteLast } := by
  have judged := headingOf_safetyTick t c
  rw [supervise, carryAction, superviseEntry]
  generalize safetyTick t c = left at judged ⊢
  obtain ⟨d, action⟩ := left
  cases action with
  | none => exact judged
  | error =>
      have before : headingOf d = headingOf c := judged
      simp only [headingOf_enterMode, before]
      rfl
  | reignite =>
      have before : headingOf d = { headingOf c with reigniteLast := c.mode } := judged
      simp only [headingOf_enterMode, before]
      rfl

end Supervision

section Timed

variable (t : Tick) (c : Control)

theorem headingOf_handOver : headingOf (handOver t c) = headingOf c := by
  have running := handoverMode_isRunning c
  unfold handOver
  extract_lets nm ended aimed
  have same : headingOf { aimed with sPlus := c.sPlus || c.cfg.splusDefault } = headingOf c := by
    change headingOf aimed = headingOf c
    unfold aimed
    split
    · unfold defaultSetpoint
      split <;> rfl
    · rfl
  rw [headingOf_enterMode, same]
  unfold nm
  cases mode : handoverMode c with
  | smoke | hold => rfl
  | _ =>
      rw [mode] at running
      cases running

theorem headingOf_timedTransition :
    headingOf (timedTransition t c) =
      match timedEntry t c with
      | none => headingOf c
      | some e =>
          if c.mode = .prime ∧ e.mode = .startup then
            Heading.enter .startup { headingOf c with nextMode := c.cfg.afterStartupMode }
          else (headingOf c).enter e.mode := by
  unfold timedTransition timedEntry
  cases mode : c.mode with
  | startup | reignite =>
      simp only
      split
      · have running := handoverMode_isRunning c
        rw [headingOf_handOver]
        cases next : handoverMode c with
        | smoke | hold => rfl
        | _ =>
            rw [next] at running
            cases running
      · rfl
  | shutdown =>
      simp only
      split
      · exact headingOf_enterMode t c .stop
      · rfl
  | prime =>
      simp only [endPrime]
      split
      · split
        · exact headingOf_enterMode t _ .startup
        · exact headingOf_enterMode t c .stop
      · rfl
  | error => exact headingOf_of_still (stillOf_errorFan t c)
  | _ => rfl

theorem headingOf_shutdownInput :
    headingOf (shutdownInput t c) =
      match inputEntry t c with
      | none => headingOf c
      | some e => (headingOf c).enter e.mode := by
  unfold shutdownInput inputEntry
  split
  · exact headingOf_enterMode t c _
  · rfl

end Timed

end PiFire
