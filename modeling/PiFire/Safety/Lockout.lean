import PiFire.Safety.Igniter

/-!
# The igniter after its cap

A trip of the cap locks the igniter, and the supervision of every later step
switches a locked igniter off again, whoever switched it on. Only entering a mode
takes the lock away: also the mode the grill is in.
-/

namespace PiFire

open Transition

/-- The cap trips in this step: the supervision finds the igniter on past its limit. -/
def igniterTrips (t : Tick) (c : Control) : Bool :=
  let found := beforeSupervision t c
  found.outputs.igniter && !found.safety.igniterLockedOut && found.safety.igniterOnSince != 0 &&
    t.now - found.safety.igniterOnSince > found.cfg.igniterMaxOnS

/-- The phase does not change the mode. -/
def modeStays (t : Tick) (p : Phase) (c : Control) : Bool :=
  (phaseEntry t p c).all (·.mode == c.mode)

/-- The phase does not enter the mode the grill is in already. -/
def entersNoSame (t : Tick) (p : Phase) (c : Control) : Bool :=
  (phaseEntry t p c).all (·.mode != c.mode)

/-- A locked igniter that is off. -/
def Relay.lockedOff (r : Relay) : Prop :=
  r.igniterLockedOut = true ∧ r.igniter = false

section Phases

variable {t : Tick} {p : Phase} {c : Control} {r : Relay}

theorem phaseEntry_none (stays : modeStays t p c = true) (apart : entersNoSame t p c = true) :
    phaseEntry t p c = none := by
  unfold modeStays at stays
  unfold entersNoSame at apart
  cases entered : phaseEntry t p c with
  | none => rfl
  | some e =>
      rw [entered, Option.all_some] at stays apart
      simp only [beq_iff_eq] at stays
      simp [stays] at apart

theorem effect_locked (enters : phaseEntry t p c = none)
    (locked : c.safety.igniterLockedOut = true) (moved : Effect t p c r) :
    r.igniterLockedOut = true := by
  cases moved with
  | enter entered =>
      rw [enters] at entered
      cases entered
  | read => exact locked
  | limits => exact locked
  | @byHand _ _ _ _ o => cases o <;> exact locked
  | lower => exact locked
  | judge =>
      change ((relayOf c).capIgniter t.now).igniterLockedOut = true
      unfold Relay.capIgniter
      repeat' split
      all_goals first | exact locked | rfl
  | @feed _ driven drives =>
      obtain ⟨auger, until_, capped⟩ := Relay.rest_cap_eq t.now driven
      rw [capped]
      rcases drives with rfl | rfl | ⟨rfl, -⟩
      all_goals exact locked

theorem Relay.capIgniter_lockedOff {now : ℚ} {r : Relay}
    (caps : r.igniterLockedOut = true ∨
      r.igniter = true ∧ r.igniterOnSince ≠ 0 ∧ now - r.igniterOnSince > r.cfg.igniterMaxOnS) :
    (r.capIgniter now).lockedOff := by
  unfold capIgniter
  by_cases on : r.igniter = true
  · rw [if_pos on]
    by_cases locked : r.igniterLockedOut = true
    · rw [if_pos locked]
      exact ⟨locked, rfl⟩
    · obtain ⟨-, stamped, past⟩ := caps.resolve_left locked
      rw [if_neg locked, if_neg stamped, if_pos past]
      exact ⟨rfl, rfl⟩
  · rw [if_neg on]
    exact ⟨caps.resolve_right fun capped => on capped.1, by simpa using on⟩

theorem supervise_lockedOff (enters : phaseEntry t .supervise c = none)
    (caps : c.safety.igniterLockedOut = true ∨
      c.outputs.igniter = true ∧ c.safety.igniterOnSince ≠ 0 ∧
        t.now - c.safety.igniterOnSince > c.cfg.igniterMaxOnS) :
    (relayOf (supervise t c)).lockedOff := by
  obtain ⟨locked, off⟩ := Relay.capIgniter_lockedOff (r := relayOf c) caps
  obtain ⟨igniter, judged, lit⟩ := relayOf_supervise_quiet t c enters
  rw [judged]
  refine ⟨locked, Bool.eq_false_iff.mpr fun on => ?_⟩
  rcases lit on with was | ⟨unlocked, -⟩
  · rw [off] at was
    cases was
  · rw [locked] at unlocked
    cases unlocked

theorem effect_lockedOff (notSupervise : p ≠ .supervise) (notCommand : ∀ cmd, p ≠ .command cmd)
    (enters : phaseEntry t p c = none) (rests : (relayOf c).lockedOff) (moved : Effect t p c r) :
    r.lockedOff := by
  refine ⟨effect_locked enters rests.1 moved, ?_⟩
  cases moved with
  | enter entered =>
      rw [enters] at entered
      cases entered
  | read => exact rests.2
  | limits => exact absurd rfl (notCommand _)
  | byHand => exact absurd rfl (notCommand _)
  | lower _ _ _ plain stays augerLower igniterLower =>
      refine Bool.eq_false_iff.mpr fun on => ?_
      have off : c.outputs.igniter = false := rests.2
      rw [igniterLower on] at off
      cases off
  | judge => exact absurd rfl notSupervise
  | @feed _ driven drives =>
      obtain ⟨auger, until_, capped⟩ := Relay.rest_cap_eq t.now driven
      rw [capped]
      rcases drives with rfl | rfl | ⟨rfl, -⟩
      all_goals exact rests.2

end Phases

section Steps

variable {t : Tick} {c : Control}

/-- No phase of the step changes the mode. -/
def ModeStays (t : Tick) (c : Control) : Prop :=
  Along (Phase.act t) (fun p c => modeStays t p c = true) (phases t) c

/-- No phase of the step enters the mode the grill is in already. -/
def EntersNoSame (t : Tick) (c : Control) : Prop :=
  Along (Phase.act t) (fun p c => entersNoSame t p c = true) (phases t) c

instance (t : Tick) (c : Control) : Decidable (ModeStays t c) :=
  inferInstanceAs (Decidable (Along _ _ _ _))

instance (t : Tick) (c : Control) : Decidable (EntersNoSame t c) :=
  inferInstanceAs (Decidable (Along _ _ _ _))

theorem closePhases_lockedOff
    (enters : Along (Phase.act t) (fun p c => phaseEntry t p c = none) closePhases c)
    (rests : (relayOf c).lockedOff) :
    (relayOf (run (Phase.act t) closePhases c)).lockedOff := by
  have order : ∀ p ∈ closePhases, p ≠ .supervise ∧ ∀ cmd, p ≠ .command cmd := by
    simp [closePhases]
  refine run_preserves
    (fun p c => (p ≠ .supervise ∧ ∀ cmd, p ≠ .command cmd) ∧ phaseEntry t p c = none)
    (fun c => (relayOf c).lockedOff) ?_ rests
    ((along_of_forall (fun p inside _ => order p inside) c).and enters)
  intro p c rests ok
  exact effect_lockedOff ok.1.1 ok.1.2 ok.2 rests (effect_act t p c)

theorem controlStep_lockedOff
    (enters : Along (Phase.act t) (fun p c => phaseEntry t p c = none) (phases t) c)
    (caps : c.safety.igniterLockedOut = true ∨ igniterTrips t c = true) :
    (relayOf (controlStep t c)).lockedOff := by
  have split : phases t = (drainPhases t ++ cookPhases) ++ (.supervise :: closePhases) := by
    rw [phases, List.append_assoc]
  rw [split, along_append, along_cons] at enters
  obtain ⟨before, judges, closes⟩ := enters
  have found : run (Phase.act t) (drainPhases t ++ cookPhases) c = beforeSupervision t c := by
    rw [run_append, beforeSupervision]
  rw [found] at judges closes
  have capped : (relayOf (supervise t (beforeSupervision t c))).lockedOff := by
    apply supervise_lockedOff judges
    rcases caps with locked | trips
    · left
      rw [← found]
      refine run_preserves (fun p c => phaseEntry t p c = none)
        (fun c => c.safety.igniterLockedOut = true) ?_ locked before
      intro p c locked enters
      exact effect_locked enters locked (effect_act t p c)
    · right
      simp only [igniterTrips, Bool.and_eq_true, bne_iff_ne, ne_eq, decide_eq_true_eq] at trips
      exact ⟨trips.1.1.1, trips.1.2, trips.2⟩
  rw [controlStep_eq_supervise]
  exact closePhases_lockedOff closes capped

theorem enters_none (stays : ModeStays t c) (apart : EntersNoSame t c) :
    Along (Phase.act t) (fun p c => phaseEntry t p c = none) (phases t) c :=
  (Along.and stays apart).mono fun _ _ _ ok => phaseEntry_none ok.1 ok.2

end Steps

/-- Once the cap trips, the igniter is off at the end of that step and of every later
one until the mode changes, in a run that does not enter the mode it is in. -/
theorem igniter_stays_off {t : Tick} {c : Control} (trips : igniterTrips t c = true)
    (later : List Tick) (stays : Along controlStep ModeStays (t :: later) c)
    (apart : Along controlStep EntersNoSame (t :: later) c) :
    Throughout controlStep (fun c => c.outputs.igniter = false) (t :: later) c := by
  have enters := (stays.and apart).mono fun _ _ _ ok => enters_none ok.1 ok.2
  have tripped := controlStep_lockedOff enters.1 (Or.inr trips)
  refine ⟨tripped.2, ?_⟩
  refine Along.strengthen (fun c => (relayOf c).lockedOff) ?_ ?_ tripped enters.2
  · exact fun t c rests enters => controlStep_lockedOff enters (Or.inl rests.1)
  · exact fun t c rests enters => (controlStep_lockedOff enters (Or.inl rests.1)).2

/-- The bench being lit, before the cap of ten seconds trips. -/
def benchHeating : Control :=
  run controlStep [benchTick [] 5 (some 20) []] benchLit

/-- The lit bench trips the cap at 17, and stays dark although the user asks for the
igniter. -/
theorem igniter_stays_off_on_bench :
    Throughout controlStep (fun c => c.outputs.igniter = false)
      [benchTick [] 17 (some 20) [], benchTick [] 21 (some 20) [.manualOutput "igniter" true 0]]
      benchHeating :=
  igniter_stays_off (t := benchTick [] 17 (some 20) []) (by decide +kernel)
    [benchTick [] 21 (some 20) [.manualOutput "igniter" true 0]] (by decide +kernel)
    (by decide +kernel)

/-- Asking for Startup again in Startup brings the igniter back after a trip. -/
theorem igniter_comes_back :
    ¬∀ (time : ℚ) (c : Control), Reachable time c → ∀ (t : Tick) (later : List Tick),
      (time :: (t :: later).map Tick.now).IsChain (· ≤ ·) → igniterTrips t c = true →
      Along controlStep ModeStays (t :: later) c →
        Throughout controlStep (fun c => c.outputs.igniter = false) (t :: later) c := by
  intro always
  have reached : Reachable 5 benchHeating :=
    reachable_benchLit.move (.step (benchTick [] 5 (some 20) [])) (by decide)
      (by decide)
  have dark := always 5 benchHeating reached (benchTick [] 17 (some 20) [])
    [benchTick [] 21 (some 20) [.mode .startup 0 false]] (by decide +kernel) (by decide +kernel)
    (by decide +kernel)
  exact absurd dark (by decide +kernel)

end PiFire
