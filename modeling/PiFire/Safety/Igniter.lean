import PiFire.Safety.Fault
import PiFire.Transition.Sampled

/-!
# The igniter's cap over a run

The cap compares the time with a stamp that the first tick with the igniter on
sets. Entering a mode clears the stamp, and so does a tick that finds the igniter
off. While nothing lights the igniter on a cleared stamp, the igniter is never on
for longer than its limit and one tick.
-/

namespace PiFire

open Transition

/-- The igniter's stamp, when one is set. -/
def igniterStamp (c : Control) : Option ℚ :=
  if c.safety.igniterOnSince = 0 then none else some c.safety.igniterOnSince

/-- A phase that lights the igniter on a cleared stamp: it enters a mode that
lights, or a manual command or the supervision finds the igniter off and
switches it on. -/
def lights (t : Tick) (p : Phase) (c : Control) : Bool :=
  match phaseEntry t p c with
  | some e => e.lights
  | none =>
      match p with
      | .command (.manualOutput str on _) =>
          on && namedOutput str == some .igniter && acceptsManual c && !c.outputs.igniter &&
            c.safety.igniterOnSince == 0
      | .supervise => !c.outputs.igniter && (supervise t c).outputs.igniter
      | _ => false

/-- A step in which nothing lights the igniter on a cleared stamp. Before the
supervision this matters only when the step begins with the stamp set. -/
structure KeepsIgniterStamp (t : Tick) (c : Control) : Prop where
  before : c.safety.igniterOnSince ≠ 0 →
    Along (Phase.act t) (fun p c => lights t p c = false) (drainPhases t ++ cookPhases) c
  after : Along (Phase.act t) (fun p c => lights t p c = false) (.supervise :: closePhases)
    (beforeSupervision t c)

instance (t : Tick) (c : Control) : Decidable (KeepsIgniterStamp t c) :=
  decidable_of_iff
    ((c.safety.igniterOnSince ≠ 0 →
        Along (Phase.act t) (fun p c => lights t p c = false) (drainPhases t ++ cookPhases) c) ∧
      Along (Phase.act t) (fun p c => lights t p c = false) (.supervise :: closePhases)
        (beforeSupervision t c))
    ⟨fun keeps => ⟨keeps.1, keeps.2⟩, fun keeps => ⟨keeps.before, keeps.after⟩⟩

/-- The stamp is `begun`, or it is cleared and the igniter off. -/
def Relay.onSince (begun : ℚ) (r : Relay) : Prop :=
  r.igniterOnSince = begun ∨ r.igniterOnSince = 0 ∧ r.igniter = false

/-- The same, and the igniter on only within its limit. -/
def Relay.onWithin (now begun : ℚ) (r : Relay) : Prop :=
  r.igniterOnSince = begun ∧ (r.igniter = true → now - begun ≤ r.cfg.igniterMaxOnS) ∨
    r.igniterOnSince = 0 ∧ r.igniter = false

section Phases

variable {t : Tick} {p : Phase} {c : Control} {r : Relay} {begun : ℚ}

theorem lights_enter {e : Entry} (entered : phaseEntry t p c = some e)
    (dark : lights t p c = false) : e.lights = false := by
  simpa [lights, entered] using dark

theorem effect_onSince (notSupervise : p ≠ .supervise) (dark : lights t p c = false)
    (since : (relayOf c).onSince begun) (moved : Effect t p c r) : r.onSince begun := by
  cases moved with
  | enter entered => exact Or.inr ⟨rfl, lights_enter entered dark⟩
  | read => exact since
  | limits => exact since
  | @byHand str on num _ o named accepted =>
      cases o with
      | igniter =>
          rcases since with same | ⟨cleared, off⟩
          · exact Or.inl same
          · right
            refine ⟨cleared, Bool.eq_false_iff.mpr fun lit => ?_⟩
            replace lit : on = true := lit
            change c.safety.igniterOnSince = 0 at cleared
            change c.outputs.igniter = false at off
            simp [lights, phaseEntry, cmdEntry, lit, named, accepted, off, cleared] at dark
      | power | fan | auger => exact since
  | lower _ _ _ plain stays augerLower igniterLower =>
      refine since.imp id fun cleared => ⟨cleared.1, Bool.eq_false_iff.mpr fun on => ?_⟩
      have off : c.outputs.igniter = false := cleared.2
      rw [igniterLower on] at off
      cases off
  | judge => exact absurd rfl notSupervise
  | @feed _ driven drives =>
      obtain ⟨auger, until_, capped⟩ := Relay.rest_cap_eq t.now driven
      rw [capped]
      rcases drives with rfl | rfl | ⟨rfl, -⟩
      all_goals exact since

theorem Relay.capIgniter_onWithin {now : ℚ} (r : Relay) (on : r.igniter = true)
    (since : r.igniterOnSince = begun ∧ begun ≠ 0 ∨ r.igniterOnSince = 0 ∧ begun = now)
    {igniter : Bool}
    (lit : igniter = true → (r.capIgniter now).igniter = true ∨
      (r.capIgniter now).igniterLockedOut = false) :
    ({ r.capIgniter now with igniter := igniter } : Relay).onWithin now begun := by
  have sane := r.cfg.igniter_capped.1
  unfold capIgniter at lit ⊢
  rw [if_pos on] at lit ⊢
  by_cases locked : r.igniterLockedOut = true
  · rw [if_pos locked] at lit ⊢
    have off : igniter = false := by simpa [locked] using lit
    rcases since with ⟨same, -⟩ | ⟨cleared, -⟩
    · exact Or.inl ⟨same, by simp [off]⟩
    · exact Or.inr ⟨cleared, off⟩
  rw [if_neg locked] at lit ⊢
  by_cases cleared : r.igniterOnSince = 0
  · rw [if_pos cleared] at lit ⊢
    have fresh : begun = now := by
      rcases since with ⟨same, nonzero⟩ | ⟨-, fresh⟩
      · exact absurd (same.symm.trans cleared) nonzero
      · exact fresh
    exact Or.inl ⟨fresh.symm, fun _ => by simpa [fresh] using sane.le⟩
  rw [if_neg cleared] at lit ⊢
  have same : r.igniterOnSince = begun := by
    rcases since with ⟨same, -⟩ | ⟨zero, -⟩
    · exact same
    · exact absurd zero cleared
  by_cases tripped : now - r.igniterOnSince > r.cfg.igniterMaxOnS
  · rw [if_pos tripped] at lit ⊢
    have off : igniter = false := by simpa using lit
    exact Or.inl ⟨same, by simp [off]⟩
  · rw [if_neg tripped]
    rw [same] at tripped
    exact Or.inl ⟨same, fun _ => not_lt.mp tripped⟩

theorem supervise_onWithin (dark : lights t .supervise c = false)
    (since : (relayOf c).onSince begun ∧ begun ≠ 0 ∨
      c.safety.igniterOnSince = 0 ∧ begun = t.now) :
    (relayOf (supervise t c)).onWithin t.now begun := by
  have moved := effect_act t .supervise c
  have result : (relayOf (Phase.act t .supervise c)).igniter = (supervise t c).outputs.igniter :=
    rfl
  change (relayOf (Phase.act t .supervise c)).onWithin t.now begun
  generalize relayOf (Phase.act t .supervise c) = r at moved result
  cases moved with
  | enter entered => exact Or.inr ⟨rfl, lights_enter entered dark⟩
  | lower _ _ _ plain => cases plain
  | @judge _ igniter quiet lit =>
      replace result : igniter = (supervise t c).outputs.igniter := result
      by_cases on : c.outputs.igniter = true
      · refine Relay.capIgniter_onWithin (relayOf c) on ?_ fun lit' =>
          (lit lit').imp_right And.left
        rcases since with ⟨same | ⟨-, off⟩, nonzero⟩ | fresh
        · exact Or.inl ⟨same, nonzero⟩
        · change c.outputs.igniter = false at off
          rw [off] at on
          cases on
        · exact Or.inr fresh
      · have cleared : (relayOf c).capIgniter t.now = { relayOf c with igniterOnSince := 0 } :=
          if_neg on
        have still : igniter = false := by
          rw [result]
          simpa [lights, phaseEntry, quiet, on] using dark
        rw [cleared]
        exact Or.inr ⟨rfl, still⟩

theorem effect_onWithin (notSupervise : p ≠ .supervise) (notCommand : ∀ cmd, p ≠ .command cmd)
    (dark : lights t p c = false) (within : (relayOf c).onWithin t.now begun)
    (moved : Effect t p c r) : r.onWithin t.now begun := by
  cases moved with
  | enter entered => exact Or.inr ⟨rfl, lights_enter entered dark⟩
  | read => exact within
  | limits => exact absurd rfl (notCommand _)
  | byHand => exact absurd rfl (notCommand _)
  | lower _ _ _ plain stays augerLower igniterLower =>
      rcases within with ⟨same, capped⟩ | ⟨cleared, off⟩
      · exact Or.inl ⟨same, fun on => capped (igniterLower on)⟩
      · refine Or.inr ⟨cleared, Bool.eq_false_iff.mpr fun on => ?_⟩
        change c.outputs.igniter = false at off
        rw [igniterLower on] at off
        cases off
  | judge => exact absurd rfl notSupervise
  | @feed _ driven drives =>
      obtain ⟨auger, until_, capped⟩ := Relay.rest_cap_eq t.now driven
      rw [capped]
      rcases drives with rfl | rfl | ⟨rfl, -⟩
      all_goals exact within

end Phases

section Step

variable {t : Tick} {c : Control}

theorem beforeSupervision_onSince {begun : ℚ}
    (dark : Along (Phase.act t) (fun p c => lights t p c = false) (drainPhases t ++ cookPhases) c)
    (since : (relayOf c).onSince begun) : (relayOf (beforeSupervision t c)).onSince begun := by
  rw [beforeSupervision, ← run_append]
  refine run_preserves (fun p c => p ≠ .supervise ∧ lights t p c = false)
    (fun c => (relayOf c).onSince begun) ?_ since
    ((along_of_forall (fun p inside _ => ne_supervise_of_mem inside) c).and dark)
  intro p c since ok
  exact effect_onSince ok.1 ok.2 since (effect_act t p c)

theorem beforeSupervision_cleared (cleared : c.safety.igniterOnSince = 0) :
    (beforeSupervision t c).safety.igniterOnSince = 0 := by
  rw [beforeSupervision, ← run_append]
  refine run_preserves (fun (p : Phase) _ => p ≠ .supervise)
    (fun c : Control => c.safety.igniterOnSince = 0) ?_ cleared
    (along_of_forall (fun p inside _ => ne_supervise_of_mem inside) c)
  intro p c cleared notSupervise
  have moved := effect_act t p c
  change (relayOf (p.act t c)).igniterOnSince = 0
  generalize relayOf (p.act t c) = r at moved
  cases moved with
  | enter => rfl
  | read => exact cleared
  | limits => exact cleared
  | @byHand _ _ _ _ o => cases o <;> exact cleared
  | lower => exact cleared
  | judge => exact absurd rfl notSupervise
  | @feed _ driven drives =>
      obtain ⟨auger, until_, capped⟩ := Relay.rest_cap_eq t.now driven
      rw [capped]
      rcases drives with rfl | rfl | ⟨rfl, -⟩
      all_goals exact cleared

theorem closePhases_onWithin {begun : ℚ}
    (dark : Along (Phase.act t) (fun p c => lights t p c = false) closePhases c)
    (within : (relayOf c).onWithin t.now begun) :
    (relayOf (run (Phase.act t) closePhases c)).onWithin t.now begun := by
  have order : ∀ p ∈ closePhases, p ≠ .supervise ∧ ∀ cmd, p ≠ .command cmd := by
    simp [closePhases]
  refine run_preserves
    (fun p c => (p ≠ .supervise ∧ ∀ cmd, p ≠ .command cmd) ∧ lights t p c = false)
    (fun c => (relayOf c).onWithin t.now begun) ?_ within
    ((along_of_forall (fun p inside _ => order p inside) c).and dark)
  intro p c within ok
  exact effect_onWithin ok.1.1 ok.1.2 ok.2 within (effect_act t p c)

theorem keepsStamp_igniter {cap : ℚ} (started : 0 < t.now) (keeps : KeepsIgniterStamp t c)
    (on : (controlStep t c).outputs.igniter = true)
    (limit : (controlStep t c).cfg.igniterMaxOnS ≤ cap) :
    KeepsStamp Tick.now igniterStamp cap controlStep t c := by
  have judged : (relayOf (supervise t (beforeSupervision t c))).onWithin t.now
      ((igniterStamp c).getD t.now) := by
    apply supervise_onWithin keeps.after.1
    unfold igniterStamp
    by_cases cleared : c.safety.igniterOnSince = 0
    · right
      rw [if_pos cleared]
      exact ⟨beforeSupervision_cleared cleared, rfl⟩
    · left
      rw [if_neg cleared]
      exact ⟨beforeSupervision_onSince (keeps.before cleared) (Or.inl rfl), cleared⟩
  have within := closePhases_onWithin keeps.after.2 judged
  rw [Phase.act, ← controlStep_eq_supervise] at within
  rcases within with ⟨same, capped⟩ | ⟨-, off⟩
  · have nonzero : (igniterStamp c).getD t.now ≠ 0 := by
      unfold igniterStamp
      split
      · exact started.ne'
      · assumption
    constructor
    · rw [igniterStamp, show (controlStep t c).safety.igniterOnSince = _ from same,
        if_neg nonzero]
    · exact (capped on).trans limit
  · change (controlStep t c).outputs.igniter = false at off
    rw [on] at off
    cases off

end Step

theorem coreInvariant_igniterOnSince :
    CoreInvariant fun time r => 0 ≤ time ∧ r.igniterOnSince ≤ time where
  later after past := ⟨past.1.trans after, past.2.trans after⟩
  effect t p c r started past moved := by
    refine ⟨past.1, ?_⟩
    cases moved with
    | enter => exact past.1
    | read => exact past.2
    | limits => exact past.2
    | @byHand _ _ _ _ o => cases o <;> exact past.2
    | lower => exact past.2
    | judge =>
        change ((relayOf c).capIgniter t.now).igniterOnSince ≤ t.now
        unfold Relay.capIgniter
        repeat' split
        all_goals first | exact past.2 | exact le_refl _ | exact past.1
    | @feed _ driven drives =>
        obtain ⟨auger, until_, capped⟩ := Relay.rest_cap_eq t.now driven
        rw [capped]
        rcases drives with rfl | rfl | ⟨rfl, -⟩
        all_goals exact past.2
  enter now e r started past := ⟨past.1, past.1⟩
  aimAt _ _ _ past := past
  limits _ _ _ past := past

theorem Reachable.igniterOnSince_le {time : ℚ} {c : Control} (reached : Reachable time c) :
    c.safety.igniterOnSince ≤ time :=
  (coreInvariant_igniterOnSince.reachable (fun _ _ => ⟨le_refl 0, le_refl 0⟩) reached).2

/-- In a run from a reachable state whose steps light nothing on a cleared
stamp, the igniter is never on at the end of every step of a stretch longer than
its limit and one tick. -/
theorem igniter_stretch_le {time : ℚ} {c : Control} (reached : Reachable time c)
    (ticks : List Tick) {tick cap : ℚ} (paced : Paced tick (time :: ticks.map Tick.now))
    (started : ∀ t ∈ ticks, 0 < t.now)
    (on : Throughout controlStep (fun c => c.outputs.igniter = true) ticks c)
    (limit : Throughout controlStep (fun c => c.cfg.igniterMaxOnS ≤ cap) ticks c)
    (keeps : Along controlStep KeepsIgniterStamp ticks c)
    (last : Tick) (isLast : ticks.getLast? = some last) : last.now - time ≤ cap + tick := by
  have past (begun : ℚ) (stamped : igniterStamp c = some begun) : begun ≤ time := by
    unfold igniterStamp at stamped
    split at stamped
    · cases stamped
    · cases stamped
      exact reached.igniterOnSince_le
  have stamped : Along controlStep (KeepsStamp Tick.now igniterStamp cap controlStep) ticks c := by
    have ticking : Along controlStep (fun t _ => 0 < t.now) ticks c :=
      along_of_forall (fun t inside _ => started t inside) c
    refine (((ticking.and on).and limit).and keeps).mono ?_
    intro t c _ ok
    exact keepsStamp_igniter ok.1.1.1 ok.2 ok.1.1.2 ok.1.2
  exact stretch_le past paced stamped isLast

/-- The bench with a limit of ten seconds on the igniter, being lit. -/
def benchLit : Control :=
  controlStep (benchTick [] 1 (some 20) [.mode .startup 0 false])
    (controlInit (.obj [("safety", .obj [("igniter_max_on_s", .num 10)])]) some)

theorem reachable_benchLit : Reachable 1 benchLit :=
  (Reachable.init _ some).move (.step (benchTick [] 1 (some 20) [.mode .startup 0 false]))
    (by decide) (by decide)

/-- Left alone, the bench keeps its igniter on for two ticks. -/
theorem igniter_stretch_le_on_bench : (9 : ℚ) - 1 ≤ 10 + 4 :=
  igniter_stretch_le reachable_benchLit
    [benchTick [] 5 (some 20) [], benchTick [] 9 (some 20) []]
    (by decide +kernel) (by decide +kernel) (by decide +kernel) (by decide +kernel)
    (by decide +kernel) (benchTick [] 9 (some 20) []) rfl

/-- Asking for Startup again while it runs keeps the igniter on past its limit. -/
theorem igniter_outlasts_its_limit :
    ¬∀ (time : ℚ) (c : Control), Reachable time c → c.outputs.igniter = true →
      ∀ (ticks : List Tick) (tick : ℚ), Paced tick (time :: ticks.map Tick.now) →
        Throughout controlStep (fun c => c.outputs.igniter = true) ticks c →
        ∀ cap, Throughout controlStep (fun c => c.cfg.igniterMaxOnS ≤ cap) ticks c →
        ∀ last, ticks.getLast? = some last → last.now - time ≤ cap + tick := by
  intro always
  have outlasted := always 1 benchLit reachable_benchLit (by decide +kernel)
    [benchTick [] 5 (some 20) [], benchTick [] 9 (some 20) [.mode .startup 0 false],
      benchTick [] 13 (some 20) [], benchTick [] 17 (some 20) []]
    4 (by decide +kernel) (by decide +kernel) 10 (by decide +kernel) _ rfl
  exact absurd outlasted (by decide +kernel)

end PiFire
