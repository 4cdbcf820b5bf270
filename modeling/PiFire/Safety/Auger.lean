import PiFire.Safety.Fault
import PiFire.Transition.Sampled

/-!
# The auger's cap and rest over a run

The cap compares the time with the stamp of when the auger was last switched on,
and a trip is followed by a rest. While no step that begins with the auger on
switches it on again, the auger is never on for longer than its limit and one
tick; and it rests unless the change of mode at the end of a step feeds.
-/

namespace PiFire

open Transition

/-- The auger's stamp; there always is one. -/
def augerStamp (c : Control) : Option ℚ := some c.augerOnSince

/-- A phase that switches the auger on, or on again: it enters a mode that feeds,
a manual command asks for it, or the cycle finds the auger off. -/
def turnsAugerOn (t : Tick) (p : Phase) (c : Control) : Bool :=
  match phaseEntry t p c with
  | some e => e.mode.feeds
  | none =>
      match p with
      | .command (.manualOutput str on _) =>
          on && namedOutput str == some .auger && acceptsManual c
      | .feed => !c.outputs.auger && (driveCycle t c).outputs.auger
      | _ => false

/-- A change of mode in time that feeds while the auger rests. -/
def feedsInRest (t : Tick) (p : Phase) (c : Control) : Bool :=
  match p with
  | .timed => t.now < c.augerRestUntil && (timedEntry t c).any (·.mode.feeds)
  | _ => false

/-- A step that does not switch an auger that is on again, and does not feed in
its rest. -/
structure AugerKept (t : Tick) (c : Control) : Prop where
  stamp : c.outputs.auger = true →
    Along (Phase.act t) (fun p c => turnsAugerOn t p c = false) (phases t) c
  rest : Along (Phase.act t) (fun p c => feedsInRest t p c = false) (phases t) c

instance (t : Tick) (c : Control) : Decidable (AugerKept t c) :=
  decidable_of_iff
    ((c.outputs.auger = true →
        Along (Phase.act t) (fun p c => turnsAugerOn t p c = false) (phases t) c) ∧
      Along (Phase.act t) (fun p c => feedsInRest t p c = false) (phases t) c)
    ⟨fun keeps => ⟨keeps.1, keeps.2⟩, fun keeps => ⟨keeps.stamp, keeps.rest⟩⟩

/-- The phases before the auger is fed. -/
def feedingPhases (t : Tick) : List Phase :=
  drainPhases t ++ (cookPhases ++ [.supervise, .lid])

/-- The phases after it. -/
def settlingPhases : List Phase :=
  [.fan, .expire, .timed, .input, .checkpoint, .close]

theorem phases_eq_feed (t : Tick) : phases t = feedingPhases t ++ .feed :: settlingPhases := by
  simp [phases, feedingPhases, settlingPhases, cookPhases, closePhases]

/-- The state the auger is fed in. -/
def beforeFeed (t : Tick) (c : Control) : Control :=
  run (Phase.act t) (feedingPhases t) c

theorem controlStep_eq_feed (t : Tick) (c : Control) :
    controlStep t c = run (Phase.act t) settlingPhases (feedAuger t (beforeFeed t c)) := by
  rw [controlStep_eq_run, phases_eq_feed, run_append]
  rfl

theorem ne_feed_of_mem {t : Tick} {p : Phase} (inside : p ∈ feedingPhases t) : p ≠ .feed := by
  rintro rfl
  simp [feedingPhases, drainPhases, cookPhases] at inside

theorem settling_of_mem {p : Phase} (inside : p ∈ settlingPhases) :
    p ≠ .feed ∧ ∀ cmd, p ≠ .command cmd := by
  constructor
  · rintro rfl
    simp [settlingPhases] at inside
  · rintro cmd rfl
    simp [settlingPhases] at inside

/-- The cap trips in this step. -/
def augerTrips (t : Tick) (c : Control) : Bool :=
  let fed := restAuger t (driveCycle t (beforeFeed t c))
  fed.outputs.auger && t.now - fed.augerOnSince > fed.cfg.augerMaxOnS

/-- The stamp is `begun`, or the auger is off. -/
def Relay.fedSince (begun : ℚ) (r : Relay) : Prop :=
  r.auger = true → r.augerOnSince = begun

/-- The same, and the auger on only within its limit. -/
def Relay.fedWithin (now begun : ℚ) (r : Relay) : Prop :=
  r.auger = true → r.augerOnSince = begun ∧ now - begun ≤ r.cfg.augerMaxOnS

section Phases

variable {t : Tick} {p : Phase} {c : Control} {r : Relay} {begun : ℚ}

theorem turnsAugerOn_enter {e : Entry} (entered : phaseEntry t p c = some e)
    (still : turnsAugerOn t p c = false) : e.mode.feeds = false := by
  simpa [turnsAugerOn, entered] using still

theorem effect_fedSince (notFeed : p ≠ .feed) (still : turnsAugerOn t p c = false)
    (since : (relayOf c).fedSince begun) (moved : Effect t p c r) : r.fedSince begun := by
  cases moved with
  | enter entered =>
      intro on
      replace on : (_ : Entry).mode.feeds = true := on
      rw [turnsAugerOn_enter entered still] at on
      cases on
  | read => exact since
  | limits => exact since
  | @byHand str on num _ o named accepted =>
      cases o with
      | auger =>
          intro lit
          replace lit : on = true := lit
          simp [turnsAugerOn, phaseEntry, cmdEntry, lit, named, accepted] at still
      | power | fan | igniter => exact since
  | lower _ _ _ plain stays augerLower => exact fun on => since (augerLower on)
  | judge =>
      obtain ⟨igniter, stamp, locked, capped⟩ := Relay.capIgniter_eq t.now (relayOf c)
      rw [capped]
      exact since
  | feed => exact absurd rfl notFeed

theorem Relay.rest_cap_fedWithin {now : ℚ} {r : Relay} (since : r.fedSince begun) :
    ((r.rest now).cap now).fedWithin now begun := by
  have rested : (r.rest now).fedSince begun := by
    unfold rest
    split
    · intro on
      cases on
    · exact since
  unfold cap
  split
  · intro on
    cases on
  · next within =>
      intro on
      have same := rested on
      refine ⟨same, ?_⟩
      rw [← same]
      exact not_lt.mp fun isOver => within ⟨on, isOver⟩

theorem feedAuger_fedWithin (still : turnsAugerOn t .feed c = false)
    (since : (relayOf c).fedSince begun) :
    (relayOf (feedAuger t c)).fedWithin t.now begun := by
  rw [relayOf_feedAuger]
  apply Relay.rest_cap_fedWithin
  rcases relayOf_driveCycle t c with same | off | ⟨fed, wasOff, -⟩
  · rw [same]
    exact since
  · rw [off]
    intro on
    cases on
  · have on : (driveCycle t c).outputs.auger = true := congrArg Relay.auger fed
    simp [turnsAugerOn, phaseEntry, wasOff, on] at still

theorem effect_fedWithin (settling : p ≠ .feed ∧ ∀ cmd, p ≠ .command cmd)
    (still : turnsAugerOn t p c = false) (within : (relayOf c).fedWithin t.now begun)
    (moved : Effect t p c r) : r.fedWithin t.now begun := by
  cases moved with
  | enter entered =>
      intro on
      replace on : (_ : Entry).mode.feeds = true := on
      rw [turnsAugerOn_enter entered still] at on
      cases on
  | read => exact within
  | limits => exact absurd rfl (settling.2 _)
  | byHand => exact absurd rfl (settling.2 _)
  | lower _ _ _ plain stays augerLower => exact fun on => within (augerLower on)
  | judge =>
      obtain ⟨igniter, stamp, locked, capped⟩ := Relay.capIgniter_eq t.now (relayOf c)
      rw [capped]
      exact within
  | feed => exact absurd rfl settling.1

end Phases

theorem keepsStamp_auger {t : Tick} {c : Control} {cap : ℚ}
    (still : Along (Phase.act t) (fun p c => turnsAugerOn t p c = false) (phases t) c)
    (on : (controlStep t c).outputs.auger = true)
    (limit : (controlStep t c).cfg.augerMaxOnS ≤ cap) :
    KeepsStamp Tick.now augerStamp cap controlStep t c := by
  rw [phases_eq_feed, along_append, along_cons] at still
  obtain ⟨before, here, after⟩ := still
  have fed : (relayOf (beforeFeed t c)).fedSince c.augerOnSince := by
    refine run_preserves (fun p c => p ≠ .feed ∧ turnsAugerOn t p c = false)
      (fun s => (relayOf s).fedSince c.augerOnSince) ?_ (fun _ => rfl)
      ((along_of_forall (fun p inside _ => ne_feed_of_mem inside) c).and before)
    intro p s since ok
    exact effect_fedSince ok.1 ok.2 since (effect_act t p s)
  have capped := feedAuger_fedWithin here fed
  have settled : (relayOf (controlStep t c)).fedWithin t.now c.augerOnSince := by
    rw [controlStep_eq_feed]
    refine run_preserves
      (fun p s => (p ≠ .feed ∧ ∀ cmd, p ≠ .command cmd) ∧ turnsAugerOn t p s = false)
      (fun s => (relayOf s).fedWithin t.now c.augerOnSince) ?_ capped
      ((along_of_forall (fun p inside _ => settling_of_mem inside) _).and after)
    intro p s within ok
    exact effect_fedWithin ok.1 ok.2 within (effect_act t p s)
  obtain ⟨same, within⟩ := settled on
  exact ⟨congrArg some same, within.trans limit⟩

theorem effect_augerOnSince_le {t : Tick} {p : Phase} {c : Control} {r : Relay}
    (past : c.augerOnSince ≤ t.now) (moved : Effect t p c r) : r.augerOnSince ≤ t.now := by
  cases moved with
  | enter => exact le_refl _
  | read => exact past
  | limits => exact past
  | @byHand _ on _ _ o =>
      cases o with
      | auger =>
          change (if on then t.now else c.augerOnSince) ≤ t.now
          split
          · exact le_refl _
          · exact past
      | power | fan | igniter => exact past
  | lower => exact past
  | judge =>
      obtain ⟨igniter, stamp, locked, capped⟩ := Relay.capIgniter_eq t.now (relayOf c)
      rw [capped]
      exact past
  | @feed _ driven drives =>
      obtain ⟨auger, until_, capped⟩ := Relay.rest_cap_eq t.now driven
      rw [capped]
      rcases drives with rfl | rfl | ⟨rfl, -⟩
      · exact past
      · exact past
      · exact le_refl _

theorem coreInvariant_augerOnSince : CoreInvariant fun time r => r.augerOnSince ≤ time where
  later after past := past.trans after
  effect _ _ _ _ _ past moved := effect_augerOnSince_le past moved
  enter _ _ _ _ _ := le_refl _
  aimAt _ _ _ past := past
  limits _ _ _ past := past

theorem Reachable.augerOnSince_le {time : ℚ} {c : Control} (reached : Reachable time c) :
    c.augerOnSince ≤ time :=
  coreInvariant_augerOnSince.reachable (fun _ _ => le_refl 0) reached

section Rest

variable {t : Tick} {p : Phase} {c : Control} {r : Relay}

theorem effect_augerRestUntil (notFeed : p ≠ .feed) (moved : Effect t p c r) :
    r.augerRestUntil = c.augerRestUntil := by
  cases moved with
  | enter => rfl
  | read => rfl
  | limits => rfl
  | @byHand _ _ _ _ o => cases o <;> rfl
  | lower => rfl
  | judge =>
      obtain ⟨igniter, stamp, locked, capped⟩ := Relay.capIgniter_eq t.now (relayOf c)
      rw [capped]
      rfl
  | feed => exact absurd rfl notFeed

theorem run_augerRestUntil {ps : List Phase} (notFeed : ∀ p ∈ ps, p ≠ .feed) (c : Control) :
    (run (Phase.act t) ps c).augerRestUntil = c.augerRestUntil := by
  induction ps generalizing c with
  | nil => rfl
  | cons p ps ih =>
      rw [run_cons, ih fun q inside => notFeed q (List.mem_cons_of_mem p inside)]
      exact effect_augerRestUntil (notFeed p List.mem_cons_self) (effect_act t p c)

theorem controlStep_augerRestUntil (t : Tick) (c : Control) :
    (controlStep t c).augerRestUntil = (feedAuger t (beforeFeed t c)).augerRestUntil := by
  rw [controlStep_eq_feed, run_augerRestUntil fun p inside => (settling_of_mem inside).1]

theorem le_augerRestUntil {until_ : ℚ} (resting : until_ ≤ c.augerRestUntil)
    (soon : until_ ≤ t.now + augerRestS) : until_ ≤ (controlStep t c).augerRestUntil := by
  have before : (beforeFeed t c).augerRestUntil = c.augerRestUntil :=
    run_augerRestUntil (fun p inside => ne_feed_of_mem inside) c
  have driven : (driveCycle t (beforeFeed t c)).augerRestUntil =
      (beforeFeed t c).augerRestUntil := by
    rcases relayOf_driveCycle t (beforeFeed t c) with same | off | ⟨fed, -⟩
    · exact congrArg Relay.augerRestUntil same
    · exact congrArg Relay.augerRestUntil off
    · exact congrArg Relay.augerRestUntil fed
  have fed := congrArg Relay.augerRestUntil (relayOf_feedAuger t (beforeFeed t c))
  rw [controlStep_augerRestUntil,
    show (feedAuger t (beforeFeed t c)).augerRestUntil = _ from fed, Relay.cap]
  split
  · exact soon
  · rw [Relay.rest, apply_ite Relay.augerRestUntil, ite_self]
    exact (resting.trans before.ge).trans driven.ge

theorem augerTrips_rest (trips : augerTrips t c = true) :
    (controlStep t c).augerRestUntil = t.now + augerRestS := by
  simp only [augerTrips, Bool.and_eq_true, decide_eq_true_eq] at trips
  rw [controlStep_augerRestUntil, feedAuger, capAuger, if_pos trips]

/-- While it rests, the auger is off after the feed. -/
def Relay.rested (now : ℚ) (r : Relay) : Prop :=
  now < r.augerRestUntil → r.auger = false

theorem Relay.rest_cap_rested (now : ℚ) (r : Relay) : ((r.rest now).cap now).rested now := by
  have rested : (r.rest now).rested now := by
    intro resting
    unfold rest at resting ⊢
    split at resting
    · next off =>
        rw [if_pos off]
    · next on =>
        rw [if_neg on]
        exact Bool.eq_false_iff.mpr fun fed => on ⟨resting, fed⟩
  unfold cap
  split
  · exact fun _ => rfl
  · exact rested

theorem effect_rested (settling : p ∈ settlingPhases) (still : feedsInRest t p c = false)
    (rested : (relayOf c).rested t.now) (moved : Effect t p c r) : r.rested t.now := by
  cases moved with
  | @enter _ _ e entered =>
      intro resting
      replace resting : t.now < c.augerRestUntil := resting
      change e.mode.feeds = false
      fin_cases settling
      · cases entered
      · cases entered
      · simp only [feedsInRest, resting, decide_true, Bool.true_and] at still
        rw [show timedEntry t c = some e from entered] at still
        exact still
      · simp only [phaseEntry, inputEntry] at entered
        split at entered
        · cases entered
          split <;> rfl
        · cases entered
      · cases entered
      · cases entered
  | read => simp [settlingPhases] at settling
  | limits => simp [settlingPhases] at settling
  | byHand => simp [settlingPhases] at settling
  | lower _ _ _ plain stays augerLower =>
      intro resting
      exact Bool.eq_false_iff.mpr fun on => by
        have off : c.outputs.auger = false := rested resting
        rw [augerLower on] at off
        cases off
  | judge => simp [settlingPhases] at settling
  | feed => simp [settlingPhases] at settling

theorem controlStep_rested
    (still : Along (Phase.act t) (fun p c => feedsInRest t p c = false) (phases t) c) :
    (relayOf (controlStep t c)).rested t.now := by
  rw [phases_eq_feed, along_append, along_cons] at still
  rw [controlStep_eq_feed]
  refine run_preserves (fun p s => p ∈ settlingPhases ∧ feedsInRest t p s = false)
    (fun s => (relayOf s).rested t.now) ?_ ?_
    ((along_of_forall (fun p inside _ => inside) _).and still.2.2)
  · intro p s rested ok
    exact effect_rested ok.1 ok.2 rested (effect_act t p s)
  · rw [relayOf_feedAuger]
    exact Relay.rest_cap_rested t.now _

end Rest

/-- In a run from a reachable state whose steps neither switch an auger that is
on again nor feed in its rest, the auger is never on at the end of every step of
a stretch longer than its limit and one tick, and once the cap trips it is off at
the end of every step for fifteen seconds. -/
theorem auger_stretch_le_and_rests {time : ℚ} {c : Control} (reached : Reachable time c)
    (ticks : List Tick) (tick cap : ℚ) (paced : Paced tick (time :: ticks.map Tick.now))
    (kept : Along controlStep AugerKept ticks c) :
    (c.outputs.auger = true →
        Throughout controlStep (fun c => c.outputs.auger = true) ticks c →
        Throughout controlStep (fun c => c.cfg.augerMaxOnS ≤ cap) ticks c →
        ∀ last, ticks.getLast? = some last → last.now - time ≤ cap + tick) ∧
      ∀ t, ticks.head? = some t → augerTrips t c = true →
        Along controlStep
          (fun t' c => t'.now < t.now + augerRestS → (controlStep t' c).outputs.auger = false)
          ticks c := by
  constructor
  · intro beganOn on limit last isLast
    have past (begun : ℚ) (stamped : augerStamp c = some begun) : begun ≤ time := by
      cases stamped
      exact reached.augerOnSince_le
    have stamped : Along controlStep
        (KeepsStamp Tick.now augerStamp cap controlStep) ticks c := by
      refine Along.strengthen (fun c => c.outputs.auger = true) ?_ ?_ beganOn
        ((on.and limit).and kept)
      · intro t c _ ok
        exact ok.1.1
      · intro t c beganOn ok
        exact keepsStamp_auger (ok.2.stamp beganOn) ok.1.1 ok.1.2
    exact stretch_le past paced stamped isLast
  · intro t isHead trips
    cases ticks with
    | nil => cases isHead
    | cons i ticks =>
        cases isHead
        have resting := augerTrips_rest trips
        have soon : t.now < (controlStep t c).augerRestUntil := by
          rw [resting]
          exact lt_add_of_pos_right _ (by norm_num [augerRestS])
        refine ⟨fun _ => controlStep_rested kept.1.rest soon, ?_⟩
        have later : Along controlStep (fun t' _ => t.now ≤ t'.now) ticks (controlStep t c) := by
          refine along_of_forall (fun t' inside _ => ?_) _
          exact paced.tail.le_of_mem (List.mem_map_of_mem inside)
        refine Along.strengthen (fun c => t.now + augerRestS ≤ c.augerRestUntil) ?_ ?_
          resting.ge (later.and kept.2)
        · intro t' c resting ok
          exact le_augerRestUntil resting (by linarith [ok.1])
        · intro t' c resting ok within
          have still : t.now + augerRestS ≤ (controlStep t' c).augerRestUntil :=
            le_augerRestUntil resting (by linarith [ok.1])
          exact controlStep_rested ok.2.rest (within.trans_le still)

/-- The bench in Manual with a limit of ten seconds on the auger, just switched
on by hand. -/
def benchFed : Control :=
  run controlStep
    [benchTick [] 1 (some 20) [.mode .manual 0 false],
      benchTick [] 2 (some 20) [.manualOutput "auger" true 0]]
    (controlInit (.obj [("safety", .obj [("auger_max_on_s", .num 10)])]) some)

theorem reachable_benchFed : Reachable 2 benchFed :=
  ((Reachable.init _ some).move (.step (benchTick [] 1 (some 20) [.mode .manual 0 false]))
    (by decide) (by decide)).move
    (.step (benchTick [] 2 (some 20) [.manualOutput "auger" true 0])) (by decide)
    (by decide)

/-- Left alone, the bench feeds for two ticks; the next one trips the cap, and
the auger stays off although the user asks for it. -/
theorem auger_stretch_le_and_rests_on_bench :
    (10 : ℚ) - 2 ≤ 10 + 4 ∧
      Along controlStep
        (fun t c => t.now < 14 + augerRestS → (controlStep t c).outputs.auger = false)
        [benchTick [] 14 (some 20) [], benchTick [] 18 (some 20) [.manualOutput "auger" true 0]]
        (run controlStep [benchTick [] 10 (some 20) []] benchFed) :=
  ⟨(auger_stretch_le_and_rests reachable_benchFed
      [benchTick [] 6 (some 20) [], benchTick [] 10 (some 20) []] 4 10
      (by decide +kernel) (by decide +kernel)).1 (by decide +kernel) (by decide +kernel)
      (by decide +kernel) (benchTick [] 10 (some 20) []) rfl,
    (auger_stretch_le_and_rests
      (reachable_benchFed.move (.step (benchTick [] 10 (some 20) [])) (by decide)
        (by decide))
      [benchTick [] 14 (some 20) [], benchTick [] 18 (some 20) [.manualOutput "auger" true 0]]
      4 10 (by decide +kernel) (by decide +kernel)).2 (benchTick [] 14 (some 20) []) rfl
      (by decide +kernel)⟩

/-- Asking for the auger by hand again while it is on keeps it on past its
limit. -/
theorem auger_outlasts_its_limit :
    ¬∀ (time : ℚ) (c : Control), Reachable time c → c.outputs.auger = true →
      ∀ (ticks : List Tick) (tick : ℚ), Paced tick (time :: ticks.map Tick.now) →
        Throughout controlStep (fun c => c.outputs.auger = true) ticks c →
        ∀ cap, Throughout controlStep (fun c => c.cfg.augerMaxOnS ≤ cap) ticks c →
        ∀ last, ticks.getLast? = some last → last.now - time ≤ cap + tick := by
  intro always
  have outlasted := always 2 benchFed reachable_benchFed (by decide +kernel)
    [benchTick [] 6 (some 20) [], benchTick [] 10 (some 20) [.manualOutput "auger" true 0],
      benchTick [] 14 (some 20) [], benchTick [] 18 (some 20) []]
    4 (by decide +kernel) (by decide +kernel) 10 (by decide +kernel) _ rfl
  exact absurd outlasted (by decide +kernel)

end PiFire
