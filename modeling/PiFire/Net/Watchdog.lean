import PiFire.Rules.Table
import PiFire.Transition.Timed

/-!
# The watchdog of the radio

Once the grill has been online it looks, every fifteen seconds, whether it reaches its own
gateway. A radio that has hung for a minute has its driver reloaded; when two reloads have not
helped, a grill that is stopped and cool restarts, and notes when it did.
-/

namespace PiFire.Net

open Transition

/-- `pf_net_state` -/
inductive NetState where
  | boot
  | online
  | hotspot
  | connecting
  | offline
  deriving DecidableEq

/-- A probe in the status, as far as it is looked at. -/
structure PitReading where
  primary : Bool
  valid : Bool
  tempC : Option ℚ

/-- The pit: the last primary probe that is valid. -/
def pitOf (probes : List PitReading) : Option ℚ :=
  probes.foldl (fun pit p => if p.primary && p.valid then p.tempC else pit) none

/-- What a look finds: the two clocks, the state of the network, whether the gateway answers
and the helper says that the radio has hung, the status of the grill, and whether the time of
a restart can be written. -/
structure Look where
  now : ℚ
  wall : ℚ
  state : NetState
  hotspotActive : Bool
  reachable : Bool
  hung : Bool
  mode : Mode
  probes : List PitReading
  writes : Bool

/-- What a look came to. -/
inductive Deed where
  /-- it is not time yet -/
  | early
  /-- there is no network to watch -/
  | off
  /-- the gateway answers -/
  | reached
  /-- it does not, and nothing is done -/
  | unreached
  /-- the driver is reloaded -/
  | reset
  /-- the grill is restarted -/
  | reboot
  deriving DecidableEq

/-- The statics of `watchdog`, and the time in `.net_reboot`. -/
structure Watchdog where
  next : ℚ := 0
  failSince : ℚ := 0
  resets : ℕ := 0
  everOnline : Bool := false
  lastReboot : ℚ

/-- Whether a restart would not be in the way of a fire. -/
def Look.idle (l : Look) : Bool :=
  l.mode == .stop && readsBelow (pitOf l.probes) (toC 150 .f)

namespace Watchdog

/-- A look that is not too early sets the time of the next one. -/
def awake (l : Look) (w : Watchdog) : Watchdog :=
  { w with next := l.now + 15
           everOnline := w.everOnline || l.state == .online }

/-- The time of the restart is noted, where it can be written. -/
def noted (l : Look) (w : Watchdog) : Watchdog :=
  if l.writes then { w with lastReboot := Rules.AlarmTable.printedWhole l.wall } else w

end Watchdog

/-- The radio has hung, and the gateway has not answered for a minute. -/
def rescue (l : Look) (w : Watchdog) : Deed × Watchdog :=
  if w.resets < 2 then (.reset, { w with resets := w.resets + 1, next := l.now + 30 })
  else if !l.idle then (.unreached, w)
  else if l.wall - w.lastReboot < 3600 then (.unreached, w)
  else (.reboot, w.noted l)

/-- `watchdog` -/
def watchdog (sim : Bool) (l : Look) (w : Watchdog) : Deed × Watchdog :=
  if sim ∨ l.now < w.next then (.early, w)
  else
    let w := w.awake l
    if !w.everOnline || l.hotspotActive || l.state == .hotspot || l.state == .connecting then
      (.off, { w with failSince := 0 })
    else if l.reachable then (.reached, { w with failSince := 0, resets := 0 })
    else if w.failSince = 0 then (.unreached, { w with failSince := l.now })
    else if l.now - w.failSince < 60 then (.unreached, w)
    else if !l.hung then (.unreached, w)
    else rescue l w

/-- A look of the thread, or the daemon starting anew, which keeps only what is on disk. -/
inductive Event where
  | look (l : Look)
  | start

/-- The watchdog with what its looks came to since the daemon started, newest first. -/
structure Watching where
  watchdog : Watchdog
  past : List (Look × Deed) := []

/-- A daemon that starts. -/
def started (lastReboot : ℚ) : Watching := { watchdog := { lastReboot := lastReboot } }

def step (sim : Bool) : Event → Watching → Watching
  | .look l, w =>
      let done := watchdog sim l w.watchdog
      ⟨done.2, (l, done.1) :: w.past⟩
  | .start, w => started w.watchdog.lastReboot

/-- The network is watched, and the gateway does not answer. -/
def Unreached (e : Look × Deed) : Prop := e.2 = .unreached ∨ e.2 = .reset ∨ e.2 = .reboot

/-- The looks that were not too early. -/
def checks (past : List (Look × Deed)) : List (Look × Deed) := past.filter fun e => e.2 ≠ .early

/-- How often the driver was reloaded since the gateway answered. -/
def reloads (past : List (Look × Deed)) : ℕ :=
  (past.takeWhile fun e => e.2 ≠ .reached).countP fun e => e.2 = .reset

/-- What must be the case before anything is done about the radio: the helper says that it
has hung, the gateway does not answer and did not at any check of the last minute, and the grill
has been online. -/
structure Grounds (l : Look) (w : Watching) : Prop where
  hung : l.hung = true
  here : l.reachable = false
  minute : ∃ since, 60 ≤ l.now - since ∧
    HeldSince (fun e : Look × Deed => e.1.now) (fun e _ => Unreached e) since (checks w.past)
  online : l.state = .online ∨ ∃ e ∈ w.past, e.1.state = .online

/-- What a look does about the radio is called for: a reload while there were fewer than two
since the gateway answered, a restart after two, of a grill that is stopped and cool, and
not within an hour of the last one. -/
def Event.CalledFor (sim : Bool) : Event → Watching → Prop
  | .look l, w =>
      match (watchdog sim l w.watchdog).1 with
      | .reset => Grounds l w ∧ reloads w.past < 2
      | .reboot => Grounds l w ∧ reloads w.past = 2 ∧ l.idle = true ∧
          w.watchdog.lastReboot + 3600 ≤ l.wall
      | _ => True
  | .start, _ => True

/-- The times of the restarts of a run. -/
def restarts (sim : Bool) : List Event → Watching → List ℚ
  | [], _ => []
  | .start :: events, w => restarts sim events (step sim .start w)
  | .look l :: events, w =>
      if (watchdog sim l w.watchdog).1 = .reboot then
        l.wall :: restarts sim events (step sim (.look l) w)
      else restarts sim events (step sim (.look l) w)

/-! ## What a look can do -/

/-- What a look can do, and when. -/
inductive Does (l : Look) (w : Watchdog) : Deed × Watchdog → Prop where
  | early : Does l w (.early, w)
  | off : Does l w (.off, { w.awake l with failSince := 0 })
  | reached : Does l w (.reached, { w.awake l with failSince := 0, resets := 0 })
  | fails : Does l w (.unreached, { w.awake l with failSince := l.now })
  | waits : Does l w (.unreached, w.awake l)
  | reset (online : (w.awake l).everOnline = true) (gone : l.reachable = false)
      (set : w.failSince ≠ 0) (minute : 60 ≤ l.now - w.failSince) (hung : l.hung = true)
      (few : w.resets < 2) :
      Does l w (.reset, { w.awake l with resets := w.resets + 1, next := l.now + 30 })
  | reboot (online : (w.awake l).everOnline = true) (gone : l.reachable = false)
      (set : w.failSince ≠ 0) (minute : 60 ≤ l.now - w.failSince) (hung : l.hung = true)
      (many : 2 ≤ w.resets) (idle : l.idle = true) (hour : w.lastReboot + 3600 ≤ l.wall) :
      Does l w (.reboot, (w.awake l).noted l)

theorem does_watchdog (sim : Bool) (l : Look) (w : Watchdog) : Does l w (watchdog sim l w) := by
  unfold watchdog rescue
  dsimp only
  split_ifs with early off answers fresh recent sound few busy hour
  · exact .early
  · exact .off
  · exact .reached
  · exact .fails
  · exact .waits
  · exact .waits
  all_goals
    have online : (w.awake l).everOnline = true := by
      simp only [Bool.or_eq_true, not_or, Bool.not_eq_true] at off
      simpa using off.1.1.1
    have gone : l.reachable = false := by simpa using answers
    have hung : l.hung = true := by simpa using sound
  · exact .reset online gone fresh (not_lt.mp recent) hung few
  · exact .waits
  · exact .waits
  · refine .reboot online gone fresh (not_lt.mp recent) hung (not_lt.mp few) (by simpa using busy) ?_
    have apart := not_lt.mp hour
    change 3600 ≤ l.wall - w.lastReboot at apart
    linarith

/-! ## What is known of the looks before -/

/-- What the statics say of the looks since the daemon started. -/
structure Kept (w : Watching) : Prop where
  reloads : w.watchdog.resets = reloads w.past
  few : w.watchdog.resets ≤ 2
  since : Stamps (· = 0) (fun e : Look × Deed => e.1.now) (fun e _ => Unreached e)
    w.watchdog.failSince (checks w.past)
  online : w.watchdog.everOnline = true → ∃ e ∈ w.past, e.1.state = .online

theorem kept_started (lastReboot : ℚ) : Kept (started lastReboot) where
  reloads := rfl
  few := Nat.zero_le 2
  since := .cleared rfl _
  online := nofun

variable {w : Watching} {l : Look} {d : Deed}

theorem checks_cons (late : d ≠ .early) : checks ((l, d) :: w.past) = (l, d) :: checks w.past := by
  simp [checks, late]

theorem reloads_cons (quiet : d ≠ .reset) (gone : d ≠ .reached) :
    reloads ((l, d) :: w.past) = reloads w.past := by
  simp [reloads, quiet, gone]

theorem Kept.awake (kept : Kept w) (online : (w.watchdog.awake l).everOnline = true) :
    l.state = .online ∨ ∃ e ∈ w.past, e.1.state = .online := by
  simp only [Watchdog.awake, Bool.or_eq_true, beq_iff_eq] at online
  exact online.symm.imp id kept.online

theorem Kept.seen (kept : Kept w) (online : (w.watchdog.awake l).everOnline = true) :
    ∃ e ∈ (l, d) :: w.past, e.1.state = .online := by
  rcases kept.awake online with here | ⟨e, inside, there⟩
  · exact ⟨_, List.mem_cons_self, here⟩
  · exact ⟨e, List.mem_cons_of_mem _ inside, there⟩

theorem Kept.extend (kept : Kept w) (late : d ≠ .early) (gone : Unreached (l, d)) :
    Stamps (· = 0) (fun e : Look × Deed => e.1.now) (fun e _ => Unreached e)
      w.watchdog.failSince (checks ((l, d) :: w.past)) := by
  rw [checks_cons late]
  exact fun set => .extend (kept.since set) gone

theorem Kept.step (kept : Kept w) (sim : Bool) (e : Event) : Kept (step sim e w) := by
  cases e with
  | start => exact kept_started _
  | look l =>
      have does := does_watchdog sim l w.watchdog
      simp only [Net.step]
      generalize watchdog sim l w.watchdog = done at does
      cases does with
      | early =>
          refine ⟨kept.reloads.trans (reloads_cons (d := .early) nofun nofun).symm, kept.few,
            kept.since, ?_⟩
          · intro online
            obtain ⟨e, inside, there⟩ := kept.online online
            exact ⟨e, List.mem_cons_of_mem _ inside, there⟩
      | off =>
          exact ⟨kept.reloads.trans (reloads_cons (d := .off) nofun nofun).symm, kept.few,
            .cleared rfl _, kept.seen⟩
      | reached => exact ⟨rfl, Nat.zero_le 2, .cleared rfl _, kept.seen⟩
      | fails =>
          refine ⟨kept.reloads.trans (reloads_cons (d := .unreached) nofun nofun).symm, kept.few,
            ?_, kept.seen⟩
          intro _
          rw [checks_cons (d := .unreached) nofun]
          exact .start (Or.inl rfl) rfl
      | waits =>
          exact ⟨kept.reloads.trans (reloads_cons (d := .unreached) nofun nofun).symm, kept.few,
            kept.extend (d := .unreached) nofun (Or.inl rfl), kept.seen⟩
      | reset online gone set minute hung few =>
          refine ⟨?_, few, kept.extend (d := .reset) nofun (Or.inr (Or.inl rfl)), kept.seen⟩
          change w.watchdog.resets + 1 = _
          rw [kept.reloads]
          simp [Net.reloads]
      | reboot online gone set minute hung many idle hour =>
          have same : ((w.watchdog.awake l).noted l).resets = w.watchdog.resets ∧
              ((w.watchdog.awake l).noted l).failSince = w.watchdog.failSince := by
            unfold Watchdog.noted
            split_ifs <;> exact ⟨rfl, rfl⟩
          refine ⟨?_, same.1.symm ▸ kept.few, ?_, fun _ => kept.seen online⟩
          · exact (same.1.trans kept.reloads).trans (reloads_cons (d := .reboot) nofun nofun).symm
          · change Stamps _ _ _ ((w.watchdog.awake l).noted l).failSince _
            rw [same.2]
            exact kept.extend (d := .reboot) nofun (Or.inr (Or.inr rfl))

theorem Kept.grounds (kept : Kept w) (online : (w.watchdog.awake l).everOnline = true)
    (gone : l.reachable = false) (set : w.watchdog.failSince ≠ 0)
    (minute : 60 ≤ l.now - w.watchdog.failSince) (hung : l.hung = true) : Grounds l w where
  hung := hung
  here := gone
  minute := ⟨_, minute, kept.since set⟩
  online := kept.awake online

/-- In every run, whatever the looks find and however often the daemon starts anew, the radio
is left alone until there is reason to reload its driver, and the grill is restarted only when
two reloads have not helped and nothing burns in it. -/
theorem watchdog_called_for (sim : Bool) (events : List Event) (lastReboot : ℚ) :
    Along (step sim) (Event.CalledFor sim) events (started lastReboot) := by
  have always : Along (step sim) (fun _ _ => True) events (started lastReboot) :=
    along_of_forall (fun _ _ _ => trivial) _
  apply Along.strengthen Kept (fun e w kept _ => kept.step sim e) _ (kept_started lastReboot) always
  rintro (l | _) w kept -
  · have does := does_watchdog sim l w.watchdog
    simp only [Event.CalledFor]
    generalize watchdog sim l w.watchdog = done at does
    cases does with
    | reset online gone set minute hung few =>
        exact ⟨kept.grounds online gone set minute hung, kept.reloads ▸ few⟩
    | reboot online gone set minute hung many idle hour =>
        refine ⟨kept.grounds online gone set minute hung, ?_, idle, hour⟩
        rw [← kept.reloads]
        exact le_antisymm kept.few many
    | _ => trivial
  · trivial

/-! ## Restarts -/

theorem printedWhole_near (x : ℚ) : x - 1 / 2 ≤ Rules.AlarmTable.printedWhole x := by
  have below := Int.floor_le x
  have above := Int.lt_floor_add_one x
  unfold Rules.AlarmTable.printedWhole
  split_ifs with near
  · rcases near with near | ⟨near, -⟩ <;> linarith
  · push_cast
    linarith

theorem lastReboot_le (sim : Bool) (e : Event) (w : Watching) :
    w.watchdog.lastReboot ≤ (step sim e w).watchdog.lastReboot := by
  cases e with
  | start => exact le_rfl
  | look l =>
      have does := does_watchdog sim l w.watchdog
      simp only [step]
      generalize watchdog sim l w.watchdog = done at does
      cases does with
      | reboot online gone set minute hung many idle hour =>
          change _ ≤ ((w.watchdog.awake l).noted l).lastReboot
          unfold Watchdog.noted
          split_ifs
          · have near := printedWhole_near l.wall
            change _ ≤ (Rules.AlarmTable.printedWhole l.wall : ℚ)
            linarith
          · exact le_rfl
      | _ => exact le_rfl

theorem hour_of_restart {sim : Bool} (events : List Event) {w : Watching} {wall : ℚ}
    (later : wall ∈ restarts sim events w) : w.watchdog.lastReboot + 3600 ≤ wall := by
  induction events generalizing w with
  | nil => cases later
  | cons e events ih =>
      have rest (later : wall ∈ restarts sim events (step sim e w)) :
          w.watchdog.lastReboot + 3600 ≤ wall := by
        linarith [ih later, lastReboot_le sim e w]
      cases e with
      | start => exact rest later
      | look l =>
          rw [restarts] at later
          split_ifs at later with fires
          · rcases List.mem_cons.mp later with rfl | later
            · have does := does_watchdog sim l w.watchdog
              generalize watchdog sim l w.watchdog = done at does fires
              cases does with
              | reboot online gone set minute hung many idle hour => exact hour
              | _ => cases fires
            · exact rest later
          · exact rest later

/-- Where the time of a restart can be written, two restarts are an hour apart but for the
half second that the time is rounded by, however the clock is set and however often the daemon
starts anew. -/
theorem restarts_an_hour_apart (sim : Bool) (events : List Event) (w : Watching)
    (written : ∀ l, .look l ∈ events → l.writes = true) :
    (restarts sim events w).Pairwise fun earlier later => earlier + 3600 - 1 / 2 ≤ later := by
  induction events generalizing w with
  | nil => exact .nil
  | cons e events ih =>
      have rest := fun w => ih w fun l inside => written l (List.mem_cons_of_mem _ inside)
      cases e with
      | start => exact rest _
      | look l =>
          rw [restarts]
          split_ifs with fires
          · refine List.pairwise_cons.mpr ⟨fun wall later => ?_, rest _⟩
            have hour := hour_of_restart events later
            have noted : (step sim (.look l) w).watchdog.lastReboot =
                Rules.AlarmTable.printedWhole l.wall := by
              have does := does_watchdog sim l w.watchdog
              simp only [step]
              generalize watchdog sim l w.watchdog = done at does fires
              cases does with
              | reboot online gone set minute hung many idle hour =>
                  change ((w.watchdog.awake l).noted l).lastReboot = _
                  rw [Watchdog.noted, if_pos (written l List.mem_cons_self)]
              | _ => cases fires
            rw [noted] at hour
            linarith [printedWhole_near l.wall]
          · exact rest _

/-- A look at a cold grill that is stopped. -/
def benchLook (reachable : Bool) (now wall : ℚ) : Event :=
  .look ⟨now, wall, .online, false, reachable, true, .stop, [⟨true, true, some 20⟩], true⟩

/-- The gateway answers once and then not again, from this time on. -/
def benchOutage (wall : ℚ) : List Event :=
  [benchLook true 1 wall, benchLook false 20 wall, benchLook false 85 wall,
    benchLook false 120 wall, benchLook false 155 wall]

theorem restarts_an_hour_apart_on_bench :
    restarts false (benchOutage 1000 ++ .start :: benchOutage 5000) (started 0) = [5000] ∧
      restarts false (benchOutage 5000 ++ .start :: benchOutage 9000) (started 0) =
        [5000, 9000] ∧
      (restarts false (benchOutage 5000 ++ .start :: benchOutage 9000) (started 0)).Pairwise
        fun earlier later => earlier + 3600 - 1 / 2 ≤ later := by
  refine ⟨by decide +kernel, by decide +kernel, restarts_an_hour_apart _ _ _ ?_⟩
  intro l inside
  simp only [benchOutage, benchLook, List.mem_append, List.mem_cons, Event.look.injEq,
    reduceCtorEq, List.not_mem_nil, or_false, false_or] at inside
  rcases inside with (rfl | rfl | rfl | rfl | rfl) | rfl | rfl | rfl | rfl | rfl <;> rfl

end PiFire.Net
