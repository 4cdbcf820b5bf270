import PiFire.Control.Notify
import PiFire.Transition.Run
import Mathlib.Tactic.Ring
import Mathlib.Tactic.Linarith

/-!
# The cook timer

The timer keeps the time it ends at while it runs and what is left of it while it is
paused. Over any order of starts, pauses, resumes, cancels and ticks a timer that was
started expires at one tick alone: the first that finds it not paused after it has run for
its duration, the pauses left out.
-/

namespace PiFire.CookTimer

open Transition

/-- What happens to the timer, and when. -/
inductive Event where
  | start (seconds : ℚ) (after : ℤ) (now : ℚ)
  | pause (now : ℚ)
  | resume (now : ℚ)
  | cancel (now : ℚ)
  | tick (now : ℚ) (estimates : RestEstimates) (s : Sensors) (mode : Mode) (units : Units)

def Event.now : Event → ℚ
  | .start _ _ now | .pause now | .resume now | .cancel now | .tick now _ _ _ _ => now

def Event.isTick : Event → Bool
  | .tick _ _ _ _ _ => true
  | _ => false

def step : Event → Notify → Notify
  | .start seconds after now, n => { n with timer := timerStart seconds after now n.timer }
  | .pause now, n => { n with timer := timerPause now n.timer }
  | .resume now, n => { n with timer := timerResume now n.timer }
  | .cancel _, n => { n with timer := .none }
  | .tick now estimates s mode units, n => notifyTick estimates s mode now units n

/-- The timer expires: a tick finds it running and leaves it not running. -/
def Expires (e : Event) (n : Notify) : Prop :=
  e.isTick = true ∧ n.timer.running = true ∧ (step e n).timer.running = false

/-- Whether a timer is paused after what has happened since its start, the last first. -/
def pausedAfter : List Event → Bool
  | [] => false
  | .pause _ :: _ => true
  | .resume _ :: _ => false
  | _ :: earlier => pausedAfter earlier

/-- When something happened last. -/
def lastTime (begun : ℚ) : List Event → ℚ
  | [] => begun
  | e :: _ => e.now

/-- The time a timer has spent unpaused. -/
def unpaused (begun : ℚ) : List Event → ℚ
  | [] => 0
  | e :: earlier =>
      unpaused begun earlier + if pausedAfter earlier then 0 else e.now - lastTime begun earlier

/-- A timer that was started and not cancelled: its duration, when it was started, and
what has happened since, the last first. -/
structure Course where
  seconds : ℚ
  begun : ℚ
  since : List Event

/-- A tick that finds the timer not paused, after it has run for its duration. -/
def Course.timeUp (e : Event) (c : Course) : Bool :=
  e.isTick && !pausedAfter c.since && c.seconds ≤ unpaused c.begun (e :: c.since)

def expiredBy (seconds begun : ℚ) : List Event → Bool
  | [] => false
  | e :: earlier => Course.timeUp e ⟨seconds, begun, earlier⟩ || expiredBy seconds begun earlier

/-- Whether a tick since the start has found the time up. -/
def Course.expired (c : Course) : Bool := expiredBy c.seconds c.begun c.since

/-- A course with one more thing that has happened. -/
def Course.more (e : Event) (c : Course) : Course := { c with since := e :: c.since }

/-- The timer that was started last, unless it was cancelled. -/
def current : List Event → Option Course
  | [] => none
  | .start seconds _ now :: _ => some ⟨seconds, now, []⟩
  | .cancel _ :: _ => none
  | e :: earlier => (current earlier).map (Course.more e)

/-- The timer, with all that has happened to it, the last first. -/
structure Books where
  notify : Notify
  history : List Event

def Books.step (e : Event) (b : Books) : Books := ⟨CookTimer.step e b.notify, e :: b.history⟩

/-- The timer expires at exactly the first tick that finds its time up. -/
def ExpiresRight (e : Event) (b : Books) : Prop :=
  Expires e b.notify ↔ ∃ c ∈ current b.history, c.timeUp e = true ∧ c.expired = false

/-- What the timer holds of a course: nothing once it has expired; before, what is left
of its duration, as a stamp of its end while it runs. -/
inductive Holds (t : Timer) (c : Course) : Prop where
  | elapsed (expired : c.expired = true) (stopped : t.running = false)
  | paused (going : c.expired = false) (running : t.running = true) (held : t.paused = true)
      (pausing : pausedAfter c.since = true)
      (left : t.remaining = c.seconds - unpaused c.begun c.since)
  | counting (going : c.expired = false) (running : t.running = true) (free : t.paused = false)
      (runs : pausedAfter c.since = false)
      (ends : t.endT = lastTime c.begun c.since + (c.seconds - unpaused c.begun c.since))

/-- What the timer holds after all that has happened. -/
def Kept (b : Books) : Prop :=
  match current b.history with
  | none => b.notify.timer.running = false
  | some c => Holds b.notify.timer c

section Steps

variable {t : Timer} {n : Notify} {c : Course} {now : ℚ}

theorem expired_more (e : Event) (c : Course) : (c.more e).expired = (c.timeUp e || c.expired) :=
  rfl

theorem unpaused_paused {e : Event} (pausing : pausedAfter c.since = true) :
    unpaused c.begun (e :: c.since) = unpaused c.begun c.since := by
  rw [unpaused, if_pos pausing, add_zero]

theorem unpaused_running {e : Event} (runs : pausedAfter c.since = false) :
    unpaused c.begun (e :: c.since) =
      unpaused c.begun c.since + (e.now - lastTime c.begun c.since) := by
  rw [unpaused, runs]
  rfl

theorem expired_aside {e : Event} (aside : e.isTick = false) :
    (c.more e).expired = c.expired := by
  rw [expired_more, Course.timeUp, aside, Bool.false_and, Bool.false_and, Bool.false_or]

theorem holds_pause (holds : Holds t c) : Holds (timerPause now t) (c.more (.pause now)) := by
  cases holds with
  | elapsed expired stopped =>
      refine .elapsed ((expired_aside rfl).trans expired) ?_
      simp [timerPause, stopped]
  | paused going running held pausing left =>
      have still : timerPause now t = t := by simp [timerPause, held]
      rw [still]
      refine .paused ((expired_aside rfl).trans going) running held rfl ?_
      exact left.trans (congrArg _ (unpaused_paused pausing).symm)
  | counting going running free runs ends =>
      have after : timerPause now t = { t with paused := true, remaining := t.endT - now } := by
        simp [timerPause, running, free]
      rw [after]
      refine .paused ((expired_aside rfl).trans going) running rfl rfl ?_
      simp only [Course.more, unpaused_running runs, ends, Event.now]
      ring

theorem holds_resume (holds : Holds t c) : Holds (timerResume now t) (c.more (.resume now)) := by
  cases holds with
  | elapsed expired stopped =>
      refine .elapsed ((expired_aside rfl).trans expired) ?_
      simp [timerResume, stopped]
  | paused going running held pausing left =>
      have after : timerResume now t = { t with paused := false, endT := now + t.remaining } := by
        simp [timerResume, running, held]
      rw [after]
      refine .counting ((expired_aside rfl).trans going) running rfl rfl ?_
      simp only [Course.more, unpaused_paused pausing, left, lastTime, Event.now]
  | counting going running free runs ends =>
      have still : timerResume now t = t := by simp [timerResume, free]
      rw [still]
      refine .counting ((expired_aside rfl).trans going) running free rfl ?_
      simp only [Course.more, unpaused_running runs, ends, lastTime, Event.now]
      ring

theorem timeUp_tick {e : Event} (tick : e.isTick = true) (runs : pausedAfter c.since = false)
    (ends : t.endT = lastTime c.begun c.since + (c.seconds - unpaused c.begun c.since)) :
    c.timeUp e = decide (t.endT ≤ e.now) := by
  rw [Course.timeUp, tick, runs, Bool.not_false, Bool.true_and, Bool.true_and, decide_eq_decide,
    unpaused_running runs, ends]
  constructor <;> intro reached <;> linarith

theorem holds_tick {e : Event} (tick : e.isTick = true) (holds : Holds n.timer c) :
    Holds (step e n).timer (c.more e) ∧
      (Expires e n ↔ c.timeUp e = true ∧ c.expired = false) := by
  cases e with
  | tick now estimates s mode units =>
      have after : (step (.tick now estimates s mode units) n).timer =
          if n.timer.running && !n.timer.paused && now ≥ n.timer.endT then .none else n.timer := rfl
      rw [Expires, after]
      cases holds with
      | elapsed expired stopped =>
          rw [stopped, Bool.false_and, Bool.false_and, if_neg Bool.false_ne_true]
          refine ⟨.elapsed ?_ stopped, ?_⟩
          · rw [expired_more, expired, Bool.or_true]
          · simp [expired]
      | paused going running held pausing left =>
          rw [held, Bool.not_true, Bool.and_false, Bool.false_and, if_neg Bool.false_ne_true]
          have early : c.timeUp (.tick now estimates s mode units) = false := by
            simp [Course.timeUp, pausing]
          refine ⟨.paused ?_ running held pausing ?_, ?_⟩
          · rw [expired_more, early, going, Bool.or_false]
          · exact left.trans (congrArg _ (unpaused_paused pausing).symm)
          · simp [running, early]
      | counting going running free runs ends =>
          have up := timeUp_tick tick runs ends
          rw [running, free, Bool.not_false, Bool.true_and, Bool.true_and]
          by_cases reached : n.timer.endT ≤ now
          · rw [if_pos (decide_eq_true reached)]
            have now_ : c.timeUp (.tick now estimates s mode units) = true := by
              rw [up]
              exact decide_eq_true reached
            refine ⟨.elapsed ?_ rfl, ?_⟩
            · rw [expired_more, now_, Bool.true_or]
            · exact iff_of_true ⟨rfl, rfl, rfl⟩ ⟨now_, going⟩
          · rw [if_neg (by simpa using reached)]
            have early : c.timeUp (.tick now estimates s mode units) = false := by
              rw [up]
              exact decide_eq_false reached
            refine ⟨.counting ?_ running free runs ?_, ?_⟩
            · rw [expired_more, early, going, Bool.or_false]
            · simp only [Course.more, unpaused_running runs, ends, lastTime, Event.now]
              ring
            · simp [running, early]
  | _ => cases tick

end Steps

theorem expiresRight_aside {e : Event} {b : Books} (aside : e.isTick = false) :
    ExpiresRight e b := by
  apply iff_of_false
  · rintro ⟨tick, -⟩
    rw [aside] at tick
    cases tick
  · rintro ⟨c, -, up, -⟩
    rw [Course.timeUp, aside, Bool.false_and, Bool.false_and] at up
    cases up

theorem kept_more {b : Books} {e : Event}
    (more : current (e :: b.history) = (current b.history).map (Course.more e))
    (idle : b.notify.timer.running = false → (step e b.notify).timer.running = false)
    (holds : ∀ c, Holds b.notify.timer c → Holds (step e b.notify).timer (c.more e))
    (kept : Kept b) : Kept (b.step e) := by
  rw [Kept, Books.step, more]
  rw [Kept] at kept
  cases found : current b.history with
  | none =>
      rw [found] at kept
      exact idle kept
  | some c =>
      rw [found] at kept
      exact holds c kept

theorem kept_tick {b : Books} {e : Event} (tick : e.isTick = true) (kept : Kept b) :
    Kept (b.step e) ∧ ExpiresRight e b := by
  have more : current (e :: b.history) = (current b.history).map (Course.more e) := by
    cases e with
    | tick => rfl
    | _ => cases tick
  have idle (stopped : b.notify.timer.running = false) :
      (step e b.notify).timer.running = false := by
    cases e with
    | tick => simp [step, notifyTick, stopped]
    | _ => cases tick
  refine ⟨kept_more more idle (fun c holds => (holds_tick tick holds).1) kept, ?_⟩
  rw [Kept] at kept
  rw [ExpiresRight]
  cases found : current b.history with
  | none =>
      rw [found] at kept
      apply iff_of_false
      · rintro ⟨-, running, -⟩
        rw [kept] at running
        cases running
      · rintro ⟨c, inside, -⟩
        cases inside
  | some c =>
      rw [found] at kept
      rw [(holds_tick tick kept).2]
      simp

theorem kept_step {b : Books} (kept : Kept b) (e : Event) :
    Kept (b.step e) ∧ ExpiresRight e b := by
  cases e with
  | start seconds after now =>
      refine ⟨Holds.counting rfl rfl rfl rfl ?_, expiresRight_aside rfl⟩
      simp [Books.step, step, timerStart, lastTime, unpaused]
  | cancel now => exact ⟨rfl, expiresRight_aside rfl⟩
  | pause now =>
      refine ⟨kept_more rfl (fun stopped => ?_) (fun c holds => holds_pause holds) kept,
        expiresRight_aside rfl⟩
      simp [step, timerPause, stopped]
  | resume now =>
      refine ⟨kept_more rfl (fun stopped => ?_) (fun c holds => holds_resume holds) kept,
        expiresRight_aside rfl⟩
      simp [step, timerResume, stopped]
  | tick now estimates s mode units => exact kept_tick rfl kept

/-- Over any order of starts, pauses, resumes, cancels and ticks a timer that was started
and not cancelled expires at exactly the first tick that finds it not paused after it has
spent its duration unpaused. -/
theorem cook_timer_expires_once (n : Notify) (idle : n.timer.running = false)
    (events : List Event) :
    Along Books.step ExpiresRight events ⟨n, []⟩ := by
  refine Along.strengthen Kept (fun e b kept _ => (kept_step kept e).1)
    (fun e b kept _ => (kept_step kept e).2) idle (along_of_forall (fun _ _ _ => trivial) _)

/-- A tick of a grill in Hold with no probes. -/
def benchTick (now : ℚ) : Event :=
  .tick now ⟨fun _ _ => 0, fun _ _ => 0⟩ .none .hold .f

/-- A timer of ten seconds is paused past its end, runs on and expires, and another is
started and cancelled. -/
theorem cook_timer_expires_once_on_bench :
    Along Books.step ExpiresRight
      [.start 10 0 100, benchTick 105, .pause 106, benchTick 120, .resume 121, benchTick 124,
        benchTick 125, benchTick 126, .start 10 0 130, .cancel 135, benchTick 145]
      ⟨.init, []⟩ :=
  cook_timer_expires_once .init rfl _

end PiFire.CookTimer
