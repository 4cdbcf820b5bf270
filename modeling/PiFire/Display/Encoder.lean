import PiFire.Display.Keys
import Mathlib.Data.List.Chain

/-!
# The encoder thread

The thread wakes at an edge of the knob or of its button, or after a while without one. From
the lines of the knob it counts quarter turns and delivers a click at the detent; from the
button it delivers presses. On the main screen a press is held back until it is known that no
second one follows.
-/

namespace PiFire.Display

open Transition

/-! ## The knob -/

/-- The lines of the knob, `(CLK << 1) | DT`. -/
abbrev Lines := Fin 4

/-- `QUAD` -/
def quad : Vector ℤ 16 := #v[0, -1, 1, 0, 1, 0, 0, -1, -1, 0, 0, 1, 0, 1, -1, 0]

/-- What the table counts from one state of the lines to the next. -/
def quadStep (state ns : Lines) : ℤ := quad.get ⟨4 * state + ns, by omega⟩

structure Knob where
  state : Lines
  accum : ℤ

/-- The lines are read; back at the detent, a click is delivered if there was one. -/
def Knob.turn (ns : Lines) (k : Knob) : Knob × List Key :=
  if ns = k.state then (k, [])
  else
    let accum := k.accum + quadStep k.state ns
    if ns = 3 then
      (⟨ns, 0⟩, if accum ≥ 2 then [.up] else if accum ≤ -2 then [.down] else [])
    else (⟨ns, accum⟩, [])

/-- The knob as a sequence of readings leaves it, and what it delivers. -/
def Knob.turns : List Lines → Knob → Knob × List Key
  | [], k => (k, [])
  | ns :: reads, k => ((turns reads (k.turn ns).1).1, (k.turn ns).2 ++ (turns reads (k.turn ns).1).2)

/-- What a knob that stands at `start` delivers. -/
def knobKeys (start : Lines) (reads : List Lines) : List Key := (Knob.turns reads ⟨start, 0⟩).2

/-! ## The thread -/

/-- `SW_DEBOUNCE_S` -/
def swDebounceS : ℚ := 6 / 100

/-- `DOUBLE_CLICK_S` -/
def doubleClickS : ℚ := 45 / 100

/-- `LONG_PRESS_S` -/
def longPressS : ℚ := 3 / 2

/-- What a wake-up finds: the time, the lines and the button where they have an edge, and the
screen where it is looked at, which others may change at any time. -/
structure Wake where
  now : ℚ
  lines : Option Lines
  button : Option Bool
  onMain : Bool
  flashing : Bool
  deep : Bool

structure Encoder where
  knob : Knob
  pressed : Bool
  longSent : Bool
  pressT : ℚ
  lastEnter : ℚ
  clickPending : Bool
  clickT : ℚ

/-- What the thread does to the panel: it delivers a key, or a press that is held backs out to
the grill or stops it. -/
inductive Call where
  | input (k : Key)
  | navReset
  | estop
  deriving DecidableEq

/-- What becomes of a press at its release: it is delivered, it is delivered with the one that
is held back, or it is held back. -/
inductive Fate where
  | entered
  | doubled
  | heldBack
  deriving DecidableEq

namespace Encoder

/-- A release ends a press that counts. -/
def accepts (w : Wake) (e : Encoder) : Bool :=
  w.button = some false ∧ e.pressed ∧ ¬e.longSent ∧ w.now - e.pressT ≥ 2 / 100 ∧
    w.now - e.lastEnter ≥ swDebounceS

def fate (w : Wake) (e : Encoder) : Fate :=
  if !w.onMain || w.flashing then .entered
  else if e.clickPending ∧ w.now - e.clickT ≤ doubleClickS then .doubled
  else .heldBack

/-- The edges of the button. -/
def press (w : Wake) (e : Encoder) : Encoder × List Call :=
  match w.button with
  | none => (e, [])
  | some true =>
      (if e.pressed then e else { e with pressed := true, pressT := w.now, longSent := false }, [])
  | some false =>
      if e.accepts w then
        let up := { e with pressed := false, lastEnter := w.now }
        match e.fate w with
        | .entered => (up, [.input .enter])
        | .doubled => ({ up with clickPending := false }, [.input .double])
        | .heldBack => ({ up with clickPending := true, clickT := w.now }, [])
      else ({ e with pressed := false }, [])

/-- A press is held back and no second one can follow. -/
def Late (w : Wake) (e : Encoder) : Prop := e.clickPending = true ∧ w.now - e.clickT > doubleClickS

instance (w : Wake) (e : Encoder) : Decidable (e.Late w) := inferInstanceAs (Decidable (_ ∧ _))

/-- A press that is held back is delivered when no second one can follow. -/
def window (w : Wake) (e : Encoder) : Encoder × List Call :=
  if e.Late w then ({ e with clickPending := false }, [.input .enter]) else (e, [])

/-- The button is held for long. -/
def hold (w : Wake) (e : Encoder) : Encoder × List Call :=
  if e.pressed ∧ ¬e.longSent ∧ w.now - e.pressT ≥ longPressS then
    ({ e with longSent := true }, [if w.deep then .navReset else .estop])
  else (e, [])

/-- The edges of the knob. -/
def turn (w : Wake) (e : Encoder) : Encoder × List Call :=
  match w.lines with
  | none => (e, [])
  | some ns => ({ e with knob := (e.knob.turn ns).1 }, (e.knob.turn ns).2.map .input)

/-- One round of `encoder_thread`. -/
def step (w : Wake) (e : Encoder) : Encoder × List Call :=
  let turned := e.turn w
  let released := turned.1.press w
  let closed := released.1.window w
  let held := closed.1.hold w
  (held.1, turned.2 ++ released.2 ++ closed.2 ++ held.2)

/-- The thread as it starts. -/
def create (lines : Lines) (down : Bool) : Encoder := ⟨⟨lines, 0⟩, down, false, 0, 0, false, 0⟩

end Encoder

/-! ## What is delivered -/

def Call.key? : Call → Option Key
  | .input k => some k
  | _ => none

/-- The clicks of the knob among what the thread does. -/
def clicksOf (calls : List Call) : List Key :=
  (calls.filterMap Call.key?).filter (·.dir ≠ 0)

/-- The presses among what the thread does. -/
def pressesOf (calls : List Call) : List Key :=
  (calls.filterMap Call.key?).filter (·.dir = 0)

/-- A key delivered for presses, each by its number. -/
inductive Delivery where
  | enter (n : ℕ)
  | double (m n : ℕ)
  deriving DecidableEq

def Delivery.presses : Delivery → List ℕ
  | .enter n => [n]
  | .double m n => [m, n]

def Delivery.key : Delivery → Key
  | .enter _ => .enter
  | .double _ _ => .double

/-- The presses that were accepted, the one that is held back, and what was delivered. -/
structure Ledger where
  accepted : ℕ
  held : Option ℕ
  delivered : List Delivery

namespace Ledger

def deliver (d : Delivery) (g : Ledger) : Ledger := { g with delivered := g.delivered ++ [d] }

/-- The press that is held back is delivered, alone or with a second one. -/
def close (second : Option ℕ) (g : Ledger) : Ledger :=
  match g.held, second with
  | some m, some n => { g with held := none }.deliver (.double m n)
  | some m, none => { g with held := none }.deliver (.enter m)
  | none, _ => g

/-- A press is accepted. -/
def accept (fate : Fate) (g : Ledger) : Ledger :=
  let next := { g with accepted := g.accepted + 1 }
  match fate with
  | .entered => next.deliver (.enter g.accepted)
  | .doubled => next.close (some g.accepted)
  | .heldBack => { next with held := some g.accepted }

/-- The presses in the order they reach the panel, the one that is held back last. -/
def order (g : Ledger) : List ℕ := g.delivered.flatMap Delivery.presses ++ g.held.toList

/-- No press is lost or doubled, and the order is kept. -/
def Kept (g : Ledger) : Prop := g.order = List.range g.accepted

instance (g : Ledger) : Decidable g.Kept := inferInstanceAs (Decidable (_ = _))

end Ledger

/-- The thread with what it did, and the presses it did it for. -/
structure Traced where
  thread : Encoder
  calls : List Call
  ledger : Ledger

namespace Traced

def step (w : Wake) (t : Traced) : Traced where
  thread := (t.thread.step w).1
  calls := t.calls ++ (t.thread.step w).2
  ledger :=
    let g := if t.thread.accepts w then t.ledger.accept (t.thread.fate w) else t.ledger
    if (t.thread.press w).1.Late w then g.close none else g

def create (lines : Lines) (down : Bool) : Traced := ⟨.create lines down, [], ⟨0, none, []⟩⟩

/-- A press that is accepted while another is held back makes a double click with it. -/
def Clear (w : Wake) (t : Traced) : Prop :=
  t.thread.accepts w = true → t.thread.clickPending = true → t.thread.fate w = .doubled

instance (w : Wake) (t : Traced) : Decidable (Clear w t) :=
  inferInstanceAs (Decidable (_ → _ → _))

end Traced

/-! ## Clicks of the knob -/

/-- At most one line differs. -/
def Near (a b : Lines) : Prop := a.val / 2 = b.val / 2 ∨ a.val % 2 = b.val % 2

instance : DecidableRel Near := fun _ _ => inferInstanceAs (Decidable (_ ∨ _))

/-- The lines from one detent to the next. -/
structure Turn where
  between : List Lines
  away : 3 ∉ between
  near : (3 :: (between ++ [3])).IsChain Near

/-- Once round one way leaves the detent by one line and comes back by the other; what comes
back by the line it left by has not been round. -/
def Turn.clicks (t : Turn) : List Key :=
  match t.between.head?, t.between.getLast? with
  | some 1, some 2 => [.up]
  | some 2, some 1 => [.down]
  | _, _ => []

namespace Knob

theorem turns_append (first second : List Lines) (k : Knob) :
    turns (first ++ second) k =
      ((turns second (turns first k).1).1, (turns first k).2 ++ (turns second (turns first k).1).2) := by
  induction first generalizing k with
  | nil => rfl
  | cons ns first ih =>
      simp only [List.cons_append, turns, ih, List.append_assoc]

theorem turn_state (ns : Lines) (k : Knob) : (k.turn ns).1.state = ns := by
  rw [turn]
  split_ifs with same
  · exact same.symm
  · rfl
  · rfl

theorem turn_settled (ns : Lines) {k : Knob} (settled : k.state = 3 → k.accum = 0) :
    (k.turn ns).1.state = 3 → (k.turn ns).1.accum = 0 := by
  rw [turn]
  split_ifs with same detent
  · exact settled
  · exact fun _ => rfl
  · exact fun at_ => absurd at_ detent

theorem turns_settled (reads : List Lines) {k : Knob} (settled : k.state = 3 → k.accum = 0) :
    (turns reads k).1.state = 3 → (turns reads k).1.accum = 0 := by
  induction reads generalizing k with
  | nil => exact settled
  | cons ns reads ih => exact ih (turn_settled ns settled)

theorem turns_detent (start : Lines) (reads : List Lines) :
    (turns (reads ++ [3]) ⟨start, 0⟩).1 = ⟨3, 0⟩ := by
  have state : (turns (reads ++ [3]) ⟨start, 0⟩).1.state = 3 := by
    rw [turns_append]
    exact turn_state 3 _
  have accum := turns_settled (reads ++ [3]) (k := ⟨start, 0⟩) (fun _ => rfl) state
  rcases h : (turns (reads ++ [3]) ⟨start, 0⟩).1 with ⟨s, a⟩
  simp_all

/-- How far round the lines are from the detent. -/
def place : Lines → ℤ
  | 0 => 2
  | 1 => 1
  | 2 => 3
  | 3 => 0

theorem quadStep_eq : ∀ a b : Lines, Near a b → a ≠ 3 → b ≠ 3 → a ≠ b →
    quadStep a b = place b - place a := by decide

theorem turns_away {reads : List Lines} {k : Knob} (start : k.state ≠ 3) (away : 3 ∉ reads)
    (near : (k.state :: reads).IsChain Near) :
    ∃ s, (k.state :: reads).getLast? = some s ∧ s ≠ 3 ∧
      turns reads k = (⟨s, k.accum + (place s - place k.state)⟩, []) := by
  induction reads generalizing k with
  | nil => exact ⟨k.state, rfl, start, by simp [turns]⟩
  | cons ns reads ih =>
      rw [List.mem_cons, not_or] at away
      have notDetent : ns ≠ 3 := Ne.symm away.1
      rw [List.isChain_cons_cons] at near
      have turned : k.turn ns = (⟨ns, k.accum + (place ns - place k.state)⟩, []) := by
        rw [turn]
        split_ifs with same
        · subst same
          simp
        · rw [quadStep_eq _ _ near.1 start notDetent (Ne.symm same)]
      obtain ⟨s, last, left, rest⟩ :=
        ih (k := ⟨ns, k.accum + (place ns - place k.state)⟩) notDetent away.2 near.2
      refine ⟨s, by rw [List.getLast?_cons_cons]; exact last, left, ?_⟩
      simp only [turns, turned, rest, List.nil_append, Prod.mk.injEq, mk.injEq, true_and, and_true]
      ring

theorem ends_of_turn : ∀ f s : Lines, Near 3 f → f ≠ 3 → Near s 3 → s ≠ 3 →
    let accum := quadStep 3 f + (place s - place f) + quadStep s 3
    (if accum ≥ 2 then [Key.up] else if accum ≤ -2 then [.down] else []) =
      match some f, some s with
      | some 1, some 2 => [.up]
      | some 2, some 1 => [.down]
      | _, _ => [] := by decide

theorem turns_turn (t : Turn) :
    (turns t.between ⟨3, 0⟩).2 = [] ∧ (turns (t.between ++ [3]) ⟨3, 0⟩).2 = t.clicks := by
  rcases t with ⟨between, away, near⟩
  cases between with
  | nil => exact ⟨rfl, rfl⟩
  | cons f rest =>
      rw [List.mem_cons, not_or] at away
      have notDetent : f ≠ 3 := Ne.symm away.1
      rw [List.cons_append, List.isChain_cons_cons] at near
      have first : turn f ⟨3, 0⟩ = (⟨f, quadStep 3 f⟩, []) := by simp [turn, notDetent]
      have walk : ((f :: rest) ++ [3]).IsChain Near := near.2
      obtain ⟨onward, -, back⟩ := List.isChain_append.mp walk
      obtain ⟨s, last, left, counted⟩ :=
        turns_away (k := ⟨f, quadStep 3 f⟩) notDetent away.2 onward
      have onTheWay : turns (f :: rest) ⟨3, 0⟩ = (⟨s, quadStep 3 f + (place s - place f)⟩, []) := by
        simp only [turns, first, counted, List.nil_append]
      refine ⟨by rw [onTheWay], ?_⟩
      have near₃ : Near s 3 := back s last 3 rfl
      rw [turns_append, onTheWay]
      simp only [turns, turn, if_neg (Ne.symm left), if_pos, List.nil_append, List.append_nil,
        Turn.clicks, List.head?_cons, last]
      exact ends_of_turn f s near.1 notDetent near₃ left

theorem dir_of_turn {ns : Lines} {k : Knob} {key : Key} (delivered : key ∈ (k.turn ns).2) :
    key.dir ≠ 0 := by
  simp only [turn] at delivered
  split_ifs at delivered <;> simp only [List.mem_singleton, List.not_mem_nil] at delivered <;>
    subst delivered <;> decide

end Knob

theorem clicksOf_append (first second : List Call) :
    clicksOf (first ++ second) = clicksOf first ++ clicksOf second := by
  simp [clicksOf]

theorem pressesOf_append (first second : List Call) :
    pressesOf (first ++ second) = pressesOf first ++ pressesOf second := by
  simp [pressesOf]

theorem keys_map_input (keys : List Key) :
    (keys.map Call.input).filterMap Call.key? = keys := by
  rw [List.filterMap_map]
  exact List.filterMap_some

namespace Encoder

variable (w : Wake) (e : Encoder)

theorem press_quiet : (e.press w).1.knob = e.knob ∧ clicksOf (e.press w).2 = [] := by
  rw [press]
  split
  · exact ⟨rfl, rfl⟩
  · split_ifs <;> exact ⟨rfl, rfl⟩
  · split_ifs
    · dsimp only
      split <;> exact ⟨rfl, rfl⟩
    · exact ⟨rfl, rfl⟩

theorem window_quiet : (e.window w).1.knob = e.knob ∧ clicksOf (e.window w).2 = [] := by
  rw [window]
  split_ifs <;> exact ⟨rfl, rfl⟩

theorem hold_quiet : (e.hold w).1.knob = e.knob ∧ clicksOf (e.hold w).2 = [] ∧
    pressesOf (e.hold w).2 = [] := by
  rw [hold]
  split_ifs <;> exact ⟨rfl, rfl, rfl⟩

theorem turn_clicks : ((e.turn w).1.knob, clicksOf (e.turn w).2) =
    Knob.turns w.lines.toList e.knob := by
  rw [turn]
  cases w.lines with
  | none => rfl
  | some ns =>
      simp only [clicksOf, keys_map_input, Option.toList_some, Knob.turns, List.append_nil,
        Prod.mk.injEq, true_and]
      exact List.filter_eq_self.mpr fun key delivered =>
        decide_eq_true (Knob.dir_of_turn delivered)

theorem step_clicks : ((e.step w).1.knob, clicksOf (e.step w).2) =
    Knob.turns w.lines.toList e.knob := by
  obtain ⟨pressed, noPress⟩ := press_quiet w (e.turn w).1
  obtain ⟨windowed, noWindow⟩ := window_quiet w ((e.turn w).1.press w).1
  obtain ⟨held, noHold, -⟩ := hold_quiet w (((e.turn w).1.press w).1.window w).1
  simp only [step, clicksOf_append, noPress, noWindow, noHold, held, windowed, pressed,
    List.append_nil, turn_clicks]

end Encoder

theorem clicks_run (ws : List Wake) (t : Traced) :
    clicksOf (run Traced.step ws t).calls =
      clicksOf t.calls ++ (Knob.turns (ws.filterMap Wake.lines) t.thread.knob).2 := by
  induction ws generalizing t with
  | nil => simp [Knob.turns]
  | cons w ws ih =>
      obtain ⟨knob, clicks⟩ := Prod.ext_iff.mp (Encoder.step_clicks w t.thread)
      rw [run_cons, ih]
      simp only [Traced.step, clicksOf_append] at knob clicks ⊢
      rw [knob, clicks, List.append_assoc]
      cases h : w.lines <;> simp [h, Knob.turns]

/-- Whenever the knob is back at its detent one click is delivered if it went once round since
the last time, up or down by the way it went, and none if it came back the way it went; on the
way nothing is. The thread delivers no other clicks. -/
theorem knob_clicks (start : Lines) (down : Bool) :
    (∀ ws, clicksOf (run Traced.step ws (.create start down)).calls =
      knobKeys start (ws.filterMap Wake.lines)) ∧
    ∀ (before : List Lines) (t : Turn),
      knobKeys start ((before ++ [3]) ++ t.between) = knobKeys start (before ++ [3]) ∧
      knobKeys start ((before ++ [3]) ++ (t.between ++ [3])) =
        knobKeys start (before ++ [3]) ++ t.clicks := by
  refine ⟨fun ws => clicks_run ws _, fun before t => ?_⟩
  obtain ⟨onTheWay, atEnd⟩ := Knob.turns_turn t
  have detent := Knob.turns_detent start before
  simp only [knobKeys, Knob.turns_append (before ++ [3]), detent, onTheWay, atEnd,
    List.append_nil, and_self]

/-! ## Presses -/

/-- Whether a press is held back after one that comes to this. -/
def Fate.leaves (pending : Bool) : Fate → Bool
  | .entered => pending
  | .doubled => false
  | .heldBack => true

/-- What is delivered at the release. -/
def Fate.keys : Fate → List Key
  | .entered => [.enter]
  | .doubled => [.double]
  | .heldBack => []

namespace Ledger

variable {g : Ledger}

/-- Of the presses that were accepted there is at most one place for each. -/
def Fits (g : Ledger) : Prop := g.order.length ≤ g.accepted

def keys (g : Ledger) : List Key := g.delivered.map Delivery.key

theorem close_spec (g : Ledger) :
    (g.close none).order = g.order ∧ (g.close none).accepted = g.accepted ∧
      (g.close none).held = none ∧
        (g.close none).keys = g.keys ++ if g.held.isSome then [.enter] else [] := by
  rcases g with ⟨accepted, _ | m, delivered⟩ <;>
  simp [close, order, deliver, keys, Delivery.presses, Delivery.key]

theorem accept_spec (fate : Fate) (second : fate = .doubled → g.held.isSome) :
    (g.accept fate).held.isSome = fate.leaves g.held.isSome ∧
      (g.accept fate).keys = g.keys ++ fate.keys ∧ (g.accept fate).accepted = g.accepted + 1 := by
  rcases g with ⟨accepted, held, delivered⟩
  cases fate with
  | doubled =>
      obtain ⟨m, rfl⟩ := Option.isSome_iff_exists.mp (second rfl)
      simp [accept, close, deliver, keys, Fate.leaves, Fate.keys, Delivery.key]
  | _ => simp [accept, deliver, keys, Fate.leaves, Fate.keys, Delivery.key]

theorem fits_accept (fate : Fate) (second : fate = .doubled → g.held.isSome) (fits : g.Fits) :
    (g.accept fate).Fits := by
  rcases g with ⟨accepted, held, delivered⟩
  cases held <;> cases fate <;>
    simp_all [Fits, order, accept, close, deliver, Delivery.presses]
  all_goals omega

theorem kept_accept (fate : Fate) (second : fate = .doubled → g.held.isSome) (fits : g.Fits) :
    (g.accept fate).Kept ↔ g.Kept ∧ (g.held.isSome → fate = .doubled) := by
  rcases g with ⟨accepted, held, delivered⟩
  simp only [Kept, (accept_spec fate second).2.2, List.range_succ]
  cases held with
  | none =>
      cases fate with
      | doubled => cases second rfl
      | _ => simp [order, accept, deliver, Delivery.presses]
  | some m =>
      cases fate with
      | doubled =>
          have pair : (accept .doubled ⟨accepted, some m, delivered⟩).order =
              (⟨accepted, some m, delivered⟩ : Ledger).order ++ [accepted] := by
            simp [order, accept, close, deliver, Delivery.presses]
          simp [pair]
      | entered =>
          -- the later press has come before the one that was held back
          simp only [order, accept, deliver, Option.toList_some, reduceCtorEq, Option.isSome_some,
            forall_const, and_false, iff_false, List.flatMap_append, List.flatMap_singleton,
            Delivery.presses]
          intro same
          have before := List.append_inj_left' same rfl
          have inside : accepted ∈ List.range accepted := by rw [← before]; simp
          simp at inside
      | heldBack =>
          -- the press that was held back is lost
          simp only [order, accept, Option.toList_some, reduceCtorEq, Option.isSome_some,
            forall_const, and_false, iff_false, List.append_left_inj]
          intro same
          simp [Fits, order, same] at fits

end Ledger

namespace Encoder

variable (w : Wake) (e : Encoder)

theorem press_knob (k : Knob) :
    press w { e with knob := k } = ({ (e.press w).1 with knob := k }, (e.press w).2) := by
  have accepts_eq : accepts w { e with knob := k } = e.accepts w := rfl
  have fate_eq : fate w { e with knob := k } = e.fate w := rfl
  simp only [press, accepts_eq, fate_eq]
  split
  · rfl
  · split_ifs <;> rfl
  · split_ifs
    · cases e.fate w <;> rfl
    · rfl

theorem turn_presses : (∃ k, (e.turn w).1 = { e with knob := k }) ∧ pressesOf (e.turn w).2 = [] := by
  rw [turn]
  cases w.lines with
  | none => exact ⟨⟨e.knob, rfl⟩, rfl⟩
  | some ns =>
      refine ⟨⟨_, rfl⟩, ?_⟩
      simp only [pressesOf, keys_map_input]
      exact List.filter_eq_nil_iff.mpr fun key delivered => by
        simpa using Knob.dir_of_turn delivered

theorem press_spec :
    (e.press w).1.clickPending =
      (if e.accepts w then (e.fate w).leaves e.clickPending else e.clickPending) ∧
    pressesOf (e.press w).2 = if e.accepts w then (e.fate w).keys else [] := by
  rw [press]
  split
  · next same => simp [accepts, same, pressesOf]
  · next same =>
      have refused : e.accepts w = false := by simp [accepts, same]
      simp only [refused, Bool.false_eq_true, if_false]
      exact ⟨by split_ifs <;> rfl, rfl⟩
  · split_ifs
    · dsimp only
      split <;> next same => simp [same, Fate.leaves, Fate.keys, pressesOf, Call.key?, Key.dir]
    · exact ⟨rfl, rfl⟩

theorem fate_doubled (doubled : e.fate w = .doubled) : e.clickPending = true := by
  rw [fate] at doubled
  split_ifs at doubled with away quick
  exact quick.1

theorem hold_pending : (e.hold w).1.clickPending = e.clickPending ∧ (e.hold w).1.clickT = e.clickT := by
  rw [hold]
  split_ifs <;> exact ⟨rfl, rfl⟩

theorem step_spec :
    (e.step w).1.clickT = (e.press w).1.clickT ∧
    (e.step w).1.clickPending = (if (e.press w).1.Late w then false else (e.press w).1.clickPending) ∧
    pressesOf (e.step w).2 =
      pressesOf (e.press w).2 ++ if (e.press w).1.Late w then [.enter] else [] := by
  obtain ⟨⟨k, turned⟩, noClick⟩ := turn_presses w e
  simp only [step, pressesOf_append, noClick, hold_quiet, hold_pending, turned, press_knob,
    List.append_nil, List.nil_append]
  have same : Late w { (e.press w).1 with knob := k } ↔ (e.press w).1.Late w := Iff.rfl
  rw [window]
  by_cases late : (e.press w).1.Late w
  · simp [same, late, pressesOf, Call.key?, Key.dir]
  · simp [same, late, pressesOf]

end Encoder

namespace Traced

/-- The ledger is that of the thread. -/
structure Booked (t : Traced) : Prop where
  fits : t.ledger.Fits
  pending : t.ledger.held.isSome = t.thread.clickPending
  keys : pressesOf t.calls = t.ledger.keys

/-- The ledger once the edges of the button are seen. -/
def released (w : Wake) (t : Traced) : Ledger :=
  if t.thread.accepts w then t.ledger.accept (t.thread.fate w) else t.ledger

theorem released_spec (w : Wake) {t : Traced} (booked : t.Booked) :
    (t.released w).Fits ∧ (t.released w).held.isSome = (t.thread.press w).1.clickPending ∧
    (t.released w).keys = t.ledger.keys ++ pressesOf (t.thread.press w).2 ∧
    ((t.released w).Kept ↔ t.ledger.Kept ∧ Clear w t) := by
  have second (doubled : t.thread.fate w = .doubled) : t.ledger.held.isSome = true :=
    booked.pending.trans (Encoder.fate_doubled w _ doubled)
  obtain ⟨pending, keys⟩ := Encoder.press_spec w t.thread
  rw [released, pending, keys]
  by_cases accepted : t.thread.accepts w = true
  · obtain ⟨held, delivered, -⟩ := Ledger.accept_spec (t.thread.fate w) second
    simp only [if_pos accepted]
    refine ⟨Ledger.fits_accept _ second booked.fits, by rw [held, booked.pending], delivered, ?_⟩
    rw [Ledger.kept_accept _ second booked.fits, Clear, booked.pending]
    exact and_congr_right fun _ => ⟨fun kept _ => kept, fun clear => clear accepted⟩
  · simp only [if_neg accepted, List.append_nil]
    have clear : Clear w t := fun isAccepted => absurd isAccepted accepted
    exact ⟨booked.fits, booked.pending, trivial, (and_iff_left clear).symm⟩

theorem step_booked (w : Wake) {t : Traced} (booked : t.Booked) :
    (t.step w).Booked ∧ ((t.step w).ledger.Kept ↔ t.ledger.Kept ∧ Clear w t) := by
  obtain ⟨fits, held, keys, kept⟩ := released_spec w booked
  obtain ⟨-, pending, presses⟩ := Encoder.step_spec w t.thread
  have calls : pressesOf (t.step w).calls = t.ledger.keys ++ pressesOf (t.thread.step w).2 := by
    rw [step, pressesOf_append, booked.keys]
  by_cases late : (t.thread.press w).1.Late w
  · obtain ⟨order, accepted, none_, closed⟩ := (t.released w).close_spec
    have ledger : (t.step w).ledger = (t.released w).close none := if_pos late
    rw [if_pos late] at pending presses
    refine ⟨⟨?_, ?_, ?_⟩, ?_⟩
    · rw [ledger, Ledger.Fits, order, accepted]
      exact fits
    · rw [ledger, none_]
      exact pending.symm
    · rw [calls, presses, ledger, closed, keys, held, if_pos late.1, List.append_assoc]
    · rw [ledger, Ledger.Kept, order, accepted]
      exact kept
  · have ledger : (t.step w).ledger = t.released w := if_neg late
    rw [if_neg late] at pending presses
    refine ⟨⟨?_, ?_, ?_⟩, ?_⟩
    · rw [ledger]
      exact fits
    · rw [ledger, held]
      exact pending.symm
    · rw [calls, presses, List.append_nil, ledger, keys]
    · rw [ledger]
      exact kept

theorem booked_create (lines : Lines) (down : Bool) : (create lines down).Booked :=
  ⟨Nat.le_refl 0, rfl, rfl⟩

theorem booked_run (ws : List Wake) (lines : Lines) (down : Bool) :
    (run step ws (create lines down)).Booked :=
  run_invariant Booked (fun w _ booked => (step_booked w booked).1) (booked_create lines down)

/-- In a run every accepted press is delivered once and in order, alone or with the one before
it, exactly where no press is accepted beside one that is held back without making a double
click with it. The keys the thread delivers are those of the ledger, and a press is held back
only as long as a second one can follow. -/
theorem presses_kept_iff (lines : Lines) (down : Bool) (ws : List Wake) :
    ((run step ws (create lines down)).ledger.Kept ↔ Along step Clear ws (create lines down)) ∧
    pressesOf (run step ws (create lines down)).calls =
      (run step ws (create lines down)).ledger.delivered.map Delivery.key ∧
    ∀ w, (run step (ws ++ [w]) (create lines down)).ledger.held.isSome = true →
      w.now - (run step (ws ++ [w]) (create lines down)).thread.clickT ≤ doubleClickS := by
  refine ⟨?_, (booked_run ws lines down).keys, fun w => ?_⟩
  · rw [run_iff_along Booked (fun t => t.ledger.Kept) (fun w _ booked => (step_booked w booked).1)
      (fun w _ booked => (step_booked w booked).2) (booked_create lines down)]
    exact and_iff_right rfl
  · have booked := (step_booked w (booked_run ws lines down)).1
    rw [run_append, run_cons, run_nil, booked.pending]
    obtain ⟨clickT, pending, -⟩ :=
      Encoder.step_spec w (run step ws (create lines down)).thread
    simp only [step, clickT, pending]
    split_ifs with late
    · exact fun impossible => nomatch impossible
    · exact fun pending => not_lt.mp fun after => late ⟨pending, after⟩

/-- Two presses on the main screen, the second let go as the window of the first ends. -/
def latePress : List Wake :=
  [(1, true), (11 / 10, false), (152 / 100, true), (156 / 100, false)].map fun (now, down) =>
    ⟨now, none, some down, true, false, false⟩

/-- The first of them is lost. -/
theorem late_press_lost :
    (run step latePress (create 3 false)).ledger.accepted = 2 ∧
      ¬(run step latePress (create 3 false)).ledger.Kept := by
  decide +kernel

end Traced

end PiFire.Display
