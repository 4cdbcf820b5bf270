import Mathlib.Order.Defs.Unbundled

/-!
# Programs that may be cut short

A program over a state performs operations, each of which may work, may fail, or
may be the one before which the process stops. What it leaves behind when it is
stopped is a state too. This file has such programs, how they are put together,
and how a relation between the state before and the state left is carried through
them.
-/

namespace Transition

universe u v w x

/-- What becomes of an operation. -/
inductive Fate
  | works
  | fails
  | stops
  deriving DecidableEq, Repr

/-- A program with operations `ω` over states `σ`: what it gives back, or nothing where
it was stopped, and the state it leaves. -/
def Interrupt (ω : Type u) (σ : Type v) (α : Type w) := (ω → Fate) → σ → Option α × σ

namespace Interrupt

variable {ω : Type u} {σ : Type v} {α β : Type w}

/-- A program that does nothing but give back a value. -/
def done (a : α) : Interrupt ω σ α := fun _ s => (some a, s)

/-- One program and then another; nothing follows where the first was stopped. -/
def andThen (m : Interrupt ω σ α) (f : α → Interrupt ω σ β) : Interrupt ω σ β := fun fate s =>
  match m fate s with
  | (some a, s') => f a fate s'
  | (none, s') => (none, s')

instance : Monad (Interrupt ω σ) where
  pure := done
  bind := andThen

/-- An operation: it changes the state where it works, and fails by itself where it has
nothing to change it to. Gives back whether it worked. -/
def attempt (op : ω) (effect : σ → Option σ) : Interrupt ω σ Bool := fun fate s =>
  match fate op with
  | .works => match effect s with
    | some s' => (some true, s')
    | none => (some false, s)
  | .fails => (some false, s)
  | .stops => (none, s)

@[simp]
theorem pure_apply (a : α) (fate : ω → Fate) (s : σ) :
    (pure a : Interrupt ω σ α) fate s = (some a, s) :=
  rfl

theorem bind_apply (m : Interrupt ω σ α) (f : α → Interrupt ω σ β) (fate : ω → Fate) (s : σ) :
    (m >>= f) fate s = match m fate s with
      | (some a, s') => f a fate s'
      | (none, s') => (none, s') :=
  rfl

theorem bind_of_some {m : Interrupt ω σ α} {fate : ω → Fate} {s s' : σ} {a : α}
    (first : m fate s = (some a, s')) (f : α → Interrupt ω σ β) :
    (m >>= f) fate s = f a fate s' := by
  rw [bind_apply, first]

theorem bind_of_none {m : Interrupt ω σ α} {fate : ω → Fate} {s s' : σ}
    (first : m fate s = (none, s')) (f : α → Interrupt ω σ β) :
    (m >>= f) fate s = (none, s') := by
  rw [bind_apply, first]

theorem attempt_works {op : ω} {effect : σ → Option σ} {fate : ω → Fate} {s s' : σ}
    (works : fate op = .works) (change : effect s = some s') :
    attempt op effect fate s = (some true, s') := by
  simp only [attempt, works, change]

theorem attempt_idle {op : ω} {effect : σ → Option σ} {fate : ω → Fate} {s : σ}
    (works : fate op = .works) (idle : effect s = none) :
    attempt op effect fate s = (some false, s) := by
  simp only [attempt, works, idle]

theorem attempt_fails {op : ω} {effect : σ → Option σ} {fate : ω → Fate} {s : σ}
    (fails : fate op = .fails) : attempt op effect fate s = (some false, s) := by
  simp only [attempt, fails]

theorem attempt_stops {op : ω} {effect : σ → Option σ} {fate : ω → Fate} {s : σ}
    (stops : fate op = .stops) : attempt op effect fate s = (none, s) := by
  simp only [attempt, stops]

theorem stopped_bind (m : Interrupt ω σ α) (k : Interrupt ω σ β) (fate : ω → Fate) (s : σ) :
    ((m >>= fun _ => k) fate s).1 = none ↔
      (m fate s).1 = none ∨ (k fate (m fate s).2).1 = none := by
  rw [bind_apply]
  rcases m fate s with ⟨_ | a, s'⟩
  · simp
  · simp

@[simp]
theorem stopped_attempt (op : ω) (effect : σ → Option σ) (fate : ω → Fate) (s : σ) :
    (attempt op effect fate s).1 = none ↔ fate op = .stops := by
  cases what : fate op with
  | works => cases result : effect s <;> simp [attempt, what, result]
  | fails => simp [attempt, what]
  | stops => simp [attempt, what]

/-- Whatever becomes of its operations, a program leaves a state related to the one it
found. -/
def Moves (r : σ → σ → Prop) (m : Interrupt ω σ α) : Prop := ∀ fate s, r s (m fate s).2

variable {r : σ → σ → Prop}

theorem moves_pure [Std.Refl r] (a : α) : Moves r (pure a : Interrupt ω σ α) := by
  intro _ s
  exact refl s

theorem moves_bind [IsTrans σ r] {m : Interrupt ω σ α} {f : α → Interrupt ω σ β}
    (first : Moves r m) (second : ∀ a, Moves r (f a)) : Moves r (m >>= f) := by
  intro fate s
  have here := first fate s
  rw [bind_apply]
  split
  · rename_i a s' same
    rw [same] at here
    exact IsTrans.trans _ _ _ here (second a fate s')
  · rename_i s' same
    rw [same] at here
    exact here

theorem moves_attempt [Std.Refl r] {op : ω} {effect : σ → Option σ}
    (change : ∀ s s', effect s = some s' → r s s') : Moves r (attempt op effect) := by
  intro fate s
  rw [attempt]
  split
  · split
    · exact change s _ ‹_›
    · exact refl s
  · exact refl s
  · exact refl s

end Interrupt

end Transition
