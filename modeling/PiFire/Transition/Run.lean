import Mathlib.Order.Basic

/-!
# Driven runs

A deterministic system takes one step for each input. This file has the state a
sequence of inputs drives it to, what it means that every step of a run meets a
condition in the state it finds, and the rule by which an invariant of one step
becomes an invariant of a run.
-/

namespace Transition

universe u v

variable {State : Type u} {Input : Type v} (step : Input → State → State)

/-- The state a sequence of inputs drives the system to. -/
def run (inputs : List Input) (s : State) : State :=
  inputs.foldl (fun s i => step i s) s

@[simp]
theorem run_nil (s : State) : run step [] s = s := rfl

@[simp]
theorem run_cons (i : Input) (inputs : List Input) (s : State) :
    run step (i :: inputs) s = run step inputs (step i s) := rfl

theorem run_append (first second : List Input) (s : State) :
    run step (first ++ second) s = run step second (run step first s) := by
  simp [run, List.foldl_append]

/-- Every step of the run meets `ok` in the state it finds. -/
def Along (ok : Input → State → Prop) : List Input → State → Prop
  | [], _ => True
  | i :: inputs, s => ok i s ∧ Along ok inputs (step i s)

@[simp]
theorem along_nil (ok : Input → State → Prop) (s : State) : Along step ok [] s := trivial

@[simp]
theorem along_cons (ok : Input → State → Prop) (i : Input) (inputs : List Input) (s : State) :
    Along step ok (i :: inputs) s ↔ ok i s ∧ Along step ok inputs (step i s) := Iff.rfl

instance Along.decidable (ok : Input → State → Prop) [∀ i s, Decidable (ok i s)] :
    ∀ (inputs : List Input) (s : State), Decidable (Along step ok inputs s)
  | [], _ => isTrue trivial
  | i :: inputs, s =>
      have := Along.decidable ok inputs (step i s)
      inferInstanceAs (Decidable (ok i s ∧ Along step ok inputs (step i s)))

/-- Every state the run enters has the property. -/
def Throughout (property : State → Prop) (inputs : List Input) (s : State) : Prop :=
  Along step (fun i s => property (step i s)) inputs s

instance Throughout.decidable (property : State → Prop) [∀ s, Decidable (property s)]
    (inputs : List Input) (s : State) : Decidable (Throughout step property inputs s) :=
  inferInstanceAs (Decidable (Along step _ inputs s))

variable {step}

theorem along_append {ok : Input → State → Prop} {first second : List Input} {s : State} :
    Along step ok (first ++ second) s ↔
      Along step ok first s ∧ Along step ok second (run step first s) := by
  induction first generalizing s with
  | nil => simp
  | cons i inputs ih =>
      simp [ih, and_assoc]

theorem Along.mono {ok weaker : Input → State → Prop} {inputs : List Input} {s : State}
    (implies : ∀ i s, i ∈ inputs → ok i s → weaker i s) (along : Along step ok inputs s) :
    Along step weaker inputs s := by
  induction inputs generalizing s with
  | nil => trivial
  | cons i inputs ih =>
      refine ⟨implies i s List.mem_cons_self along.1, ih ?_ along.2⟩
      intro j s inside
      exact implies j s (List.mem_cons_of_mem i inside)

theorem along_congr {ok other : Input → State → Prop} {inputs : List Input} {s : State}
    (same : ∀ i s, i ∈ inputs → (ok i s ↔ other i s)) :
    Along step ok inputs s ↔ Along step other inputs s := by
  constructor
  · exact Along.mono fun i s inside => (same i s inside).mp
  · exact Along.mono fun i s inside => (same i s inside).mpr

theorem Along.and {first second : Input → State → Prop} {inputs : List Input} {s : State}
    (left : Along step first inputs s) (right : Along step second inputs s) :
    Along step (fun i s => first i s ∧ second i s) inputs s := by
  induction inputs generalizing s with
  | nil => trivial
  | cons i inputs ih =>
      exact ⟨⟨left.1, right.1⟩, ih left.2 right.2⟩

theorem along_of_forall {ok : Input → State → Prop} {inputs : List Input}
    (each : ∀ i ∈ inputs, ∀ s, ok i s) (s : State) : Along step ok inputs s := by
  induction inputs generalizing s with
  | nil => trivial
  | cons i inputs ih =>
      refine ⟨each i List.mem_cons_self s, ih ?_ _⟩
      intro j inside
      exact each j (List.mem_cons_of_mem i inside)

theorem run_preserves (ok : Input → State → Prop) (invariant : State → Prop)
    (preserved : ∀ i s, invariant s → ok i s → invariant (step i s))
    {inputs : List Input} {s : State} (holds : invariant s) (along : Along step ok inputs s) :
    invariant (run step inputs s) := by
  induction inputs generalizing s with
  | nil => exact holds
  | cons i inputs ih =>
      exact ih (preserved i s holds along.1) along.2

/-- An invariant that no input breaks holds after every run. -/
theorem run_invariant (invariant : State → Prop)
    (preserved : ∀ i s, invariant s → invariant (step i s))
    {inputs : List Input} {s : State} (holds : invariant s) :
    invariant (run step inputs s) :=
  run_preserves (fun _ _ => True) invariant (fun i s holds _ => preserved i s holds) holds
    (along_of_forall (fun _ _ _ => trivial) s)

/-- What holds before a run and is preserved by its steps may be used at each of
them. -/
theorem Along.strengthen {ok stronger : Input → State → Prop} (invariant : State → Prop)
    (preserved : ∀ i s, invariant s → ok i s → invariant (step i s))
    (implies : ∀ i s, invariant s → ok i s → stronger i s)
    {inputs : List Input} {s : State} (holds : invariant s) (along : Along step ok inputs s) :
    Along step stronger inputs s := by
  induction inputs generalizing s with
  | nil => trivial
  | cons i inputs ih =>
      exact ⟨implies i s holds along.1,
        ih (preserved i s holds along.1) along.2⟩

/-- Conditions that say the same under an invariant say the same of a run. -/
theorem along_iff {ok other : Input → State → Prop} (invariant : State → Prop)
    (preserved : ∀ i s, invariant s → ok i s → invariant (step i s))
    (same : ∀ i s, invariant s → (ok i s ↔ other i s))
    {inputs : List Input} {s : State} (holds : invariant s) :
    Along step ok inputs s ↔ Along step other inputs s := by
  constructor
  · exact Along.strengthen invariant preserved (fun i s kept => (same i s kept).mp) holds
  · apply Along.strengthen invariant
    · intro i s kept met
      exact preserved i s kept ((same i s kept).mpr met)
    · exact fun i s kept => (same i s kept).mpr
    · exact holds

/-- What every step keeps exactly where it meets a condition, a run keeps exactly where
its steps all meet it. -/
theorem run_iff_along {ok : Input → State → Prop} (invariant property : State → Prop)
    (preserved : ∀ i s, invariant s → invariant (step i s))
    (exactly : ∀ i s, invariant s → (property (step i s) ↔ property s ∧ ok i s))
    {inputs : List Input} {s : State} (holds : invariant s) :
    property (run step inputs s) ↔ property s ∧ Along step ok inputs s := by
  induction inputs generalizing s with
  | nil => simp
  | cons i inputs ih =>
      rw [run_cons, ih (preserved i s holds), exactly i s holds, along_cons,
        and_assoc]

end Transition

/-!
# Steps that see a state only through an erasure

An erasure forgets the part of a state that some inputs reach. Where every step
shows the same whether it starts from a state or from what the erasure leaves of
it, a run shows the same with those inputs as without them.
-/

namespace Transition

universe u v w x

section Respects

variable {State : Type u} {Answer : Type v} {View : Type w}
variable {erase : State → State} {view : Answer → View} {f : State → Answer}

/-- What `f` answers shows the same from a state and from its erasure. -/
def Respects (erase : State → State) (view : Answer → View) (f : State → Answer) : Prop :=
  ∀ s, view (f (erase s)) = view (f s)

theorem Respects.congr (respects : Respects erase view f) {s s' : State}
    (same : erase s = erase s') : view (f s) = view (f s') := by
  rw [← respects s, same, respects s']

/-- A function whose answer shows as its argument does. -/
theorem respects_of_blind {g : State → State} (idempotent : ∀ s, erase (erase s) = erase s)
    (blind : ∀ s, erase (g s) = erase s) : Respects erase erase g := by
  intro s
  rw [blind, blind, idempotent]

theorem view_ite {p p' : Prop} [Decidable p] [Decidable p'] {yes no yes' no' : Answer}
    (same : p ↔ p') (ifYes : view yes = view yes') (ifNo : view no = view no') :
    view (if p then yes else no) = view (if p' then yes' else no') := by
  rw [apply_ite view, apply_ite view, ifYes, ifNo]
  exact if_congr same rfl rfl

end Respects

section Runs

variable {State : Type u} {Input : Type v}
variable {step : Input → State → State} {erase : State → State}

theorem erase_run_filter (silent : Input → Bool)
    (blind : ∀ i, silent i = true → ∀ s, erase (step i s) = erase s)
    (respects : ∀ i, Respects erase erase (step i)) (inputs : List Input) {s s' : State}
    (same : erase s = erase s') :
    erase (run step inputs s) = erase (run step (inputs.filter fun i => !silent i) s') := by
  induction inputs generalizing s s' with
  | nil => exact same
  | cons i inputs ih =>
      cases quiet : silent i with
      | true =>
          rw [List.filter_cons_of_neg (by simp [quiet]), run_cons]
          exact ih ((blind i quiet s).trans same)
      | false =>
          rw [List.filter_cons_of_pos (by simp [quiet]), run_cons, run_cons]
          exact ih ((respects i).congr same)

theorem erase_run_map (other : Input → Input)
    (alike : ∀ i s s', erase s = erase s' → erase (step i s) = erase (step (other i) s'))
    (inputs : List Input) {s s' : State} (same : erase s = erase s') :
    erase (run step inputs s) = erase (run step (inputs.map other) s') := by
  induction inputs generalizing s s' with
  | nil => exact same
  | cons i inputs ih => exact ih (alike i s s' same)

end Runs

end Transition

/-!
# A note beside a system

A property of a run may need to remember something the system itself forgets.
The note is kept beside the state: an input either replaces it or leaves it, and
the system runs as it does without one.
-/

namespace Transition

universe u v w

/-- A state with what was last noted beside it. -/
structure Noted (State : Type u) (Note : Type w) where
  state : State
  noted : Option Note

variable {State : Type u} {Input : Type v} {Note : Type w}

/-- A step of the system with the note kept. -/
def Noted.step (step : Input → State → State) (note : Input → State → Option Note) (i : Input)
    (s : Noted State Note) : Noted State Note :=
  ⟨step i s.state, (note i s.state).or s.noted⟩

end Transition

/-!
# Checked steps

A computation that may fail, and a sequence of them. An invariant under which no step fails
and which every step keeps makes the whole sequence succeed.
-/

namespace Transition

universe u v

variable {α : Type u} {β : Type v} {property : α → Prop} {property' : β → Prop}

/-- There is a result, and it has the property. -/
def Succeeds (property : α → Prop) (result : Option α) : Prop :=
  ∃ a, result = some a ∧ property a

@[simp]
theorem succeeds_some {a : α} : Succeeds property (some a) ↔ property a := by
  constructor
  · rintro ⟨b, found, holds⟩
    rwa [Option.some.inj found]
  · intro holds
    exact ⟨a, rfl, holds⟩

@[simp]
theorem not_succeeds_none : ¬Succeeds property none := by
  rintro ⟨_, none_, -⟩
  cases none_

theorem Succeeds.imp {stronger : α → Prop} {result : Option α} (ok : Succeeds stronger result)
    (weaker : ∀ a, stronger a → property a) : Succeeds property result := by
  obtain ⟨a, found, holds⟩ := ok
  exact ⟨a, found, weaker a holds⟩

theorem Succeeds.bind {result : Option α} {next : α → Option β} (ok : Succeeds property result)
    (goesOn : ∀ a, property a → Succeeds property' (next a)) :
    Succeeds property' (result.bind next) := by
  obtain ⟨a, rfl, holds⟩ := ok
  exact goesOn a holds

theorem Succeeds.map {result : Option α} {next : α → β} (ok : Succeeds property result)
    (goesOn : ∀ a, property a → property' (next a)) : Succeeds property' (result.map next) := by
  obtain ⟨a, rfl, holds⟩ := ok
  exact ⟨next a, rfl, goesOn a holds⟩

/-- The run lemma: a sequence of steps that keep an invariant and do not fail under it. -/
theorem Succeeds.foldlM {step : α → β → Option α} {inputs : List β} {s : α}
    (keeps : ∀ s, property s → ∀ i ∈ inputs, Succeeds property (step s i))
    (starts : property s) : Succeeds property (inputs.foldlM step s) := by
  induction inputs generalizing s with
  | nil => exact ⟨s, rfl, starts⟩
  | cons i inputs ih =>
      rw [List.foldlM_cons]
      apply Succeeds.bind (keeps s starts i List.mem_cons_self)
      intro s' kept
      exact ih (fun s kept j inside =>
        keeps s kept j (List.mem_cons_of_mem i inside)) kept

end Transition
