import PiFire.Transition.Run
import Mathlib.Algebra.Order.Group.Defs
import Mathlib.Algebra.Order.Group.Basic
import Mathlib.Data.List.Chain
import Mathlib.Tactic.Abel

/-!
# Capped stretches of a sampled signal

A system sampled once a step keeps a signal on, and a stamp of when it came on.
If no step renews the stamp while the signal stays on, and every step that
leaves the signal on finds the stamp no older than a cap, then the signal is
never on at the end of every step of a stretch longer than the cap and one step.
-/

namespace Transition

universe u v w

variable {State : Type u} {Input : Type v} {T : Type w}
variable [AddCommGroup T] [LinearOrder T] [IsOrderedAddMonoid T]

/-- Times that never go back, each at most `tick` after the one before it. -/
def Paced (tick : T) (times : List T) : Prop :=
  times.IsChain fun a b => a ≤ b ∧ b - a ≤ tick

instance (tick : T) (times : List T) : Decidable (Paced tick times) :=
  inferInstanceAs (Decidable (List.IsChain _ _))

omit [IsOrderedAddMonoid T] in
theorem Paced.tail {tick first second : T} {times : List T}
    (paced : Paced tick (first :: second :: times)) : Paced tick (second :: times) :=
  (List.isChain_cons_cons.mp paced).2

omit [IsOrderedAddMonoid T] in
theorem Paced.le_of_mem {tick start : T} {times : List T} (paced : Paced tick (start :: times))
    {later : T} (inside : later ∈ times) : start ≤ later := by
  have rising : (start :: times).IsChain (· ≤ ·) := paced.imp fun _ _ step => step.1
  exact (List.pairwise_cons.mp (List.isChain_iff_pairwise.mp rising)).1 later inside

/-- A step that keeps the stamp of a signal, setting one that was not set to the
time of the step, and leaves it no older than the cap. -/
structure KeepsStamp (time : Input → T) (stamp : State → Option T) (cap : T)
    (step : Input → State → State) (i : Input) (s : State) : Prop where
  kept : stamp (step i s) = some ((stamp s).getD (time i))
  capped : time i - (stamp s).getD (time i) ≤ cap

variable {step : Input → State → State} {time : Input → T} {stamp : State → Option T} {cap : T}

omit [IsOrderedAddMonoid T] in
/-- While every step keeps the stamp, its age at the last step is capped. -/
theorem age_le_of_keepsStamp {inputs : List Input} {s : State} {begun : T}
    (stamped : stamp s = some begun)
    (keeps : Along step (KeepsStamp time stamp cap step) inputs s)
    {last : Input} (isLast : inputs.getLast? = some last) :
    time last - begun ≤ cap := by
  induction inputs generalizing s with
  | nil => simp at isLast
  | cons i inputs ih =>
      have here := keeps.1
      have kept : stamp (step i s) = some begun := by
        rw [here.kept, stamped, Option.getD_some]
      cases inputs with
      | nil =>
          have same : i = last := by simpa using isLast
          have capped := here.capped
          rw [stamped, Option.getD_some, same] at capped
          exact capped
      | cons j inputs =>
          apply ih kept keeps.2
          rw [List.getLast?_cons_cons] at isLast
          exact isLast

/-- A stretch that begins at `start`, on a stamp that is then in the past, is no
longer than the cap and one step. -/
theorem stretch_le {inputs : List Input} {s : State} {start tick : T}
    (past : ∀ begun, stamp s = some begun → begun ≤ start)
    (paced : Paced tick (start :: inputs.map time))
    (keeps : Along step (KeepsStamp time stamp cap step) inputs s)
    {last : Input} (isLast : inputs.getLast? = some last) :
    time last - start ≤ cap + tick := by
  cases inputs with
  | nil => simp at isLast
  | cons i inputs =>
      have here := keeps.1
      have gap : start ≤ time i ∧ time i - start ≤ tick :=
        (List.isChain_cons_cons.mp paced).1
      have begunBy : (stamp s).getD (time i) - start ≤ tick := by
        cases stamped : stamp s with
        | none => exact gap.2
        | some begun =>
            have earlier := past begun stamped
            calc
              begun - start ≤ 0 := sub_nonpos.mpr earlier
              _ ≤ time i - start := sub_nonneg.mpr gap.1
              _ ≤ tick := gap.2
      have aged : time last - (stamp s).getD (time i) ≤ cap := by
        cases inputs with
        | nil =>
            have same : i = last := by simpa using isLast
            rw [← same]
            exact here.capped
        | cons j inputs =>
            apply age_le_of_keepsStamp here.kept keeps.2
            rw [List.getLast?_cons_cons] at isLast
            exact isLast
      calc
        time last - start
            = (time last - (stamp s).getD (time i)) + ((stamp s).getD (time i) - start) :=
              (sub_add_sub_cancel _ _ _).symm
        _ ≤ cap + tick := add_le_add aged begunBy

end Transition

/-!
# A metered signal

A system holds a signal on or off between its steps and meters how long it is on:
a total of the stretches that are over, and a stamp of when the present one began.
The meter is right over a run exactly when no step loses what was metered before
it.
-/

namespace Transition

universe u v w

/-- What every step of a run at most lowers, the run keeps exactly when every step
keeps it. -/
theorem run_eq_iff_along {State : Type u} {Input : Type v} {α : Type w} [PartialOrder α]
    {step : Input → State → State} {ok admissible : Input → State → Prop} {f : State → α}
    (lower : ∀ i s, admissible i s → f (step i s) ≤ f s)
    (exactly : ∀ i s, admissible i s → (f (step i s) = f s ↔ ok i s))
    {inputs : List Input} {s : State} (along : Along step admissible inputs s) :
    f (run step inputs s) ≤ f s ∧ (f (run step inputs s) = f s ↔ Along step ok inputs s) := by
  induction inputs generalizing s with
  | nil => simp
  | cons i inputs ih =>
      obtain ⟨later, laterExactly⟩ := ih along.2
      have here := lower i s along.1
      refine ⟨later.trans here, ?_⟩
      rw [run_cons, along_cons, ← laterExactly, ← exactly i s along.1]
      constructor
      · intro same
        have kept : f (step i s) = f s := le_antisymm here (same ▸ later)
        exact ⟨kept, same.trans kept.symm⟩
      · rintro ⟨kept, same⟩
        exact same.trans kept

/-- A meter of a signal: what is on, the total so far and the stamp of the stretch that
is not over. -/
structure Meter (State : Type u) (T : Type w) where
  on : State → Bool
  total : State → T
  stamp : State → T

variable {State : Type u} {Input : Type v} {T : Type w} [AddCommGroup T]
variable (m : Meter State T) (time : Input → T) (step : Input → State → State)

/-- What the meter shows at a time. -/
def Meter.shows (now : T) (s : State) : T :=
  m.total s + if m.on s then now - m.stamp s else 0

/-- How long the signal is on in a run that begins at the time `since`. -/
def onTime : T → List Input → State → T
  | _, [], _ => 0
  | since, i :: inputs, s =>
      (if m.on s then time i - since else 0) + onTime (time i) inputs (step i s)

/-- The time a run that begins at `since` ends. -/
def endTime (since : T) (inputs : List Input) : T :=
  inputs.foldl (fun _ i => time i) since

/-- The step loses nothing that was metered before it. -/
def Meter.Keeps (i : Input) (s : State) : Prop :=
  m.shows (time i) (step i s) = m.shows (time i) s

variable {m time step}

theorem Meter.shows_off {now : T} {s : State} (off : m.on s = false) :
    m.shows now s = m.total s := by
  simp [shows, off]

theorem Meter.shows_congr {now : T} {s s' : State} (on : m.on s' = m.on s)
    (total : m.total s' = m.total s) (stamp : m.stamp s' = m.stamp s) :
    m.shows now s' = m.shows now s := by
  simp only [shows, on, total, stamp]

theorem Meter.shows_later (since now : T) (s : State) :
    m.shows now s = m.shows since s + if m.on s then now - since else 0 := by
  unfold shows
  split
  · abel
  · abel

section Ordered

variable [LinearOrder T] [IsOrderedAddMonoid T]

/-- A meter whose steps at most lose shows the time the signal was on exactly when they
lose nothing. -/
theorem Meter.shows_run_iff {admissible : Input → State → Prop}
    (lower : ∀ i s, admissible i s → m.shows (time i) (step i s) ≤ m.shows (time i) s)
    {inputs : List Input} {s : State} (along : Along step admissible inputs s) (since : T) :
    m.shows (endTime time since inputs) (run step inputs s) ≤
        m.shows since s + onTime m time step since inputs s ∧
      (m.shows (endTime time since inputs) (run step inputs s) =
          m.shows since s + onTime m time step since inputs s ↔
        Along step (m.Keeps time step) inputs s) := by
  induction inputs generalizing s since with
  | nil => simp [endTime, onTime]
  | cons i inputs ih =>
      obtain ⟨later, laterExactly⟩ := ih along.2 (time i)
      have here := lower i s along.1
      have summed : m.shows since s + onTime m time step since (i :: inputs) s =
          m.shows (time i) s + onTime m time step (time i) inputs (step i s) := by
        rw [onTime, m.shows_later since (time i) s, add_assoc]
      rw [summed, along_cons, ← laterExactly]
      change m.shows (endTime time (time i) inputs) (run step inputs (step i s)) ≤ _ ∧
        (m.shows (endTime time (time i) inputs) (run step inputs (step i s)) = _ ↔ _)
      have bounded := add_le_add_left here (onTime m time step (time i) inputs (step i s))
      refine ⟨later.trans bounded, ?_⟩
      constructor
      · intro same
        have kept : m.Keeps time step i s := by
          apply le_antisymm here
          exact le_of_add_le_add_right (same ▸ later)
        exact ⟨kept, by rw [same, kept]⟩
      · rintro ⟨kept, same⟩
        rw [same, kept]

end Ordered

end Transition
