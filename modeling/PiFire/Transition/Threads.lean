import Mathlib.Logic.Function.Basic
import Mathlib.Data.List.Nodup

/-!
# Mutual exclusion

Threads that are each at a stage of their work, some stages being those of a
thread that holds the lock. The lock is right when its owner, and no other
thread, is at such a stage. Taking it, giving it back and every move of a thread
that does neither keep it right.
-/

namespace Transition

universe u v

variable {Thread : Type u} {Stage : Type v} {inside : Stage → Prop} {stage : Thread → Stage}
variable {owner : Option Thread} {t : Thread} {s : Stage}

/-- The owner of the lock is the one thread at an inside stage. -/
def Exclusive (inside : Stage → Prop) (stage : Thread → Stage) (owner : Option Thread) : Prop :=
  ∀ t, inside (stage t) ↔ owner = some t

theorem Exclusive.unique {u : Thread} (exclusive : Exclusive inside stage owner)
    (first : inside (stage t)) (second : inside (stage u)) : t = u := by
  have owned := (exclusive t).mp first
  rw [(exclusive u).mp second] at owned
  exact (Option.some.inj owned).symm

theorem exclusive_none : Exclusive inside stage none ↔ ∀ t, ¬inside (stage t) := by
  simp [Exclusive]

variable [DecidableEq Thread]

theorem Exclusive.enter (exclusive : Exclusive inside stage none) (here : inside s) :
    Exclusive inside (Function.update stage t s) (some t) := by
  intro u
  by_cases same : u = t
  · subst same
    simp [here]
  · have outside := exclusive_none.mp exclusive u
    simp [Function.update_of_ne same, outside, Ne.symm same]

theorem Exclusive.leave (exclusive : Exclusive inside stage owner) (here : inside (stage t))
    (gone : ¬inside s) : Exclusive inside (Function.update stage t s) none := by
  rw [exclusive_none]
  intro u
  by_cases same : u = t
  · subst same
    simpa using gone
  · rw [Function.update_of_ne same]
    intro there
    exact same (exclusive.unique there here)

theorem Exclusive.move (exclusive : Exclusive inside stage owner)
    (same : inside s ↔ inside (stage t)) :
    Exclusive inside (Function.update stage t s) owner := by
  intro u
  by_cases moved : u = t
  · subst moved
    simpa [same] using exclusive u
  · rw [Function.update_of_ne moved]
    exact exclusive u

end Transition

/-!
# Counting threads

A counter that each thread raises when it comes to a kind of stage and lowers when
it leaves it. It is right when it is the number of threads at such a stage, so that
zero means there is none.
-/

namespace Transition

universe u v

variable {Thread : Type u} {Stage : Type v} {counted : Stage → Prop} {stage : Thread → Stage}
variable {n : ℕ} {t : Thread} {s : Stage}

/-- There are `n` threads at a counted stage. -/
def Counted (counted : Stage → Prop) (stage : Thread → Stage) (n : ℕ) : Prop :=
  ∃ threads : List Thread,
    threads.Nodup ∧ (∀ t, t ∈ threads ↔ counted (stage t)) ∧ threads.length = n

theorem counted_zero : Counted counted stage 0 ↔ ∀ t, ¬counted (stage t) := by
  constructor
  · rintro ⟨threads, _, members, length⟩ t here
    rw [List.length_eq_zero_iff.mp length] at members
    exact List.not_mem_nil ((members t).mpr here)
  · intro none_there
    exact ⟨[], List.nodup_nil, fun t => by simp [none_there t], rfl⟩

theorem Counted.pos (right : Counted counted stage n) (here : counted (stage t)) : 0 < n := by
  rcases Nat.eq_zero_or_pos n with rfl | positive
  · exact absurd here (counted_zero.mp right t)
  · exact positive

/-- Threads at other stages that are counted alike. -/
theorem Counted.congr {stage' : Thread → Stage} (right : Counted counted stage n)
    (same : ∀ t, counted (stage' t) ↔ counted (stage t)) : Counted counted stage' n := by
  obtain ⟨threads, distinct, members, length⟩ := right
  exact ⟨threads, distinct, fun t => (members t).trans (same t).symm, length⟩

variable [DecidableEq Thread]

theorem Counted.move (right : Counted counted stage n) (same : counted s ↔ counted (stage t)) :
    Counted counted (Function.update stage t s) n := by
  apply right.congr
  intro u
  by_cases moved : u = t
  · subst moved
    simpa using same
  · rw [Function.update_of_ne moved]

theorem Counted.join (right : Counted counted stage n) (outside : ¬counted (stage t))
    (here : counted s) : Counted counted (Function.update stage t s) (n + 1) := by
  obtain ⟨threads, distinct, members, length⟩ := right
  have new : t ∉ threads := mt (members t).mp outside
  refine ⟨t :: threads, List.nodup_cons.mpr ⟨new, distinct⟩, ?_, by simp [length]⟩
  intro u
  by_cases moved : u = t
  · subst moved
    simp [here]
  · rw [Function.update_of_ne moved, ← members u]
    simp [moved]

theorem Counted.leave (right : Counted counted stage n) (inside : counted (stage t))
    (gone : ¬counted s) : Counted counted (Function.update stage t s) (n - 1) := by
  obtain ⟨threads, distinct, members, length⟩ := right
  have there : t ∈ threads := (members t).mpr inside
  refine ⟨threads.erase t, distinct.erase t, ?_, ?_⟩
  · intro u
    by_cases moved : u = t
    · subst moved
      simp [gone, distinct.mem_erase_iff]
    · rw [Function.update_of_ne moved, ← members u, distinct.mem_erase_iff]
      simp [moved]
  · rw [List.length_erase_of_mem there, length]

end Transition
