import Mathlib.Order.Basic
import Mathlib.Algebra.Order.Group.Basic
import Mathlib.Tactic.Abel
import Mathlib.Algebra.Order.Group.Defs
import Mathlib.Order.WellFounded

/-!
# Conditions that hold for a time

A history of samples, newest first, and a condition on a sample that may look at
the history before it. A stamp that is set when the condition begins to hold and
cleared when it fails says since when it has held at every sample.
-/

namespace Transition

universe u v

variable {Sample : Type u} {T : Type v} {time : Sample → T} {ok : Sample → List Sample → Prop}
variable {since : T} {s : Sample} {history : List Sample}

/-- `ok` held at every sample from one at the time `since` to the newest. -/
inductive HeldSince (time : Sample → T) (ok : Sample → List Sample → Prop) (since : T) :
    List Sample → Prop where
  | start {s : Sample} {earlier : List Sample} (here : ok s earlier) (begun : time s = since) :
      HeldSince time ok since (s :: earlier)
  | extend {s : Sample} {history : List Sample} (before : HeldSince time ok since history)
      (here : ok s history) : HeldSince time ok since (s :: history)

theorem heldSince_cons :
    HeldSince time ok since (s :: history) ↔
      ok s history ∧ (time s = since ∨ HeldSince time ok since history) := by
  constructor
  · intro held
    cases held with
    | start here begun => exact ⟨here, Or.inl begun⟩
    | extend before here => exact ⟨here, Or.inr before⟩
  · rintro ⟨here, begun | before⟩
    · exact .start here begun
    · exact .extend before here

instance HeldSince.decidable [DecidableEq T] [∀ s history, Decidable (ok s history)] :
    ∀ history, Decidable (HeldSince time ok since history)
  | [] => isFalse nofun
  | _ :: history =>
      have := HeldSince.decidable history
      decidable_of_iff _ heldSince_cons.symm

theorem HeldSince.mem (held : HeldSince time ok since history) : since ∈ history.map time := by
  induction held with
  | start _ begun => exact List.mem_cons.mpr (Or.inl begun.symm)
  | extend _ _ ih => exact List.mem_cons_of_mem _ ih

/-- In a history whose times do not go back, every later sample found it to
hold. -/
theorem HeldSince.of_after [Preorder T] {ok : Sample → Prop}
    (held : HeldSince time (fun s _ => ok s) since history)
    (ordered : history.Pairwise fun later earlier => time earlier ≤ time later) :
    ∀ s ∈ history, since < time s → ok s := by
  induction held with
  | start here begun =>
      intro s inside after
      rcases List.mem_cons.mp inside with rfl | earlier
      · exact here
      · rw [← begun] at after
        exact absurd after (not_lt_of_ge ((List.pairwise_cons.mp ordered).1 s earlier))
  | extend before here ih =>
      intro s inside after
      rcases List.mem_cons.mp inside with rfl | earlier
      · exact here
      · exact ih (List.pairwise_cons.mp ordered).2 s earlier after

section Stamp

variable {unset : T → Prop}

/-- A stamp that is set says since when `ok` has held. -/
def Stamps (unset : T → Prop) (time : Sample → T) (ok : Sample → List Sample → Prop) (stamp : T)
    (history : List Sample) : Prop :=
  ¬unset stamp → HeldSince time ok stamp history

theorem Stamps.cleared {stamp : T} (is : unset stamp) (history : List Sample) :
    Stamps unset time ok stamp history := fun set => absurd is set

/-- A stamp that is set by a sample, kept while the condition holds and cleared
when it fails stays right. -/
theorem Stamps.sample {stamp clear : T} (stamps : Stamps unset time ok stamp history)
    (cleared : unset clear) {holds : Prop} [Decidable holds] [Decidable (unset stamp)]
    (here : holds → ok s history) :
    Stamps unset time ok (if holds then (if unset stamp then time s else stamp) else clear)
      (s :: history) := by
  by_cases held : holds
  · rw [if_pos held]
    by_cases fresh : unset stamp
    · rw [if_pos fresh]
      exact fun _ => .start (here held) rfl
    · rw [if_neg fresh]
      exact fun _ => .extend (stamps fresh) (here held)
  · rw [if_neg held]
    exact .cleared cleared _

end Stamp

end Transition

/-!
# Stages with a time limit

A process goes through stages, each with a limit on how long it may last, and is looked
at now and then. Where every stage that is left takes, with one look, no more than what
was set aside for it, the process is over by a time that is known as it begins.
-/

namespace Transition

universe u v

variable {S : Type u} {T : Type v} [AddCommGroup T] [LinearOrder T] [IsOrderedAddMonoid T]

/-- When the stage of a state began, how long it may last, and how long all that comes
after it may. -/
structure Stages (S : Type u) (T : Type v) where
  since : S → T
  limit : S → T
  left : S → T

namespace Stages

variable (p : Stages S T) {tick before now : T} {s s' : S}

/-- When the process is over at the latest. -/
def deadline (s : S) : T := p.since s + p.limit s + p.left s

/-- The stage is within its limit. -/
def InTime (now : T) (s : S) : Prop := now ≤ p.since s + p.limit s

/-- What a look does: the stage stays, within its limit, or another begins for which time
was set aside, with that of one look. -/
inductive Goes (tick now : T) (s s' : S) : Prop
  | stays (since : p.since s' = p.since s) (limit : p.limit s' = p.limit s)
      (left : p.left s' = p.left s) (within : p.InTime now s')
  | moves (since : p.since s' = now) (limit : 0 ≤ p.limit s')
      (left : tick + p.limit s' + p.left s' ≤ p.left s)

variable {p}

theorem Goes.inTime (goes : p.Goes tick now s s') : p.InTime now s' := by
  cases goes with
  | stays _ _ _ within => exact within
  | moves since limit _ =>
    rw [InTime, since]
    exact le_add_of_nonneg_right limit

/-- No look puts the end off. -/
theorem Goes.deadline_le (goes : p.Goes tick now s s') (inTime : p.InTime before s)
    (soon : now ≤ before + tick) : p.deadline s' ≤ p.deadline s := by
  cases goes with
  | stays since limit left _ =>
    rw [deadline, since, limit, left]
    exact le_rfl
  | moves since _ left =>
    rw [deadline, since]
    calc
      now + p.limit s' + p.left s' ≤ before + tick + p.limit s' + p.left s' := by
        gcongr
      _ = before + (tick + p.limit s' + p.left s') := by abel
      _ ≤ p.since s + p.limit s + p.left s := add_le_add inTime left

theorem InTime.le_deadline (inTime : p.InTime now s) (nonneg : 0 ≤ p.left s) :
    now ≤ p.deadline s :=
  inTime.trans (le_add_of_nonneg_right nonneg)

end Stages

end Transition

/-!
# A watchdog

A process has a number of chances, and the time of the last one it took is marked. Every
step takes a chance, or comes within a limit after the mark, or is excused. On a clock that
passes every time, such a process is excused at every step from some step on.
-/

namespace Transition

universe u

variable {T : Type u} [AddCommGroup T] [LinearOrder T]

/-- What a watched step does: it takes a chance, or it takes none, within the limit or
excused. -/
inductive Watched (limit : T) (clock mark : ℕ → T) (chances : ℕ → ℕ) (excused : ℕ → Prop)
    (n : ℕ) : Prop
  | takes (fewer : chances (n + 1) < chances n)
  | waits (same : chances (n + 1) = chances n) (kept : mark (n + 1) = mark n)
      (why : clock n ≤ mark n + limit ∨ excused n)

namespace Watched

variable {limit : T} {clock mark : ℕ → T} {chances : ℕ → ℕ} {excused : ℕ → Prop}

theorem chances_le {n : ℕ} (step : Watched limit clock mark chances excused n) :
    chances (n + 1) ≤ chances n := by
  cases step with
  | takes fewer => exact fewer.le
  | waits same _ _ => exact same.le

/-- No step gives a chance back. -/
theorem antitone (watched : ∀ n, Watched limit clock mark chances excused n) :
    Antitone chances :=
  antitone_nat_of_succ_le fun n => (watched n).chances_le

/-- From a step on that takes no chance any more, the mark stays. -/
theorem mark_eq (watched : ∀ n, Watched limit clock mark chances excused n) {first : ℕ}
    (isOver : ∀ n, first ≤ n → chances n ≤ chances (n + 1)) {n : ℕ} (later : first ≤ n) :
    mark n = mark first := by
  induction n, later using Nat.le_induction with
  | base => rfl
  | succ n later ih =>
      cases watched n with
      | takes fewer => exact absurd fewer (not_lt.mpr (isOver n later))
      | waits _ kept _ => rw [kept, ih]

/-- From some step on, every step is excused. -/
theorem eventually_excused (watched : ∀ n, Watched limit clock mark chances excused n)
    (passes : ∀ time, ∃ first, ∀ n, first ≤ n → time < clock n) :
    ∃ first, ∀ n, first ≤ n → excused n := by
  obtain ⟨least, ⟨first, rfl⟩, minimal⟩ :=
    WellFounded.has_min wellFounded_lt (Set.range chances) ⟨_, 0, rfl⟩
  have isOver : ∀ n, first ≤ n → chances n ≤ chances (n + 1) := fun n later =>
    (antitone watched later).trans (not_lt.mp (minimal _ ⟨n + 1, rfl⟩))
  obtain ⟨late, passed⟩ := passes (mark first + limit)
  refine ⟨max first late, fun n later => ?_⟩
  cases watched n with
  | takes fewer => exact absurd fewer (not_lt.mpr (isOver n (le_of_max_le_left later)))
  | waits _ _ why =>
      rcases why with within | excused
      · rw [mark_eq watched isOver (le_of_max_le_left later)] at within
        exact absurd within (not_le.mpr (passed n (le_of_max_le_right later)))
      · exact excused

end Watched

end Transition
