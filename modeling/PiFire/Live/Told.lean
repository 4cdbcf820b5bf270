import PiFire.Live.Mailbox
import PiFire.Transition.Run
import Mathlib.Data.List.Basic

/-!
# What a client is told

The push thread reads only the last event when it sees a new generation. So a client is told
every event once, in order, as long as no event is emitted before the one before it was read
from the ring; and its statuses grow no older as long as no thread posts one while another
still has an older one to post.
-/

namespace PiFire.Live

open Transition

variable {E : Type}

/-! ## What was handed over -/

def Message.event? : Message E → Option E
  | .event e => some e
  | .alarms _ => none

def Frame.event? : Frame E → Option E
  | .message m => m.event?
  | .status _ => none

def Frame.status? : Frame E → Option ℕ
  | .message _ => none
  | .status n => some n

namespace Client

/-- The events that were handed to the client, from the first written to the last queued. -/
def handed (c : Client E) : List E :=
  c.written.filterMap Frame.event? ++
    (c.batch.filterMap Message.event? ++ c.q.filterMap Message.event?)

/-- The statuses that were handed to the client and not replaced. -/
def statuses (c : Client E) : List ℕ :=
  c.written.filterMap Frame.status? ++ (c.taken.toList ++ c.status.toList)

end Client

namespace Place

/-- The push thread has seen a new generation and not yet read the event. -/
def reading : Place E → Bool
  | .recent => true
  | _ => false

/-- The event it has read and not yet posted. -/
def event? : Place E → Option E
  | .sending e => some e
  | _ => none

/-- It is to queue a message. -/
def queues : Place E → Bool
  | .sending _ => true
  | .noting _ => true
  | _ => false

/-- The status it has copied and not yet posted. -/
def copy? : Place E → Option ℕ
  | .posting n => some n
  | _ => none

end Place

namespace World

/-- An event was emitted that the push thread has not read. -/
def Unread (w : World E) : Prop :=
  w.ring.gen ≠ w.pusher.lastEv ∨ w.pusher.place.reading = true

instance (w : World E) : Decidable w.Unread := inferInstanceAs (Decidable (_ ∨ _))

/-- What the push thread still has to hand over. -/
def pending (w : World E) : List E :=
  w.pusher.place.event?.toList ++ if w.Unread then w.ring.recent 1 else []

/-- The statuses that were copied and are still to be posted. -/
def copied (w : World E) : List ℕ := w.copies ++ w.pusher.place.copy?.toList

/-- The client takes what it is sent, and its queue is not full when something is posted
there. -/
def Connected : Move E → World E → Prop
  | .push _, w => w.pusher.place.queues = true → w.client.q.length < queueSize
  | .write ok, _ => ok = true
  | _, _ => True

instance : (m : Move E) → (w : World E) → Decidable (Connected m w)
  | .push _, _ => inferInstanceAs (Decidable (_ → _))
  | .write ok, _ => inferInstanceAs (Decidable (ok = true))
  | .emit _, _ | .publish, _ | .alarm, _ | .copy, _ | .post _, _ | .take, _ => isTrue trivial

/-- No event is emitted while there is one that is not read, and no status is posted while
another thread has an older one to post. -/
def Undisturbed : Move E → World E → Prop
  | .emit _, w => ¬w.Unread
  | .push _, w => ∀ n ∈ w.pusher.place.copy?, ∀ other ∈ w.copies, n ≤ other
  | .post i, w => ∀ n ∈ w.copies[i]?,
      (∀ other ∈ w.copies.eraseIdx i, n ≤ other) ∧ ∀ other ∈ w.pusher.place.copy?, n ≤ other
  | _, _ => True

instance : (m : Move E) → (w : World E) → Decidable (Undisturbed m w)
  | .emit _, w => inferInstanceAs (Decidable (¬w.Unread))
  | .push _, w =>
      inferInstanceAs (Decidable (∀ n ∈ w.pusher.place.copy?, ∀ other ∈ w.copies, n ≤ other))
  | .post i, w =>
      inferInstanceAs (Decidable (∀ n ∈ w.copies[i]?,
        (∀ other ∈ w.copies.eraseIdx i, n ≤ other) ∧ ∀ other ∈ w.pusher.place.copy?, n ≤ other))
  | .publish, _ | .alarm, _ | .copy, _ | .take, _ | .write _, _ => isTrue trivial

/-- The client was handed what was emitted, each event once and in order, and no status that
is older than one before. -/
structure Told (w : World E) : Prop where
  prefix_ : w.client.handed <+: w.emitted
  /-- nothing is missing once the push thread has nothing left to hand over -/
  whole : w.pusher.place.event? = none → ¬w.Unread → w.client.handed = w.emitted
  statuses : w.client.statuses.Pairwise (· ≤ ·)

/-- What every step keeps. -/
structure Kept (w : World E) : Prop where
  told : w.client.handed ++ w.pending = w.emitted
  fresh : w.Unread → ∃ e, w.ring.recent 1 = [e]
  seen : w.pusher.place.reading = true → w.ring.gen = w.pusher.lastEv
  alive : w.client.dead = false ∧ w.client.failed = false
  idle : w.client.writing = false → w.client.batch = [] ∧ w.client.taken = none
  sorted : w.client.statuses.Pairwise (· ≤ ·)
  behind : ∀ n ∈ w.client.statuses, n ≤ w.status ∧ ∀ other ∈ w.copied, n ≤ other
  current : ∀ n ∈ w.copied, n ≤ w.status

end World

/-! ## The ring -/

theorem EventRing.recent_emit (e : E) (r : EventRing E) : (r.emit e).recent 1 = [e] := by
  have some_ : min (r.emit e).len 1 = 1 := by
    simp only [emit]
    split_ifs with room
    · omega
    · simp only [ringSize] at room
      omega
  have last : ((r.emit e).head + ringSize - 1) % ringSize = r.head := by
    have inside := r.head_lt
    simp only [emit, ringSize] at inside ⊢
    omega
  rw [recent, some_, last]
  have inside : r.head % ringSize = r.head := Nat.mod_eq_of_lt r.head_lt
  simp [emit, inside]

theorem EventRing.gen_emit (e : E) (r : EventRing E) : (r.emit e).gen ≠ r.gen := by
  simp only [emit, generations]
  omega

namespace World

variable {w : World E}

/-! ## What each step keeps -/

theorem pending_of_read (read : ¬w.Unread) : w.pending = w.pusher.place.event?.toList := by
  rw [pending, if_neg read, List.append_nil]

theorem Kept.emit (kept : Kept w) (e : E) (read : ¬w.Unread) : Kept (w.step (.emit e)) := by
  obtain ⟨same, notReading⟩ := not_or.mp read
  have unread : (w.step (.emit e)).Unread := by
    left
    change (w.ring.emit e).gen ≠ w.pusher.lastEv
    rw [← not_not.mp same]
    exact EventRing.gen_emit e w.ring
  refine ⟨?_, fun _ => ⟨e, EventRing.recent_emit e w.ring⟩, ?_, kept.alive, kept.idle, kept.sorted,
    kept.behind, kept.current⟩
  · have told := kept.told
    rw [pending_of_read read] at told
    rw [pending, if_pos unread]
    change w.client.handed ++ (_ ++ (w.ring.emit e).recent 1) = w.emitted ++ [e]
    rw [EventRing.recent_emit, ← List.append_assoc]
    exact congrArg (· ++ [e]) told
  · intro reading
    exact absurd reading notReading

theorem Kept.publish (kept : Kept w) : Kept (w.step .publish) where
  told := kept.told
  fresh := kept.fresh
  seen := kept.seen
  alive := kept.alive
  idle := kept.idle
  sorted := kept.sorted
  behind := fun n inside =>
    ⟨(kept.behind n inside).1.trans (Nat.le_succ _), (kept.behind n inside).2⟩
  current := fun n inside => (kept.current n inside).trans (Nat.le_succ _)

theorem Kept.moved (kept : Kept w) (p : Pusher E) (copies : List ℕ)
    (pending : { w with pusher := p, copies := copies }.pending = w.pending)
    (unread : { w with pusher := p, copies := copies }.Unread → w.Unread)
    (seen : p.place.reading = true → w.ring.gen = p.lastEv)
    (copied : ∀ n ∈ { w with pusher := p, copies := copies }.copied,
      n = w.status ∨ n ∈ w.copied) :
    Kept { w with pusher := p, copies := copies } := by
  refine ⟨(congrArg (w.client.handed ++ ·) pending).trans kept.told,
    fun some_ => kept.fresh (unread some_), seen, kept.alive, kept.idle, kept.sorted, ?_, ?_⟩
  · intro n inside
    refine ⟨(kept.behind n inside).1, ?_⟩
    intro other held
    rcases copied other held with rfl | before
    · exact (kept.behind n inside).1
    · exact (kept.behind n inside).2 other before
  · intro n inside
    rcases copied n inside with rfl | before
    · exact le_rfl
    · exact kept.current n before

theorem Kept.copy (kept : Kept w) : Kept (w.step .copy) := by
  refine kept.moved w.pusher _ rfl id kept.seen ?_
  intro n inside
  simp only [World.copied, List.append_assoc, List.mem_append, List.mem_singleton] at inside ⊢
  tauto

theorem Kept.posted (kept : Kept w) {w' : World E} {n : ℕ} (held : n ∈ w.copied)
    (client : w'.client = w.client.broadcastStatus n) (status : w'.status = w.status)
    (fewer : ∀ other ∈ w'.copied, other ∈ w.copied ∧ n ≤ other)
    (told : w'.client.handed ++ w'.pending = w'.emitted)
    (fresh : w'.Unread → ∃ e, w'.ring.recent 1 = [e])
    (seen : w'.pusher.place.reading = true → w'.ring.gen = w'.pusher.lastEv) : Kept w' := by
  have alive := kept.alive
  have posted : w'.client = { w.client with status := some n } := by
    rw [client, Client.broadcastStatus, if_neg (by simp [alive.1])]
  have statuses : w'.client.statuses =
      (w.client.written.filterMap Frame.status? ++ w.client.taken.toList) ++ [n] := by
    rw [posted, List.append_assoc]
    rfl
  have earlier : ∀ x ∈ w.client.written.filterMap Frame.status? ++ w.client.taken.toList,
      x ∈ w.client.statuses := by
    intro x inside
    rw [Client.statuses, ← List.append_assoc]
    exact List.mem_append_left _ inside
  refine ⟨told, fresh, seen, ?_, ?_, ?_, ?_, ?_⟩
  · rw [posted]
    exact alive
  · rw [posted]
    exact kept.idle
  · rw [statuses, List.pairwise_append]
    have sorted := kept.sorted
    rw [Client.statuses, ← List.append_assoc, List.pairwise_append] at sorted
    refine ⟨sorted.1, List.pairwise_singleton _ _, ?_⟩
    intro x inside y last
    rw [List.mem_singleton.mp last]
    exact (kept.behind x (earlier x inside)).2 n held
  · intro x inside
    rw [statuses, List.mem_append] at inside
    rw [status]
    rcases inside with before | last
    · have behind := kept.behind x (earlier x before)
      exact ⟨behind.1, fun other among => behind.2 other (fewer other among).1⟩
    · rw [List.mem_singleton.mp last]
      exact ⟨kept.current n held, fun other among => (fewer other among).2⟩
  · intro x inside
    rw [status]
    exact kept.current x (fewer x inside).1

theorem handed_broadcastStatus (n : ℕ) (c : Client E) :
    (c.broadcastStatus n).handed = c.handed := by
  rw [Client.broadcastStatus]
  split_ifs <;> rfl

theorem Kept.post (kept : Kept w) (i : ℕ) (undisturbed : Undisturbed (.post i) w) :
    Kept (w.step (.post i)) := by
  cases found : w.copies[i]? with
  | none =>
      have same : w.step (.post i) = w := by simp only [World.step, found]
      rw [same]
      exact kept
  | some n =>
      have posted : w.step (.post i) =
          { w with client := w.client.broadcastStatus n, copies := w.copies.eraseIdx i } := by
        simp only [World.step, found]
      obtain ⟨oldest, pushers⟩ := undisturbed n found
      rw [posted]
      refine kept.posted (n := n) ?_ rfl rfl ?_ ?_ kept.fresh kept.seen
      · exact List.mem_append_left _ (List.mem_of_getElem? found)
      · intro other inside
        rcases List.mem_append.mp inside with own | pusher
        · exact ⟨List.mem_append_left _ (List.mem_of_mem_eraseIdx own), oldest other own⟩
        · exact ⟨List.mem_append_right _ pusher, pushers other (Option.mem_toList.mp pusher)⟩
      · exact (congrArg (· ++ w.pending) (handed_broadcastStatus n w.client)).trans kept.told

/-! ### The writer -/

theorem Kept.written (kept : Kept w) {c : Client E} (handed : c.handed = w.client.handed)
    (statuses : c.statuses = w.client.statuses) (alive : c.dead = false ∧ c.failed = false)
    (idle : c.writing = false → c.batch = [] ∧ c.taken = none) : Kept { w with client := c } where
  told := (congrArg (· ++ w.pending) handed).trans kept.told
  fresh := kept.fresh
  seen := kept.seen
  alive := alive
  idle := idle
  sorted := by
    change c.statuses.Pairwise (· ≤ ·)
    rw [statuses]
    exact kept.sorted
  behind := by
    change ∀ n ∈ c.statuses, _
    rw [statuses]
    exact kept.behind
  current := kept.current

theorem Kept.take (kept : Kept w) : Kept (w.step .take) := by
  change Kept { w with client := w.client.take }
  rw [Client.take]
  split_ifs with some_
  · obtain ⟨noBatch, noStatus⟩ := kept.idle some_.1
    apply kept.written
    · simp [Client.handed, noBatch]
    · simp [Client.statuses, noStatus]
    · exact ⟨kept.alive.1, kept.alive.1⟩
    · intro idle
      cases idle
  · exact kept

theorem Kept.write (kept : Kept w) : Kept (w.step (.write true)) := by
  change Kept { w with client := w.client.write true }
  obtain ⟨alive, sound⟩ := kept.alive
  rw [Client.write]
  split_ifs with writing
  · cases batch : w.client.batch with
    | cons m rest =>
        apply kept.written
        · simp [Client.put, Client.handed, Frame.event?, List.filterMap_cons, sound, batch]
          cases m.event? <;> rfl
        · simp [Client.put, Client.statuses, Frame.status?, sound]
        · simp [Client.put, sound, alive]
        · intro idle
          simp [Client.put, sound, writing] at idle
    | nil =>
        cases taken : w.client.taken with
        | some n =>
            apply kept.written
            · simp [Client.put, Client.handed, Frame.event?, sound, batch]
            · simp [Client.put, Client.statuses, Frame.status?, sound, taken]
            · simp [Client.put, sound, alive]
            · intro idle
              simp [Client.put, sound, writing] at idle
        | none =>
            apply kept.written
            · simp [Client.handed, batch]
            · simp [Client.statuses, taken]
            · simp [alive, sound]
            · exact fun _ => ⟨rfl, rfl⟩
  · exact kept

/-! ### The push thread -/

theorem Kept.passed (kept : Kept w) (p : Pusher E)
    (event : p.place.event? = w.pusher.place.event?)
    (unread : { w with pusher := p }.Unread ↔ w.Unread)
    (seen : p.place.reading = true → w.ring.gen = p.lastEv) (copy : p.place.copy? = none) :
    Kept { w with pusher := p } := by
  refine kept.moved p w.copies ?_ unread.mp seen ?_
  · simp only [pending, event]
    congr 1
    exact if_congr unread rfl rfl
  · intro n inside
    right
    simp only [World.copied, copy, Option.toList_none, List.append_nil] at inside
    exact List.mem_append_left _ inside

theorem Kept.queued (kept : Kept w) (p : Pusher E) (m : Message E)
    (room : w.client.q.length < queueSize)
    (event : w.pusher.place.event? = m.event?) (none_ : p.place.event? = none)
    (unread : { w with pusher := p }.Unread ↔ w.Unread) (reading : p.place.reading = false)
    (copy : p.place.copy? = none) :
    Kept { w with client := w.client.broadcast m, pusher := p } := by
  have queued : w.client.broadcast m = { w.client with q := w.client.q ++ [m] } := by
    rw [Client.broadcast, if_neg (by simp [kept.alive.1]), if_pos room]
  have handed : { w.client with q := w.client.q ++ [m] }.handed =
      w.client.handed ++ m.event?.toList := by
    cases found : m.event? <;> simp [Client.handed, found]
  have copied {n : ℕ} (held : n ∈ { w with pusher := p }.copied) : n ∈ w.copied := by
    simp only [World.copied, copy, Option.toList_none, List.append_nil] at held
    exact List.mem_append_left _ held
  rw [queued]
  refine ⟨?_, fun some_ => kept.fresh (unread.mp some_), ?_, kept.alive, kept.idle, kept.sorted,
    ?_, ?_⟩
  · have told := kept.told
    rw [pending, event, ← List.append_assoc, ← handed] at told
    rw [pending, none_, Option.toList_none, List.nil_append]
    exact (congrArg (_ ++ ·) (if_congr unread rfl rfl)).trans told
  · intro some_
    rw [reading] at some_
    cases some_
  · intro n inside
    exact ⟨(kept.behind n inside).1, fun other held => (kept.behind n inside).2 other (copied held)⟩
  · intro n held
    exact kept.current n (copied held)

theorem Kept.push (kept : Kept w) (now : ℚ) (connected : Connected (.push now) w)
    (undisturbed : Undisturbed (.push now) w) : Kept (w.push now) := by
  cases at_ : w.pusher.place with
  | poll =>
      simp only [World.push, at_]
      split_ifs
      · apply kept.passed <;> simp [at_, Place.event?, Place.copy?, Place.reading, Unread]
      · apply kept.passed <;> simp [at_, Place.event?, Place.copy?, Place.reading, Unread]
  | copying =>
      simp only [World.push, at_]
      apply kept.moved
      · simp [at_, pending, Place.event?, Place.reading, Unread]
      · simp [at_, Place.reading, Unread]
      · simp [Place.reading]
      · simp only [World.copied, Place.copy?, at_, Option.toList_some, Option.toList_none,
          List.mem_append, List.mem_singleton]
        tauto
  | posting n =>
      simp only [Undisturbed, at_, Place.copy?, Option.mem_def] at undisturbed
      simp only [World.push, at_]
      refine kept.posted (n := n) ?_ rfl rfl ?_ ?_ ?_ ?_
      · simp [World.copied, at_, Place.copy?]
      · intro other inside
        simp only [World.copied, Place.copy?, Option.toList_none, List.append_nil] at inside
        exact ⟨List.mem_append_left _ inside, undisturbed n rfl other inside⟩
      · have told := kept.told
        simp only [pending, Unread, at_, Place.event?, Place.reading] at told ⊢
        exact (congrArg (· ++ _) (handed_broadcastStatus n w.client)).trans told
      · intro some_
        apply kept.fresh
        simpa [Unread, at_, Place.reading] using some_
      · simp [Place.reading]
  | events =>
      simp only [World.push, at_]
      split_ifs with new
      · apply kept.passed <;> simp [at_, Place.event?, Place.copy?, Place.reading, Unread, new]
      · apply kept.passed <;> simp [at_, Place.event?, Place.copy?, Place.reading, Unread]
  | recent =>
      obtain ⟨e, last⟩ := kept.fresh (Or.inr (by rw [at_]; rfl))
      have same := kept.seen (by rw [at_]; rfl)
      simp only [World.push, at_, last]
      apply kept.moved
      · simp [at_, pending, Place.event?, Place.reading, Unread, same, last]
      · simp [at_, Place.reading, Unread]
      · simp [Place.reading]
      · simp only [World.copied, Place.copy?, at_]
        tauto
  | sending e =>
      have room := connected (by rw [at_]; rfl)
      simp only [World.push, at_]
      apply kept.queued _ _ room <;>
        simp [at_, Place.event?, Place.copy?, Place.reading, Unread, Message.event?]
  | alarms =>
      simp only [World.push, at_]
      split_ifs
      · apply kept.passed <;> simp [at_, Place.event?, Place.copy?, Place.reading, Unread]
      · apply kept.passed <;> simp [at_, Place.event?, Place.copy?, Place.reading, Unread]
  | noting gen =>
      have room := connected (by rw [at_]; rfl)
      simp only [World.push, at_]
      apply kept.queued _ _ room <;>
        simp [at_, Place.event?, Place.copy?, Place.reading, Unread, Message.event?]

theorem kept_step (m : Move E) (w : World E) (kept : Kept w)
    (quiet : Connected m w ∧ Undisturbed m w) : Kept (w.step m) := by
  obtain ⟨connected, undisturbed⟩ := quiet
  cases m with
  | emit e => exact kept.emit e undisturbed
  | publish => exact kept.publish
  | alarm =>
      exact ⟨kept.told, kept.fresh, kept.seen, kept.alive, kept.idle, kept.sorted, kept.behind,
        kept.current⟩
  | push now => exact kept.push now connected undisturbed
  | copy => exact kept.copy
  | post i => exact kept.post i undisturbed
  | take => exact kept.take
  | write ok =>
      simp only [Connected] at connected
      rw [connected]
      exact kept.write

theorem kept_start (ring : EventRing E) (status statusGen alarmsGen : ℕ) :
    Kept (start ring status statusGen alarmsGen) where
  told := by simp [start, Client.handed, pending, Place.event?, Place.reading, Unread]
  fresh := by simp [start, Place.reading, Unread]
  seen := by simp [start, Place.reading]
  alive := ⟨rfl, rfl⟩
  idle := fun _ => ⟨rfl, rfl⟩
  sorted := List.Pairwise.nil
  behind := fun n inside => by cases inside
  current := fun n inside => by cases inside

theorem Kept.done (kept : Kept w) : Told w where
  prefix_ := ⟨w.pending, kept.told⟩
  whole := by
    intro posted read
    have told := kept.told
    rwa [pending_of_read read, posted, Option.toList_none, List.append_nil] at told
  statuses := kept.sorted

/-- A client that is there throughout, and whose queue has room, is told every event once and
in order, and no status after a newer one, as long as each event is read before the next is
emitted and each status posted before a newer one. -/
theorem undisturbed_told (ring : EventRing E) (status statusGen alarmsGen : ℕ)
    (moves : List (Move E))
    (quiet : Along World.step (fun m w => Connected m w ∧ Undisturbed m w) moves
      (start ring status statusGen alarmsGen)) :
    Told (run World.step moves (start ring status statusGen alarmsGen)) := by
  have kept : Kept (run World.step moves (start ring status statusGen alarmsGen)) :=
    run_preserves _ Kept kept_step (kept_start ring status statusGen alarmsGen) quiet
  exact kept.done

/-- A ring that nothing was emitted to. -/
def noEvents : EventRing ℕ := ⟨fun _ => none, 0, 0, 0, by decide⟩

/-- An event is sent; a thread with a new client posts a new status; and there is a second
event. -/
def quietMoves : List (Move ℕ) :=
  [.emit 1, .push 1, .push 1, .push 1, .push 1, .take, .write true, .write true, .publish, .copy,
    .post 0, .take, .write true, .emit 2]

theorem undisturbed_told_twice : Told (run World.step quietMoves (start noEvents 0 0 0)) := by
  apply undisturbed_told
  decide +kernel

/-- Of two events that are emitted between two turns the first is never sent. -/
theorem hurried_untold :
    ¬∀ (ring : EventRing ℕ) (status statusGen alarmsGen : ℕ) (moves : List (Move ℕ)),
      Along World.step Connected moves (start ring status statusGen alarmsGen) →
        Told (run World.step moves (start ring status statusGen alarmsGen)) := by
  intro always
  have told := always noEvents 0 0 0 [.emit 1, .emit 2, .push 1, .push 1, .push 1, .push 1]
    (by decide +kernel)
  have whole := told.whole (by decide +kernel) (by decide +kernel)
  revert whole
  decide +kernel

end World

end PiFire.Live
