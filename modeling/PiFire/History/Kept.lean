import PiFire.History.Samples

/-!
# No sample is lost or invented

Every sample taken since the last clear is in the database with all its rows, or in the
hands of a flush, or still pending, in the order it was taken; the ones that found the
buffer full are counted. This needs every statement to succeed, and a clear to empty the
tables only when no flush has rows left to insert.
-/

namespace PiFire.History

open Transition

/-- What was taken, told apart by what became of it: the rows from before the daemon and
the samples that were taken since the last clear began, the samples that found the buffer
full, and the rest. -/
structure Ledger where
  old : List Row
  live : List HistSample
  dropped : List HistSample
  cleared : List HistSample

/-- What an event adds to the ledger. -/
def Ledger.note (e : Event) (s : State) (l : Ledger) : Ledger :=
  if s.clearing then l
  else
    match e with
    | .record st now sampleS =>
        if sampleDue st now sampleS s.buffer then
          if s.buffer.pending.length ≥ pendingMax then
            { l with dropped := l.dropped ++ [sampleOf st] }
          else { l with live := l.live ++ [sampleOf st] }
        else l
    | .clear => { l with old := [], live := [], cleared := l.cleared ++ l.live }
    | _ => l

/-- The samples an event takes at their time. -/
def takes (e : Event) (s : State) : List HistSample :=
  match e with
  | .record st now sampleS =>
      if !s.clearing && sampleDue st now sampleS s.buffer then [sampleOf st] else []
  | _ => []

/-- A state with its ledger, and all the samples taken so far. -/
structure Books where
  state : State
  ledger : Ledger
  taken : List HistSample

def Books.step (e : Event) (b : Books) : Books :=
  { state := History.step e b.state
    ledger := b.ledger.note e b.state
    taken := b.taken ++ takes e b.state }

/-- The books of a daemon just started. -/
def Books.init (rows : List Row) : Books :=
  { state := History.init rows
    ledger := { old := rows, live := [], dropped := [], cleared := [] }
    taken := [] }

/-- The rows a flush has still to insert. -/
def Flush.rowsLeft : Flush → List Row
  | .copied batch | .prepared batch => batch.flatMap HistSample.inserts
  | .writing todo => todo
  | .idle | .rollingBack => []

/-- Every sample taken is accounted for. Between the two halves of a clear the tables
still hold what was taken before it. -/
structure Accounted (b : Books) : Prop where
  kept : b.state.clearing = false →
    b.state.db.rows ++ b.state.flush.rowsLeft ++
        b.state.buffer.pending.flatMap HistSample.inserts =
      b.ledger.old ++ b.ledger.live.flatMap HistSample.inserts
  counted : b.ledger.dropped.length = b.state.reported + b.state.buffer.dropped
  taken : b.taken.Perm (b.ledger.cleared ++ b.ledger.live ++ b.ledger.dropped)

/-- The statement of this event succeeds, and the tables are emptied only when no flush
has rows left. -/
def Sound (e : Event) (b : Books) : Prop :=
  match e with
  | .serve outcome => b.state.flush ≠ .idle → outcome = .done
  | .wipe deleted =>
      b.state.clearing = true → 3 ≤ deleted ∧ b.state.flush.rowsLeft = []
  | _ => True

instance : ∀ (e : Event) (b : Books), Decidable (Sound e b)
  | .serve outcome, b =>
      inferInstanceAs (Decidable (b.state.flush ≠ .idle → outcome = .done))
  | .wipe deleted, b =>
      inferInstanceAs (Decidable
        (b.state.clearing = true → 3 ≤ deleted ∧ b.state.flush.rowsLeft = []))
  | .record _ _ _, _ | .clear, _ | .copy, _ => isTrue trivial

/-- What a run keeps: the account, that a clear half done has nothing to keep, and that
there is nothing to roll back. -/
structure Kept (b : Books) : Prop extends Accounted b where
  emptied : b.state.clearing = true →
    b.state.buffer.pending = [] ∧ b.ledger.old = [] ∧ b.ledger.live = []
  settled : b.state.flush = .rollingBack → b.state.db.before = none

section Steps

variable {b : Books}

theorem Db.delete_all (db : Db) {deleted : ℕ} (all : 3 ≤ deleted) :
    (db.delete ([Table.history, .historyProbe, .historyCtrl].take deleted)).rows = [] := by
  have whole : [Table.history, .historyProbe, .historyCtrl].take deleted =
      [Table.history, .historyProbe, .historyCtrl] := List.take_of_length_le (by simpa using all)
  rw [whole, Db.delete, List.filter_eq_nil_iff]
  intro row _
  cases row <;> simp [Row.table]

theorem kept_record (kept : Kept b) (st : Status) (now sampleS : ℚ) :
    Kept (b.step (.record st now sampleS)) := by
  by_cases clearing : b.state.clearing = true
  · have same : b.step (.record st now sampleS) = b := by
      simp [Books.step, History.step, Ledger.note, takes, clearing]
    rw [same]
    exact kept
  · have free : b.state.clearing = false := Bool.eq_false_iff.mpr clearing
    by_cases due : sampleDue st now sampleS b.state.buffer = true
    · by_cases full : b.state.buffer.pending.length ≥ pendingMax
      · -- the buffer is full: the sample is counted
        have stepped : b.step (.record st now sampleS) =
            { state := { b.state with
                buffer := { b.state.buffer with
                  lastSampleT := now, dropped := b.state.buffer.dropped + 1 } }
              ledger := { b.ledger with dropped := b.ledger.dropped ++ [sampleOf st] }
              taken := b.taken ++ [sampleOf st] } := by
          simp [Books.step, History.step, record, Ledger.note, takes, free, due, full]
        rw [stepped]
        refine ⟨⟨kept.kept, ?_, ?_⟩, kept.emptied, kept.settled⟩
        · simp only [List.length_append, List.length_singleton, kept.counted]
          omega
        · simp only [← List.append_assoc]
          exact kept.taken.append_right _
      · have stepped : b.step (.record st now sampleS) =
            { state := { b.state with
                buffer := { b.state.buffer with
                  lastSampleT := now, pending := b.state.buffer.pending ++ [sampleOf st] } }
              ledger := { b.ledger with live := b.ledger.live ++ [sampleOf st] }
              taken := b.taken ++ [sampleOf st] } := by
          simp [Books.step, History.step, record, Ledger.note, takes, free, due, full]
        rw [stepped]
        refine ⟨⟨fun _ => ?_, kept.counted, ?_⟩, fun clears => absurd clears clearing,
          kept.settled⟩
        · simp only [List.flatMap_append, ← List.append_assoc, kept.kept free]
        · have moved := kept.taken.append_right [sampleOf st]
          refine moved.trans ?_
          simp only [List.append_assoc]
          exact ((List.perm_append_comm).append_left _).append_left _
    · have same : record st now sampleS b.state.buffer = b.state.buffer := by
        simp only [record, due, Bool.false_eq_true, if_false]
      have still : History.step (.record st now sampleS) b.state = b.state := by
        simp only [History.step, if_neg clearing, same]
      have noted : b.ledger.note (.record st now sampleS) b.state = b.ledger := by
        simp only [Ledger.note, if_neg clearing, if_neg due]
      have none : takes (.record st now sampleS) b.state = [] := by simp [takes, due]
      rw [Books.step, still, noted, none, List.append_nil]
      exact kept

theorem kept_clear (kept : Kept b) : Kept (b.step .clear) := by
  by_cases clearing : b.state.clearing = true
  · have same : b.step .clear = b := by
      simp [Books.step, History.step, Ledger.note, takes, clearing]
    rw [same]
    exact kept
  · have stepped : b.step .clear =
        { state := { b.state with
            buffer := { b.state.buffer with pending := [] }, clearing := true }
          ledger := { b.ledger with
            old := [], live := [], cleared := b.ledger.cleared ++ b.ledger.live }
          taken := b.taken } := by
      simp [Books.step, History.step, Ledger.note, takes, clearing]
    rw [stepped]
    refine ⟨⟨nofun, kept.counted, ?_⟩, fun _ => ⟨rfl, rfl, rfl⟩,
      kept.settled⟩
    rw [List.append_nil]
    exact kept.taken

theorem kept_wipe (kept : Kept b) {deleted : ℕ} (sound : Sound (.wipe deleted) b) :
    Kept (b.step (.wipe deleted)) := by
  by_cases clearing : b.state.clearing = true
  · obtain ⟨all, noneLeft⟩ := sound clearing
    obtain ⟨noPending, noOld, noLive⟩ := kept.emptied clearing
    have stepped : b.step (.wipe deleted) =
        { b with state := { b.state with
            db := b.state.db.delete ([Table.history, .historyProbe, .historyCtrl].take deleted)
            clearing := false } } := by
      simp [Books.step, History.step, wipe, Ledger.note, takes, clearing]
    rw [stepped]
    refine ⟨⟨fun _ => ?_, kept.counted, kept.taken⟩, nofun, kept.settled⟩
    simp only [Db.delete_all _ all, noneLeft, noPending, noOld, noLive, List.flatMap_nil,
      List.append_nil]
  · have same : b.step (.wipe deleted) = b := by
      simp [Books.step, History.step, wipe, Ledger.note, takes, clearing]
    rw [same]
    exact kept

theorem kept_copy (kept : Kept b) : Kept (b.step .copy) := by
  have quiet : b.step .copy = { b with state := copy b.state } := by
    simp [Books.step, History.step, Ledger.note, takes]
  rw [quiet]
  cases flying : b.state.flush with
  | idle =>
      have held := kept.kept
      rw [flying] at held
      by_cases nothing : b.state.buffer.pending = []
      · simp only [copy, flying, if_pos nothing]
        rw [nothing] at held
        refine ⟨⟨held, ?_, kept.taken⟩, fun clears => ⟨rfl, (kept.emptied clears).2⟩,
          nofun⟩
        rw [Nat.add_zero]
        exact kept.counted
      · simp only [copy, flying, if_neg nothing]
        refine ⟨⟨fun free => ?_, ?_, kept.taken⟩, fun clears => ?_, nofun⟩
        · rw [← held free]
          simp [Flush.rowsLeft]
        · rw [Nat.add_zero]
          exact kept.counted
        · exact absurd (kept.emptied clears).1 nothing
  | copied | prepared | writing | rollingBack =>
      simp only [copy, flying]
      exact kept

theorem kept_serve (kept : Kept b) {outcome : Outcome} (sound : Sound (.serve outcome) b) :
    Kept (b.step (.serve outcome)) := by
  have quiet : b.step (.serve outcome) = { b with state := serve outcome b.state } := by
    simp [Books.step, History.step, Ledger.note, takes]
  rw [quiet]
  have held := kept.kept
  cases flying : b.state.flush with
  | idle =>
      simp only [serve, flying]
      exact kept
  | copied batch =>
      obtain rfl : outcome = .done := sound (by simp [flying])
      rw [flying] at held
      simp only [serve, flying]
      exact ⟨⟨held, kept.counted, kept.taken⟩, kept.emptied, nofun⟩
  | prepared batch =>
      obtain rfl : outcome = .done := sound (by simp [flying])
      rw [flying] at held
      simp only [serve, flying]
      exact ⟨⟨held, kept.counted, kept.taken⟩, kept.emptied, nofun⟩
  | writing todo =>
      obtain rfl : outcome = .done := sound (by simp [flying])
      rw [flying] at held
      cases todo with
      | nil =>
          simp only [serve, flying, true_and]
          split_ifs with opened
          · exact ⟨⟨held, kept.counted, kept.taken⟩, kept.emptied, nofun⟩
          · refine ⟨⟨held, kept.counted, kept.taken⟩, kept.emptied, fun _ => ?_⟩
            simpa using opened
      | cons row todo =>
          simp only [serve, flying]
          refine ⟨⟨fun free => ?_, kept.counted, kept.taken⟩, kept.emptied, nofun⟩
          rw [← held free]
          simp [Db.insert, Flush.rowsLeft]
  | rollingBack =>
      have same : (if outcome = .done then b.state.db.rollback else b.state.db).rows =
          b.state.db.rows := by
        split_ifs
        · rw [Db.rollback, kept.settled flying]
          rfl
        · rfl
      rw [flying] at held
      simp only [serve, flying]
      refine ⟨⟨fun free => ?_, kept.counted, kept.taken⟩, kept.emptied, nofun⟩
      rw [← held free, same]
      rfl

end Steps

/-- In a run whose statements succeed and whose clears find no flush with rows left, every
sample taken is accounted for after every event. -/
theorem samples_accounted (rows : List Row) {events : List Event}
    (sound : Along Books.step Sound events (Books.init rows)) :
    Throughout Books.step Accounted events (Books.init rows) := by
  have kept : Kept (Books.init rows) := by
    refine ⟨⟨fun _ => ?_, rfl, .refl _⟩, nofun, nofun⟩
    simp [Books.init, init, Flush.rowsLeft]
  have preserved (e : Event) (b : Books) (kept : Kept b) (sound : Sound e b) :
      Kept (b.step e) := by
    cases e with
    | record st now sampleS => exact kept_record kept st now sampleS
    | clear => exact kept_clear kept
    | wipe deleted => exact kept_wipe kept sound
    | copy => exact kept_copy kept
    | serve outcome => exact kept_serve kept sound
  exact Along.strengthen Kept preserved
    (fun e b kept sound => (preserved e b kept sound).toAccounted) kept sound

/-- Two samples are written while a third is taken, and the history is cleared. -/
theorem samples_accounted_on_bench :
    Throughout Books.step Accounted
      ([.record (benchStatus 10) 10 3, .record (benchStatus 13) 13 3, .copy] ++
        .serve .done :: .serve .done :: .record (benchStatus 16) 16 3 ::
          (List.replicate 7 (.serve .done) ++
            [.clear, .copy, .wipe 3, .record (benchStatus 19) 19 3, .copy]))
      (Books.init []) :=
  samples_accounted [] (by decide +kernel)

/-- A database that cannot be locked loses the batch: nothing counts it. -/
theorem locked_database_loses_sample :
    ¬∀ (rows : List Row) (events : List Event),
      Throughout Books.step Accounted events (Books.init rows) := by
  intro always
  have lost := always [] [.record (benchStatus 10) 10 3, .copy, .serve .done, .serve .failed]
  have kept := lost.2.2.2.1.kept (by decide +kernel)
  exact absurd kept (by decide +kernel)

end PiFire.History
