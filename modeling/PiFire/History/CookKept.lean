import PiFire.History.CookFile

/-!
# Every cook is kept whole

A cook that ends is in the slot, in the hands of the services thread, or saved with one
row and one file of its own, which hold all its samples. This needs the slot to be free
when a cook ends, the cook's samples to be flushed when its history is read, nothing to
delete them before, and the loop not to end with a cook in the slot.
-/

namespace PiFire.Cooks

open Transition History

/-- A cook that has ended, with the samples taken while it ran. -/
structure Cook where
  request : Request
  samples : List HistSample

/-- The threads, the samples of the cook that runs, the cooks worth keeping that have
ended, and the wall clock as it was read last. -/
structure Books where
  state : State
  current : List HistSample
  ended : List Cook
  clock : ℚ

/-- What an event adds to the books. -/
def Books.note (e : Event) (b : Books) : Books :=
  if b.state.clearing then b
  else
    match e with
    | .record st now sampleS =>
        if sampleDue st now sampleS b.state.buffer then
          { b with
            current := if b.state.cookStart > 0 then b.current ++ [sampleOf st] else b.current
            clock := st.wall }
        else b
    | .startup wall _ _ => { b with current := [], clock := wall }
    | .stop wall augerOnS maxPitC =>
        if b.state.cookStart > 0 then
          let r : Request :=
            { start := b.state.cookStart, end_ := wall, augerOnS := augerOnS, maxPitC := maxPitC }
          { b with
            current := []
            ended := if r.long then b.ended ++ [{ request := r, samples := b.current }] else b.ended
            clock := wall }
        else b
    | _ => b

def Books.step (e : Event) (b : Books) : Books :=
  { b.note e with state := Cooks.step e b.state }

/-- The books as the threads start; a cook that is picked up again has the samples that
were stored since its start. -/
def Books.init (now clock cookStart : ℚ) (stored : List HistSample) (cooks : List CookRow)
    (files : ℕ → Option CookFile) : Books :=
  { state := Cooks.init now cookStart stored cooks files
    current := if cookStart > 0 then stored.filter (cookStart ≤ ·.ts) else []
    ended := []
    clock := clock }

/-! ## What a cook is owed -/

/-- The request the services thread has taken and not yet finished with. -/
def Services.inHand : Services → Option Request
  | .querying r | .inserting r _ | .naming _ r _ _ => some r
  | _ => none

/-- The row that was inserted and has no file yet. -/
def Services.unnamed : Services → List CookRow
  | .naming _ _ _ row => [row]
  | _ => []

/-- The cooks worth keeping that wait: the one in hand, then the one in the slot. -/
def State.waiting (s : State) : List Request :=
  s.services.inHand.toList ++ s.slot.toList.filter Request.long

/-- A history that holds a sample: in the bucket of its second. -/
def Holds (history : List Bucket) (sample : HistSample) : Prop :=
  ∃ bucket ∈ history, bucket.t = second sample ∧ sample ∈ bucket.samples

/-- A row, and the file under its number, of this cook. -/
structure Saved (files : ℕ → Option CookFile) (cook : Cook) (row : CookRow) : Prop where
  start : row.start = cook.request.start
  end_ : row.end_ = cook.request.end_
  metrics : ∃ s, row.metrics = metricsOf s cook.request
  file : ∃ file, files row.id = some file ∧ file.id = row.id ∧ file.start = row.start ∧
    file.end_ = row.end_ ∧ file.metrics = row.metrics ∧
    ∀ sample ∈ cook.samples, Holds file.history sample

/-- Every cook that ended and was worth keeping is saved, with a row and a file of its
own, or waits; once the services thread is done none waits. -/
def Whole (old : List CookRow) (b : Books) : Prop :=
  ∃ saved waiting rows, b.ended = saved ++ waiting ∧
    waiting.map Cook.request = b.state.waiting ∧
    b.state.cooks = old ++ rows ++ b.state.services.unnamed ∧
    List.Forall₂ (Saved b.state.files) saved rows ∧
    (b.state.cooks.map CookRow.id).Nodup ∧
    (b.state.services = .done → waiting = [])

/-! ## The condition -/

/-- Whether a cook worth keeping is in the slot. -/
def State.occupied (s : State) : Bool := s.slot.any Request.long

/-- Whether the services thread has left its loop. -/
def Services.left : Services → Bool
  | .lastFlush _ | .done => true
  | _ => false

/-- Whether a cook's history is about to be read. -/
def Services.reading : Services → Bool
  | .querying _ => true
  | _ => false

/-- The condition of a step of the services thread: the loop is left with the slot free; a
cook's history is read with none of its samples pending; nothing prunes what a cook is
owed. -/
def ServeSound (cutoff : ℚ) (s : State) : Services → Prop
  | .top => s.running = false → s.occupied = false
  | .querying r => ∀ sample ∈ s.buffer.pending, ¬(r.start ≤ sample.ts ∧ sample.ts ≤ r.end_)
  | .pruning => s.now - s.lastPrune > pruneS →
      (s.cookStart > 0 → cutoff ≤ s.cookStart) ∧ ∀ r ∈ s.slot, cutoff ≤ r.start
  | _ => True

/-- The condition of a step: the wall clock is not turned back and the buffer has room;
a cook ends only onto a free slot of a loop that still runs; nothing clears what a cook is
owed; no other row is inserted between a cook's row and its file. -/
def Sound (e : Event) (b : Books) : Prop :=
  let s := b.state
  match e with
  | .record st now sampleS =>
      s.clearing = false → sampleDue st now sampleS s.buffer = true →
        b.clock ≤ st.wall ∧ s.buffer.pending.length < pendingMax
  | .startup wall fromStop clears =>
      s.clearing = false → b.clock ≤ wall ∧
        ((clears && fromStop) = true → s.occupied = false ∧ s.services.reading = false)
  | .stop wall _ _ =>
      s.clearing = false → s.cookStart > 0 →
        b.clock ≤ wall ∧ s.occupied = false ∧ s.services.left = false
  | .insertElsewhere _ => s.services.unnamed = []
  | .serve _ cutoff _ => ServeSound cutoff s s.services
  | .wipe | .shutDown => True

instance (cutoff : ℚ) (s : State) : ∀ services, Decidable (ServeSound cutoff s services)
  | .top => inferInstanceAs (Decidable (s.running = false → s.occupied = false))
  | .querying r => inferInstanceAs (Decidable
      (∀ sample ∈ s.buffer.pending, ¬(r.start ≤ sample.ts ∧ sample.ts ≤ r.end_)))
  | .pruning => inferInstanceAs (Decidable (s.now - s.lastPrune > pruneS →
      (s.cookStart > 0 → cutoff ≤ s.cookStart) ∧ ∀ r ∈ s.slot, cutoff ≤ r.start))
  | .flushing _ | .handing | .inserting _ _ | .naming _ _ _ _ | .lastFlush _ | .done =>
      isTrue trivial

instance (b : Books) : ∀ e, Decidable (Sound e b)
  | .record st now sampleS => inferInstanceAs (Decidable (b.state.clearing = false →
      sampleDue st now sampleS b.state.buffer = true →
        b.clock ≤ st.wall ∧ b.state.buffer.pending.length < pendingMax))
  | .startup wall fromStop clears => inferInstanceAs (Decidable (b.state.clearing = false →
      b.clock ≤ wall ∧ ((clears && fromStop) = true →
        b.state.occupied = false ∧ b.state.services.reading = false)))
  | .stop wall _ _ => inferInstanceAs (Decidable (b.state.clearing = false →
      b.state.cookStart > 0 →
        b.clock ≤ wall ∧ b.state.occupied = false ∧ b.state.services.left = false))
  | .insertElsewhere _ => inferInstanceAs (Decidable (b.state.services.unnamed = []))
  | .serve _ cutoff _ => inferInstanceAs (Decidable (ServeSound cutoff b.state b.state.services))
  | .wipe | .shutDown => isTrue trivial

/-! ## Lemmas -/

theorem holds_historyQuery {from_ to_ : ℚ} {stored : List HistSample} {sample : HistSample}
    (inside : sample ∈ stored) (after : from_ ≤ sample.ts) (before : sample.ts ≤ to_) :
    Holds (historyQuery from_ to_ stored) sample := by
  have chosen : sample ∈ stored.filter fun sample => from_ ≤ sample.ts ∧ sample.ts ≤ to_ := by
    simp [List.mem_filter, inside, after, before]
  refine ⟨_, List.mem_map.mpr ⟨second sample, ?_, rfl⟩, rfl, ?_⟩
  · rw [List.mem_mergeSort, List.mem_dedup]
    exact List.mem_map_of_mem chosen
  · rw [List.mem_filter]
    exact ⟨chosen, by simp⟩

theorem lt_nextId {rows : List CookRow} {row : CookRow} (inside : row ∈ rows) :
    row.id < nextId rows := by
  have greatest : ∀ ids : List ℕ, ∀ id ∈ ids, id ≤ ids.foldr max 0 := by
    intro ids
    induction ids with
    | nil => exact fun id inside => by cases inside
    | cons first ids ih =>
        intro id inside
        rcases List.mem_cons.mp inside with rfl | later
        · exact le_max_left _ _
        · exact (ih id later).trans (le_max_right _ _)
  exact Nat.lt_succ_of_le (greatest _ _ (List.mem_map_of_mem inside))

/-- The batch of a flush under way. -/
def Services.batch : Services → List HistSample
  | .flushing batch | .lastFlush batch => batch
  | _ => []

/-- A sample that is stored, in a batch, or pending. -/
def State.Reached (s : State) (sample : HistSample) : Prop :=
  sample ∈ s.stored ∨ sample ∈ s.services.batch ∨ sample ∈ s.buffer.pending

/-- The samples of a cook, none of them lost yet. -/
def State.Flying (s : State) (r : Request) (samples : List HistSample) : Prop :=
  ∀ sample ∈ samples, r.start ≤ sample.ts ∧ sample.ts ≤ r.end_ ∧ s.Reached sample

/-- What is in hand of a cook: its samples, its history, its row. -/
def State.Holding (s : State) (hand : Option Cook) : Prop :=
  match s.services with
  | .querying r => ∃ cook, hand = some cook ∧ cook.request = r ∧ s.Flying r cook.samples
  | .inserting r history =>
      ∃ cook, hand = some cook ∧ cook.request = r ∧ ∀ sample ∈ cook.samples, Holds history sample
  | .naming set r history row =>
      ∃ cook, hand = some cook ∧ cook.request = r ∧
        (∀ sample ∈ cook.samples, Holds history sample) ∧ row.start = r.start ∧
        row.end_ = r.end_ ∧ row.metrics = metricsOf set r ∧ s.lastRowid = row.id
  | _ => hand = none

/-- Where the cooks that ended are: saved, in hand, or in the slot. -/
structure Places (old : List CookRow) (b : Books) (saved : List Cook) (rows : List CookRow)
    (hand queued : Option Cook) : Prop where
  ended : b.ended = saved ++ hand.toList ++ queued.toList
  cooks : b.state.cooks = old ++ rows ++ b.state.services.unnamed
  files : List.Forall₂ (Saved b.state.files) saved rows
  ids : (b.state.cooks.map CookRow.id).Nodup
  holding : b.state.Holding hand
  slot : queued.map Cook.request = b.state.slot.filter Request.long
  flying : ∀ cook ∈ queued, b.state.Flying cook.request cook.samples
  left : b.state.services.left = true → queued = none

/-- What a run keeps. -/
structure Kept (old : List CookRow) (b : Books) : Prop where
  places : ∃ saved rows hand queued, Places old b saved rows hand queued
  started : b.state.cookStart > 0 → b.state.cookStart ≤ b.clock
  current : b.state.cookStart > 0 → ∀ sample ∈ b.current,
    b.state.cookStart ≤ sample.ts ∧ sample.ts ≤ b.clock ∧ b.state.Reached sample
  clearing : b.state.clearing = true →
    b.current = [] ∧ b.state.occupied = false ∧ b.state.services.reading = false

theorem Places.whole {old : List CookRow} {b : Books} {saved : List Cook} {rows : List CookRow}
    {hand queued : Option Cook} (places : Places old b saved rows hand queued) : Whole old b := by
  have inHand : hand.map Cook.request = b.state.services.inHand := by
    have holding := places.holding
    unfold State.Holding at holding
    unfold Services.inHand
    split at holding
    · obtain ⟨cook, rfl, same, -⟩ := holding
      exact congrArg some same
    · obtain ⟨cook, rfl, same, -⟩ := holding
      exact congrArg some same
    · obtain ⟨cook, rfl, same, -⟩ := holding
      exact congrArg some same
    · rw [holding]
      rfl
  have mapped (cook : Option Cook) :
      cook.toList.map Cook.request = (cook.map Cook.request).toList := by
    cases cook <;> rfl
  have filtered (slot : Option Request) :
      slot.toList.filter Request.long = (slot.filter Request.long).toList := by
    cases slot with
    | none => rfl
    | some r => cases long : r.long <;> simp [Option.filter, long]
  refine ⟨saved, hand.toList ++ queued.toList, rows, ?_, ?_, places.cooks, places.files,
    places.ids, fun done => ?_⟩
  · rw [places.ended, List.append_assoc]
  · rw [List.map_append, mapped, mapped, inHand, places.slot, State.waiting, filtered]
  · have noneInHand : hand = none := by
      have holding := places.holding
      rw [State.Holding, done] at holding
      exact holding
    rw [noneInHand, places.left (by rw [done]; rfl)]
    rfl

theorem State.Flying.mono {s s' : State} {r : Request} {samples : List HistSample}
    (reached : ∀ sample, s.Reached sample → s'.Reached sample) (flying : s.Flying r samples) :
    s'.Flying r samples := by
  intro sample inside
  obtain ⟨after, before, there⟩ := flying sample inside
  exact ⟨after, before, reached sample there⟩

theorem State.Reached.keep {s s' : State} {sample : HistSample} (there : s.Reached sample)
    (noBatch : s.services.batch = []) (stored : s'.stored = s.stored)
    (buffer : s'.buffer = s.buffer) : s'.Reached sample := by
  rcases there with inside | written | pending
  · exact Or.inl (stored ▸ inside)
  · rw [noBatch] at written
    cases written
  · exact Or.inr (Or.inr (buffer ▸ pending))

theorem State.Holding.transfer {s s' : State} {hand : Option Cook} (holding : s.Holding hand)
    (same : s'.services = s.services)
    (rowid : s.services.unnamed ≠ [] → s'.lastRowid = s.lastRowid)
    (flying : ∀ r samples, s.services = .querying r → s.Flying r samples →
      s'.Flying r samples) : s'.Holding hand := by
  unfold State.Holding at holding ⊢
  rw [same]
  cases at_ : s.services with
  | querying r =>
      rw [at_] at holding
      obtain ⟨cook, found, request, flies⟩ := holding
      exact ⟨cook, found, request, flying r _ at_ flies⟩
  | naming set r history row =>
      rw [at_] at holding
      obtain ⟨cook, found, request, held, start, end_, metrics, id⟩ := holding
      have kept : s'.lastRowid = s.lastRowid := rowid (by simp [at_, Services.unnamed])
      exact ⟨cook, found, request, held, start, end_, metrics, kept.trans id⟩
  | _ =>
      rw [at_] at holding
      exact holding

section Control

variable {old : List CookRow} {b b' : Books} {saved : List Cook} {rows : List CookRow}
  {hand queued : Option Cook}

theorem Places.slot_eq (places : Places old b saved rows hand queued) {cook : Cook}
    (inside : cook ∈ queued) : b.state.slot = some cook.request ∧ cook.request.long = true := by
  have slot := places.slot
  rw [Option.mem_def.mp inside, Option.map_some, eq_comm, Option.filter_eq_some_iff] at slot
  exact slot

theorem Places.transfer (places : Places old b saved rows hand queued)
    (ended : b'.ended = b.ended) (services : b'.state.services = b.state.services)
    (cooks : b'.state.cooks = b.state.cooks) (files : b'.state.files = b.state.files)
    (slot : b'.state.slot = b.state.slot)
    (rowid : b.state.services.unnamed ≠ [] → b'.state.lastRowid = b.state.lastRowid)
    (flying : ∀ r samples,
      (b.state.slot = some r ∧ r.long = true ∨ b.state.services = .querying r) →
        b.state.Flying r samples → b'.state.Flying r samples) :
    Places old b' saved rows hand queued where
  ended := ended.trans places.ended
  cooks := by rw [cooks, services, places.cooks]
  files := by
    rw [files]
    exact places.files
  ids := by
    rw [cooks]
    exact places.ids
  holding := places.holding.transfer services rowid fun r samples at_ =>
    flying r samples (Or.inr at_)
  slot := by rw [slot, places.slot]
  flying := by
    intro cook inside
    exact flying _ _ (Or.inl (places.slot_eq inside)) (places.flying cook inside)
  left := by
    rw [services]
    exact places.left

theorem reached_record (st : Status) (now sampleS : ℚ) {s : State} {sample : HistSample}
    (there : s.Reached sample) :
    State.Reached { s with buffer := record st now sampleS s.buffer } sample := by
  rcases there with stored | batch | pending
  · exact Or.inl stored
  · exact Or.inr (Or.inl batch)
  · refine Or.inr (Or.inr ?_)
    simp only [record]
    split_ifs
    · exact pending
    · exact List.mem_append_left _ pending
    · exact pending

theorem kept_record (kept : Kept old b) {st : Status} {now sampleS : ℚ}
    (sound : Sound (.record st now sampleS) b) : Kept old (b.step (.record st now sampleS)) := by
  by_cases clearing : b.state.clearing = true
  · have same : b.step (.record st now sampleS) = b := by
      simp only [Books.step, Books.note, Cooks.step, if_pos clearing]
    rw [same]
    exact kept
  · have free : b.state.clearing = false := Bool.eq_false_iff.mpr clearing
    have stepped : Cooks.step (.record st now sampleS) b.state =
        { b.state with buffer := record st now sampleS b.state.buffer } := by
      simp only [Cooks.step, if_neg clearing]
    have reached (sample : HistSample) (there : b.state.Reached sample) :
        (Cooks.step (.record st now sampleS) b.state).Reached sample := by
      rw [stepped]
      exact reached_record st now sampleS there
    obtain ⟨saved, rows, hand, queued, places⟩ := kept.places
    by_cases due : sampleDue st now sampleS b.state.buffer = true
    · obtain ⟨later, room⟩ := sound free due
      have noted : b.note (.record st now sampleS) =
          { b with
            current :=
              if b.state.cookStart > 0 then b.current ++ [sampleOf st] else b.current
            clock := st.wall } := by
        simp only [Books.note, if_neg clearing, if_pos due]
      rw [Books.step, noted]
      have moved : Places old { b with
          current := if b.state.cookStart > 0 then b.current ++ [sampleOf st] else b.current
          clock := st.wall, state := Cooks.step (.record st now sampleS) b.state }
          saved rows hand queued :=
        places.transfer rfl (by rw [stepped]) (by rw [stepped]) (by rw [stepped])
          (by rw [stepped]) (by rw [stepped]; exact fun _ => rfl)
          fun _ _ _ => State.Flying.mono reached
      refine ⟨⟨saved, rows, hand, queued, moved⟩, fun cooking => ?_, fun cooking => ?_, ?_⟩
      · rw [stepped] at cooking ⊢
        exact (kept.started cooking).trans later
      · rw [stepped] at cooking
        have started := kept.started cooking
        intro sample inside
        simp only [if_pos cooking] at inside
        rcases List.mem_append.mp inside with earlier | new
        · obtain ⟨after, before, there⟩ := kept.current cooking sample earlier
          refine ⟨?_, before.trans later, reached sample there⟩
          rw [stepped]
          exact after
        · obtain rfl := List.mem_singleton.mp new
          refine ⟨?_, le_rfl, ?_⟩
          · rw [stepped]
            exact started.trans later
          · rw [stepped]
            refine Or.inr (Or.inr ?_)
            simp only [record, if_pos due, if_neg (not_le.mpr room)]
            exact List.mem_append_right _ (List.mem_singleton_self _)
      · rw [stepped]
        exact fun clears => absurd clears clearing
    · have noted : b.note (.record st now sampleS) = b := by
        simp only [Books.note, if_neg clearing, if_neg due]
      have same : record st now sampleS b.state.buffer = b.state.buffer := by
        simp only [record, due, Bool.false_eq_true, if_false]
      rw [Books.step, noted, stepped, same]
      exact kept

theorem kept_startup (kept : Kept old b) {wall : ℚ} {fromStop clears : Bool}
    (sound : Sound (.startup wall fromStop clears) b) :
    Kept old (b.step (.startup wall fromStop clears)) := by
  by_cases clearing : b.state.clearing = true
  · have same : b.step (.startup wall fromStop clears) = b := by
      simp only [Books.step, Books.note, Cooks.step, if_pos clearing]
    rw [same]
    exact kept
  · have free : b.state.clearing = false := Bool.eq_false_iff.mpr clearing
    obtain ⟨later, spared⟩ := sound free
    obtain ⟨saved, rows, hand, queued, places⟩ := kept.places
    have noted : b.note (.startup wall fromStop clears) =
        { b with current := [], clock := wall } := by
      simp only [Books.note, if_neg clearing]
    by_cases wipes : (clears && fromStop) = true
    · have stepped : Cooks.step (.startup wall fromStop clears) b.state =
          { b.state with
            cookStart := wall, buffer := { b.state.buffer with pending := [] }
            clearing := true } := by
        simp only [Cooks.step, if_neg clearing, startup, if_pos wipes]
      obtain ⟨empty, idle⟩ := spared wipes
      rw [Books.step, noted, stepped]
      refine ⟨⟨saved, rows, hand, queued, places.transfer rfl rfl rfl rfl rfl (fun _ => rfl) ?_⟩,
        fun _ => le_rfl, fun _ _ inside => absurd inside List.not_mem_nil,
        fun _ => ⟨rfl, empty, idle⟩⟩
      rintro r samples (⟨taken, long⟩ | querying)
      · simp [State.occupied, taken, long] at empty
      · rw [querying] at idle
        cases idle
    · have stepped : Cooks.step (.startup wall fromStop clears) b.state =
          { b.state with cookStart := wall } := by
        simp only [Cooks.step, if_neg clearing, startup, if_neg wipes]
      rw [Books.step, noted, stepped]
      exact ⟨⟨saved, rows, hand, queued, places.transfer rfl rfl rfl rfl rfl (fun _ => rfl)
        fun _ _ _ flying => flying⟩, fun _ => le_rfl,
        fun _ _ inside => absurd inside List.not_mem_nil,
        fun clears => absurd clears clearing⟩

theorem kept_wipe (kept : Kept old b) : Kept old (b.step .wipe) := by
  by_cases clearing : b.state.clearing = true
  · obtain ⟨none, empty, idle⟩ := kept.clearing clearing
    obtain ⟨saved, rows, hand, queued, places⟩ := kept.places
    have noted : b.note .wipe = b := by simp only [Books.note, if_pos clearing]
    have stepped : Cooks.step .wipe b.state =
        { b.state with stored := [], clearing := false } := by
      simp only [Cooks.step, if_pos clearing]
    rw [Books.step, noted, stepped]
    refine ⟨⟨saved, rows, hand, queued, places.transfer rfl rfl rfl rfl rfl (fun _ => rfl) ?_⟩,
      kept.started, fun _ sample inside => ?_, nofun⟩
    · rintro r samples (⟨taken, long⟩ | querying)
      · simp [State.occupied, taken, long] at empty
      · rw [querying] at idle
        cases idle
    · rw [none] at inside
      cases inside
  · have same : b.step .wipe = b := by
      have noted : b.note .wipe = b := by simp only [Books.note, if_neg clearing]
      simp only [Books.step, noted, Cooks.step, if_neg clearing]
    rw [same]
    exact kept

theorem kept_stop (kept : Kept old b) {wall augerOnS maxPitC : ℚ}
    (sound : Sound (.stop wall augerOnS maxPitC) b) :
    Kept old (b.step (.stop wall augerOnS maxPitC)) := by
  by_cases clearing : b.state.clearing = true
  · have same : b.step (.stop wall augerOnS maxPitC) = b := by
      simp only [Books.step, Books.note, Cooks.step, if_pos clearing]
    rw [same]
    exact kept
  · have free : b.state.clearing = false := Bool.eq_false_iff.mpr clearing
    by_cases cooking : b.state.cookStart > 0
    · obtain ⟨later, empty, open_⟩ := sound free cooking
      obtain ⟨saved, rows, hand, queued, places⟩ := kept.places
      let r : Request :=
        { start := b.state.cookStart, end_ := wall, augerOnS := augerOnS, maxPitC := maxPitC }
      have noted : b.note (.stop wall augerOnS maxPitC) =
          { b with
            current := []
            ended :=
              if r.long then b.ended ++ [{ request := r, samples := b.current }] else b.ended
            clock := wall } := by
        simp only [Books.note, if_neg clearing, if_pos cooking]
        rfl
      have stepped : Cooks.step (.stop wall augerOnS maxPitC) b.state =
          { b.state with slot := some r, cookStart := 0 } := by
        simp only [Cooks.step, if_neg clearing, stop, if_pos cooking]
        rfl
      have none : queued = none := by
        cases waits : queued with
        | none => rfl
        | some cook =>
            have inside : cook ∈ queued := waits
            obtain ⟨taken, long⟩ := places.slot_eq inside
            simp [State.occupied, taken, long] at empty
      have ended := places.ended
      rw [none, Option.toList_none, List.append_nil] at ended
      rw [Books.step, noted, stepped]
      refine ⟨⟨saved, rows, hand, if r.long then some ⟨r, b.current⟩ else .none,
        { ended := ?_, cooks := places.cooks, files := places.files, ids := places.ids
          holding := places.holding.transfer rfl (fun _ => rfl) fun _ _ _ flying => flying
          slot := ?_, flying := ?_, left := ?_ }⟩, fun running => ?_, fun running => ?_,
        fun clears => absurd clears clearing⟩
      · simp only [ended]
        split_ifs
        · rw [Option.toList_some]
        · rw [Option.toList_none, List.append_nil]
      · cases long : r.long <;> simp [Option.filter, long]
      · intro cook inside
        split_ifs at inside
        · cases inside
          intro sample within
          obtain ⟨after, before, there⟩ := kept.current cooking sample within
          exact ⟨after, before.trans later, there⟩
        · cases inside
      · intro left
        rw [open_] at left
        cases left
      · exact absurd running (lt_irrefl 0)
      · exact absurd running (lt_irrefl 0)
    · have noted : b.note (.stop wall augerOnS maxPitC) = b := by
        simp only [Books.note, if_neg clearing, if_neg cooking]
      have stepped : Cooks.step (.stop wall augerOnS maxPitC) b.state = b.state := by
        simp only [Cooks.step, if_neg clearing, stop, if_neg cooking]
      rw [Books.step, noted, stepped]
      exact kept

theorem kept_shutDown (kept : Kept old b) : Kept old (b.step .shutDown) := by
  have noted : b.note .shutDown = b := by
    simp only [Books.note, ite_self]
  obtain ⟨saved, rows, hand, queued, places⟩ := kept.places
  rw [Books.step, noted]
  exact ⟨⟨saved, rows, hand, queued, places.transfer rfl rfl rfl rfl rfl (fun _ => rfl)
    fun _ _ _ flying => flying⟩, kept.started, kept.current, kept.clearing⟩

theorem kept_insertElsewhere (kept : Kept old b) {id : ℕ}
    (sound : Sound (.insertElsewhere id) b) : Kept old (b.step (.insertElsewhere id)) := by
  have noted : b.note (.insertElsewhere id) = b := by
    simp only [Books.note, ite_self]
  have named : b.state.services.unnamed = [] := sound
  obtain ⟨saved, rows, hand, queued, places⟩ := kept.places
  rw [Books.step, noted]
  exact ⟨⟨saved, rows, hand, queued, places.transfer rfl rfl rfl rfl rfl
    (fun unnamed => absurd named unnamed) fun _ _ _ flying => flying⟩, kept.started, kept.current,
    kept.clearing⟩

end Control

/-! ## The services thread -/

section Serving

variable {old : List CookRow} {b : Books} {saved : List Cook} {rows : List CookRow}
  {hand queued : Option Cook}

theorem Kept.served (kept : Kept old b) {s' : State}
    (places : ∃ saved rows hand queued,
      Places old { b with state := s' } saved rows hand queued)
    (cookStart : s'.cookStart = b.state.cookStart) (clearing : s'.clearing = b.state.clearing)
    (reached : b.state.cookStart > 0 → ∀ sample, b.state.cookStart ≤ sample.ts →
      b.state.Reached sample → s'.Reached sample)
    (cleared : b.state.clearing = true → b.state.occupied = false →
      s'.occupied = false ∧ s'.services.reading = false) :
    Kept old { b with state := s' } where
  places := places
  started := by
    rw [cookStart]
    exact kept.started
  current := by
    rw [cookStart]
    intro cooking sample inside
    obtain ⟨after, before, there⟩ := kept.current cooking sample inside
    exact ⟨after, before, reached cooking sample after there⟩
  clearing := by
    rw [clearing]
    intro clears
    obtain ⟨none, empty, -⟩ := kept.clearing clears
    exact ⟨none, cleared clears empty⟩

theorem Places.idle (places : Places old b saved rows hand queued) {s' : State}
    (unhanded : b.state.services.inHand = none) (unhanded' : s'.services.inHand = none)
    (cooks : s'.cooks = b.state.cooks) (files : s'.files = b.state.files)
    (slot : s'.slot = b.state.slot)
    (flying : ∀ cook ∈ queued, s'.Flying cook.request cook.samples)
    (left : s'.services.left = true → queued = none) :
    Places old { b with state := s' } saved rows hand queued := by
  have noRow (services : Services) (none : services.inHand = .none) : services.unnamed = [] := by
    cases services <;> first | rfl | cases none
  have holds (s : State) (none : s.services.inHand = .none) :
      s.Holding hand ↔ hand = .none := by
    unfold State.Holding
    cases at_ : s.services <;> rw [at_] at none <;> first | rfl | cases none
  refine ⟨places.ended, ?_, ?_, ?_, ?_, ?_, flying, left⟩
  · have same := places.cooks
    rw [noRow _ unhanded] at same
    rw [noRow _ unhanded', cooks, same]
  · rw [files]
    exact places.files
  · rw [cooks]
    exact places.ids
  · rw [holds _ unhanded']
    exact (holds _ unhanded).mp places.holding
  · rw [slot]
    exact places.slot

theorem notReading (services : Services) (unhanded : services.inHand = none) :
    services.reading = false := by
  cases services <;> first | rfl | cases unhanded

theorem note_serve (now cutoff : ℚ) (set : Settings) : b.note (.serve now cutoff set) = b := by
  simp only [Books.note, ite_self]

theorem kept_takeBatch (kept : Kept old b) (write : List HistSample → Services)
    (other : Services) (s' : State)
    (idle : ∀ services, services = other ∨ (∃ batch, services = write batch) →
      services.inHand = none)
    (batches : ∀ batch, (write batch).batch = batch)
    (unhanded : b.state.services.inHand = none) (noBatch : b.state.services.batch = [])
    (taken : s' = { b.state with
      now := s'.now, lastFlush := s'.lastFlush, services := s'.services })
    (left : ∀ services, services = other ∨ (∃ batch, services = write batch) →
      services.left = true → b.state.occupied = false) :
    Kept old { b with state := takeBatch write other s' } := by
  obtain ⟨saved, rows, hand, queued, places⟩ := kept.places
  have services : (takeBatch write other s').services = other ∨
      ∃ batch, (takeBatch write other s').services = write batch := by
    simp only [takeBatch]
    split_ifs
    · exact Or.inl rfl
    · exact Or.inr ⟨_, rfl⟩
  have buffer : s'.buffer = b.state.buffer := by rw [taken]
  have stored : s'.stored = b.state.stored := by rw [taken]
  have reached (sample : HistSample) (there : b.state.Reached sample) :
      (takeBatch write other s').Reached sample := by
    rcases there with inside | batch | pending
    · refine Or.inl ?_
      change sample ∈ s'.stored
      rw [stored]
      exact inside
    · rw [noBatch] at batch
      cases batch
    · refine Or.inr (Or.inl ?_)
      simp only [takeBatch, buffer]
      rw [if_neg (List.ne_nil_of_mem pending), batches]
      exact pending
  have slot : s'.slot = b.state.slot := by rw [taken]
  refine kept.served ⟨saved, rows, hand, queued, places.idle unhanded (idle _ services) ?_ ?_ slot
    (fun cook inside => (places.flying cook inside).mono reached) fun gone => ?_⟩ ?_ ?_
    (fun _ sample _ there => reached sample there) fun _ empty => ⟨?_, ?_⟩
  · change s'.cooks = _
    rw [taken]
  · change s'.files = _
    rw [taken]
  · have empty := left _ services gone
    cases waits : queued with
    | none => rfl
    | some cook =>
        have inside : cook ∈ queued := waits
        obtain ⟨taken, long⟩ := places.slot_eq inside
        simp [State.occupied, taken, long] at empty
  · change s'.cookStart = _
    rw [taken]
  · change s'.clearing = _
    rw [taken]
  · change s'.slot.any Request.long = false
    rw [slot]
    exact empty
  · exact notReading _ (idle _ services)

theorem kept_serve_top (kept : Kept old b) {now cutoff : ℚ} {set : Settings}
    (at_ : b.state.services = .top) (sound : Sound (.serve now cutoff set) b) :
    Kept old (b.step (.serve now cutoff set)) := by
  rw [Books.step, note_serve]
  simp only [Cooks.step, serve, at_]
  split_ifs with runs due
  · apply kept_takeBatch kept .flushing .handing
    · rintro services (rfl | ⟨batch, rfl⟩) <;> rfl
    · exact fun _ => rfl
    · rw [at_]
      rfl
    · rw [at_]
      rfl
    · rfl
    · rintro services (rfl | ⟨batch, rfl⟩) left <;> cases left
  · obtain ⟨saved, rows, hand, queued, places⟩ := kept.places
    have noBatch : b.state.services.batch = [] := by
      rw [at_]
      rfl
    refine kept.served ⟨saved, rows, hand, queued, places.idle (by rw [at_]; rfl) rfl rfl rfl rfl
      (fun cook inside => (places.flying cook inside).mono fun _ there =>
        there.keep noBatch rfl rfl) nofun⟩ rfl rfl
      (fun _ _ _ there => there.keep noBatch rfl rfl) fun _ empty => ⟨empty, rfl⟩
  · apply kept_takeBatch kept .lastFlush .done
    · rintro services (rfl | ⟨batch, rfl⟩) <;> rfl
    · exact fun _ => rfl
    · rw [at_]
      rfl
    · rw [at_]
      rfl
    · rfl
    · intro services _ _
      simp only [Sound, at_, ServeSound] at sound
      exact sound (Bool.eq_false_iff.mpr runs)

theorem kept_write (kept : Kept old b) {batch : List HistSample} {after : Services}
    (writing : b.state.services.batch = batch) (unhanded : b.state.services.inHand = none)
    (unhanded' : after.inHand = none)
    (left : after.left = true → b.state.services.left = true) :
    Kept old { b with state :=
      { b.state with stored := b.state.stored ++ batch, services := after } } := by
  obtain ⟨saved, rows, hand, queued, places⟩ := kept.places
  have reached (sample : HistSample) (there : b.state.Reached sample) :
      State.Reached { b.state with stored := b.state.stored ++ batch, services := after }
        sample := by
    rcases there with inside | written | pending
    · exact Or.inl (List.mem_append_left _ inside)
    · rw [writing] at written
      exact Or.inl (List.mem_append_right _ written)
    · exact Or.inr (Or.inr pending)
  refine kept.served ⟨saved, rows, hand, queued, places.idle unhanded unhanded' rfl rfl rfl
    (fun cook inside => (places.flying cook inside).mono reached)
    fun gone => places.left (left gone)⟩ rfl rfl
    (fun _ sample _ there => reached sample there) fun _ empty =>
      ⟨empty, notReading _ unhanded'⟩

theorem kept_serve_handing (kept : Kept old b) {now cutoff : ℚ} {set : Settings}
    (at_ : b.state.services = .handing) : Kept old (b.step (.serve now cutoff set)) := by
  obtain ⟨saved, rows, hand, queued, places⟩ := kept.places
  have none : hand = .none := by
    have holding := places.holding
    rw [State.Holding, at_] at holding
    exact holding
  have noBatch : b.state.services.batch = [] := by
    rw [at_]
    rfl
  rw [Books.step, note_serve]
  have slot := places.slot
  have cooks : b.state.cooks = old ++ rows ++ [] := by
    rw [places.cooks, at_]
    rfl
  cases taken : b.state.slot with
  | none =>
      have free : queued = .none := by
        simpa [taken] using slot
      have stepped : Cooks.step (.serve now cutoff set) b.state =
          { b.state with services := .pruning } := by
        simp only [Cooks.step, serve, at_, taken]
      rw [stepped]
      refine kept.served ⟨saved, rows, hand, queued, places.idle (by rw [at_]; rfl) rfl rfl rfl
        rfl (fun cook inside => ?_) nofun⟩ rfl rfl (fun _ _ _ there => there.keep noBatch rfl rfl)
        fun _ empty => ⟨empty, rfl⟩
      rw [free] at inside
      cases inside
  | some r =>
      cases long : r.long with
      | false =>
          have free : queued = .none := by
            simpa [taken, Option.filter, long] using slot
          have stepped : Cooks.step (.serve now cutoff set) b.state =
              { b.state with slot := .none, services := .pruning } := by
            simp only [Cooks.step, serve, at_, taken, long, Bool.false_eq_true, if_false]
          rw [stepped]
          refine kept.served ⟨saved, rows, .none, .none, ?_⟩ rfl rfl
            (fun _ _ _ there => there.keep noBatch rfl rfl) fun _ _ => ⟨rfl, rfl⟩
          refine ⟨?_, cooks, places.files, places.ids, rfl, rfl, nofun, fun _ => rfl⟩
          rw [places.ended, none, free]
      | true =>
          have asked : queued.map Cook.request = some r := by
            simpa [taken, Option.filter, long] using slot
          obtain ⟨cook, found, request⟩ := Option.map_eq_some_iff.mp asked
          have flies := places.flying cook found
          have stepped : Cooks.step (.serve now cutoff set) b.state =
              { b.state with slot := .none, services := .querying r } := by
            simp only [Cooks.step, serve, at_, taken, long, if_true]
          rw [stepped]
          refine kept.served ⟨saved, rows, some cook, .none, ?_⟩ rfl rfl
            (fun _ _ _ there => there.keep noBatch rfl rfl) fun _ empty => ?_
          · refine ⟨?_, cooks, places.files, places.ids, ⟨cook, rfl, request, ?_⟩, rfl, nofun,
              nofun⟩
            · rw [places.ended, none, found]
              simp
            · rw [← request]
              exact flies.mono fun _ there => there.keep noBatch rfl rfl
          · simp [State.occupied, taken, long] at empty

theorem kept_serve_querying (kept : Kept old b) {now cutoff : ℚ} {set : Settings} {r : Request}
    (at_ : b.state.services = .querying r) (sound : Sound (.serve now cutoff set) b) :
    Kept old (b.step (.serve now cutoff set)) := by
  obtain ⟨saved, rows, hand, queued, places⟩ := kept.places
  have noBatch : b.state.services.batch = [] := by
    rw [at_]
    rfl
  have holding := places.holding
  rw [State.Holding, at_] at holding
  obtain ⟨cook, rfl, request, flies⟩ := holding
  simp only [Sound, at_, ServeSound] at sound
  have held : ∀ sample ∈ cook.samples,
      Holds (historyQuery r.start r.end_ b.state.stored) sample := by
    intro sample inside
    obtain ⟨after, before, there⟩ := flies sample inside
    rcases there with stored | written | pending
    · exact holds_historyQuery stored after before
    · rw [at_] at written
      cases written
    · exact absurd ⟨after, before⟩ (sound sample pending)
  rw [Books.step, note_serve]
  simp only [Cooks.step, serve, at_]
  refine kept.served ⟨saved, rows, some cook, queued, ?_⟩ rfl rfl
    (fun _ _ _ there => there.keep noBatch rfl rfl) fun _ empty => ⟨empty, rfl⟩
  refine ⟨places.ended, ?_, places.files, places.ids, ⟨cook, rfl, request, held⟩, places.slot,
    fun cook inside => (places.flying cook inside).mono fun _ there => there.keep noBatch rfl rfl,
    nofun⟩
  rw [places.cooks, at_]
  rfl

theorem kept_serve_inserting (kept : Kept old b) {now cutoff : ℚ} {set : Settings} {r : Request}
    {history : List Bucket} (at_ : b.state.services = .inserting r history) :
    Kept old (b.step (.serve now cutoff set)) := by
  obtain ⟨saved, rows, hand, queued, places⟩ := kept.places
  have holding := places.holding
  rw [State.Holding, at_] at holding
  obtain ⟨cook, rfl, request, held⟩ := holding
  rw [Books.step, note_serve]
  simp only [Cooks.step, serve, at_]
  have noBatch : b.state.services.batch = [] := by
    rw [at_]
    rfl
  refine kept.served ⟨saved, rows, some cook, queued, ?_⟩ rfl rfl
    (fun _ _ _ there => there.keep noBatch rfl rfl) fun _ empty => ⟨empty, rfl⟩
  refine ⟨places.ended, ?_, places.files, ?_, ⟨cook, rfl, request, held, rfl, rfl, rfl, rfl⟩,
    places.slot, fun cook inside => (places.flying cook inside).mono fun _ there =>
      there.keep noBatch rfl rfl, nofun⟩
  · have before := places.cooks
    rw [at_] at before
    simp only [before, Services.unnamed, List.append_nil]
  · simp only [List.map_append, List.map_cons, List.map_nil]
    rw [List.nodup_append]
    refine ⟨places.ids, List.nodup_singleton _, ?_⟩
    intro id inside other new
    obtain ⟨row, among, rfl⟩ := List.mem_map.mp inside
    obtain rfl := List.mem_singleton.mp new
    exact (lt_nextId among).ne

theorem Saved.update {files : ℕ → Option CookFile} {cook : Cook} {row : CookRow}
    (saved : Saved files cook row) {id : ℕ} (other : row.id ≠ id) (file : CookFile) :
    Saved (Function.update files id (some file)) cook row := by
  refine ⟨saved.start, saved.end_, saved.metrics, ?_⟩
  rw [Function.update_of_ne other]
  exact saved.file

theorem forall_saved_update {files : ℕ → Option CookFile} {cooks : List Cook}
    {among : List CookRow} (all : List.Forall₂ (Saved files) cooks among) {id : ℕ}
    (other : ∀ row ∈ among, row.id ≠ id) (file : CookFile) :
    List.Forall₂ (Saved (Function.update files id (some file))) cooks among := by
  induction all with
  | nil => exact .nil
  | cons saved _ ih =>
      refine .cons (saved.update (other _ List.mem_cons_self) file) (ih ?_)
      exact fun row inside => other row (List.mem_cons_of_mem _ inside)

theorem kept_serve_naming (kept : Kept old b) {now cutoff : ℚ} {set under : Settings}
    {r : Request} {history : List Bucket} {row : CookRow}
    (at_ : b.state.services = .naming under r history row) :
    Kept old (b.step (.serve now cutoff set)) := by
  obtain ⟨saved, rows, hand, queued, places⟩ := kept.places
  have holding := places.holding
  rw [State.Holding, at_] at holding
  obtain ⟨cook, rfl, request, held, start, end_, metrics, id⟩ := holding
  have cooks := places.cooks
  rw [at_] at cooks
  have ids := places.ids
  rw [cooks] at ids
  rw [Books.step, note_serve]
  simp only [Cooks.step, serve, at_, id]
  have others : ∀ other ∈ rows, other.id ≠ row.id := by
    intro other inside same
    simp only [Services.unnamed, List.map_append, List.map_cons, List.map_nil] at ids
    have apart := (List.nodup_append.mp ids).2.2
    refine apart other.id ?_ row.id (List.mem_singleton_self _) same
    exact List.mem_append_right _ (List.mem_map_of_mem inside)
  have noBatch : b.state.services.batch = [] := by
    rw [at_]
    rfl
  refine kept.served ⟨saved ++ [cook], rows ++ [row], none, queued, ?_⟩ rfl rfl
    (fun _ _ _ there => there.keep noBatch rfl rfl) fun _ empty => ⟨empty, rfl⟩
  refine ⟨?_, ?_, ?_, places.ids, rfl, places.slot,
    fun cook inside => (places.flying cook inside).mono fun _ there =>
      there.keep noBatch rfl rfl, nofun⟩
  · rw [places.ended]
    simp
  · simp only [cooks, Services.unnamed, List.append_assoc, List.append_nil]
  · refine List.rel_append (forall_saved_update places.files others _) (.cons ?_ .nil)
    refine ⟨start.trans ?_, end_.trans ?_, ⟨under, ?_⟩, _, Function.update_self _ _ _, rfl, ?_, ?_,
      rfl, held⟩
    · rw [request]
    · rw [request]
    · rw [metrics, request]
    · exact start.symm
    · exact end_.symm

theorem kept_serve_pruning (kept : Kept old b) {now cutoff : ℚ} {set : Settings}
    (at_ : b.state.services = .pruning) (sound : Sound (.serve now cutoff set) b) :
    Kept old (b.step (.serve now cutoff set)) := by
  obtain ⟨saved, rows, hand, queued, places⟩ := kept.places
  simp only [Sound, at_, ServeSound] at sound
  rw [Books.step, note_serve]
  simp only [Cooks.step, serve, at_]
  split_ifs with due
  · obtain ⟨running, waits⟩ := sound due
    have reached (lastPrune : ℚ) (sample : HistSample) (recent : cutoff ≤ sample.ts)
        (there : b.state.Reached sample) :
        State.Reached { b.state with
          lastPrune := lastPrune, stored := b.state.stored.filter (cutoff ≤ ·.ts)
          services := .top } sample := by
      rcases there with inside | written | pending
      · exact Or.inl (List.mem_filter.mpr ⟨inside, by simpa using recent⟩)
      · rw [at_] at written
        cases written
      · exact Or.inr (Or.inr pending)
    refine kept.served ⟨saved, rows, hand, queued, places.idle (by rw [at_]; rfl) rfl rfl rfl rfl
      (fun cook inside sample within => ?_) nofun⟩ rfl rfl
      (fun cooking sample after there => ?_) fun _ empty => ⟨empty, rfl⟩
    · obtain ⟨after, before, there⟩ := places.flying cook inside sample within
      refine ⟨after, before, reached _ sample ?_ there⟩
      exact (waits _ (places.slot_eq inside).1).trans after
    · exact reached _ sample ((running cooking).trans after) there
  · have noBatch : b.state.services.batch = [] := by
      rw [at_]
      rfl
    exact kept.served ⟨saved, rows, hand, queued, places.idle (by rw [at_]; rfl) rfl rfl rfl rfl
      (fun cook inside => (places.flying cook inside).mono fun _ there =>
        there.keep noBatch rfl rfl) nofun⟩ rfl rfl
      (fun _ _ _ there => there.keep noBatch rfl rfl) fun _ empty => ⟨empty, rfl⟩

theorem kept_serve (kept : Kept old b) {now cutoff : ℚ} {set : Settings}
    (sound : Sound (.serve now cutoff set) b) : Kept old (b.step (.serve now cutoff set)) := by
  cases at_ : b.state.services with
  | top => exact kept_serve_top kept at_ sound
  | flushing batch =>
      rw [Books.step, note_serve]
      simp only [Cooks.step, serve, at_]
      apply kept_write kept
      · rw [at_]
        rfl
      · rw [at_]
        rfl
      · rfl
      · nofun
  | handing => exact kept_serve_handing kept at_
  | querying r => exact kept_serve_querying kept at_ sound
  | inserting r history => exact kept_serve_inserting kept at_
  | naming under r history row => exact kept_serve_naming kept at_
  | pruning => exact kept_serve_pruning kept at_ sound
  | lastFlush batch =>
      rw [Books.step, note_serve]
      simp only [Cooks.step, serve, at_]
      apply kept_write kept
      · rw [at_]
        rfl
      · rw [at_]
        rfl
      · rfl
      · rw [at_]
        exact fun _ => rfl
  | done =>
      have still : b.step (.serve now cutoff set) = b := by
        rw [Books.step, note_serve]
        simp only [Cooks.step, serve, at_]
      rw [still]
      exact kept

end Serving

/-- In a run whose steps all meet the condition every cook worth keeping is saved whole or
waits, after every event, and none waits once the services thread is done. -/
theorem cooks_kept_whole {now clock cookStart : ℚ} {stored : List HistSample}
    {cooks : List CookRow} {files : ℕ → Option CookFile}
    (past : cookStart ≤ clock ∧ ∀ sample ∈ stored, sample.ts ≤ clock)
    (ids : (cooks.map CookRow.id).Nodup) {events : List Event}
    (sound : Along Books.step Sound events (Books.init now clock cookStart stored cooks files)) :
    Throughout Books.step (Whole cooks) events
      (Books.init now clock cookStart stored cooks files) := by
  have begun : Kept cooks (Books.init now clock cookStart stored cooks files) := by
    refine ⟨⟨[], [], none, none, ?_⟩, fun _ => past.1, fun cooking sample inside => ?_, nofun⟩
    · refine ⟨rfl, ?_, .nil, ids, rfl, rfl, nofun, nofun⟩
      simp [Books.init, init, Services.unnamed]
    · change cookStart > 0 at cooking
      simp only [Books.init, if_pos cooking, List.mem_filter, decide_eq_true_eq] at inside
      exact ⟨inside.2, past.2 sample inside.1, Or.inl inside.1⟩
  have preserved (e : Event) (b : Books) (kept : Kept cooks b) (sound : Sound e b) :
      Kept cooks (b.step e) := by
    cases e with
    | record st now sampleS => exact kept_record kept sound
    | startup wall fromStop clears => exact kept_startup kept sound
    | wipe => exact kept_wipe kept
    | stop wall augerOnS maxPitC => exact kept_stop kept sound
    | shutDown => exact kept_shutDown kept
    | insertElsewhere id => exact kept_insertElsewhere kept sound
    | serve now cutoff set => exact kept_serve kept sound
  refine Along.strengthen (Kept cooks) preserved (fun e b kept sound => ?_) begun sound
  obtain ⟨saved, rows, hand, queued, places⟩ := (preserved e b kept sound).places
  exact places.whole

/-- The settings of a grill that burns 0.3 g/s. -/
def benchSettings : Settings := { augerrate := 3 / 10, units := .c }

/-- A cook of 200 s is flushed, saved and named before the program is shut down. -/
theorem cooks_kept_whole_on_bench :
    Throughout Books.step (Whole [])
      ([.startup 1000 true true, .wipe, .record (benchStatus 1003) 3 3,
          .serve 20 0 benchSettings, .serve 20 0 benchSettings, .stop 1200 60 110] ++
        List.replicate 5 (.serve 20 0 benchSettings) ++
        [.shutDown, .serve 21 0 benchSettings])
      (Books.init 0 1000 0 [] [] fun _ => none) :=
  cooks_kept_whole (by decide +kernel) (by decide) (by decide +kernel)

theorem Whole.rows {b : Books} (whole : Whole [] b) (done : b.state.services = .done)
    (some_ : 0 < b.ended.length) : 0 < b.state.cooks.length := by
  obtain ⟨saved, waiting, rows, ended, -, inserted, files, -, none_waits⟩ := whole
  have matched : saved.length = rows.length := files.length_eq
  rw [ended, none_waits done, List.append_nil, matched] at some_
  rw [inserted, done]
  simpa [Services.unnamed] using some_

/-- A cook that ends just before the program is shut down. -/
def benchLast : List Event :=
  [.startup 1000 true false, .stop 1200 60 110, .shutDown, .serve 1 0 benchSettings]

def benchBooks : Books := Books.init 0 1000 0 [] [] fun _ => none

/-- It is never saved. -/
theorem shutdown_loses_cook :
    ¬∀ (now clock cookStart : ℚ) (stored : List HistSample) (cooks : List CookRow)
      (files : ℕ → Option CookFile) (events : List Event),
      cookStart ≤ clock → (∀ sample ∈ stored, sample.ts ≤ clock) →
        (cooks.map CookRow.id).Nodup →
          Throughout Books.step (Whole cooks) events
            (Books.init now clock cookStart stored cooks files) := by
  intro always
  have throughout : Throughout Books.step (Whole []) benchLast benchBooks :=
    always 0 1000 0 [] [] (fun _ => none) benchLast (by norm_num)
      (fun _ inside => absurd inside List.not_mem_nil) List.nodup_nil
  have row : 0 < (run Books.step benchLast benchBooks).state.cooks.length :=
    throughout.2.2.2.1.rows (by decide +kernel) (by decide +kernel)
  exact absurd row (by decide)

end PiFire.Cooks
