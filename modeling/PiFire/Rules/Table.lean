import PiFire.Rules.Alarms
import PiFire.Rules.Condition
import PiFire.Transition.Run
import PiFire.Transition.Slots
import Mathlib.Algebra.Order.Floor.Ring
import Mathlib.Data.List.Nodup

/-!
# Runs of the alarm table

The table through any calls. Keys stay distinct whatever is done, and a cleared
key is quiet; a raise stands under its key as long as it does not have to take
over the entry of another, which keeps the name it had.
-/

namespace PiFire.Rules

open Transition

namespace AlarmTable

/-! ## Calls -/

/-- What the program does to the table. -/
inductive Op where
  | raise (key : String) (crit : Crit)
  | clear (key : String)
  | retire (key : String)
  | ack (key : String)
  | ackAll
  | shelve (key : String) (seconds : ℚ)
  | note (code : String) (crit : Crit)

/-- A call, with the wall clock it reads. -/
structure Call where
  op : Op
  now : ℚ

/-- A number as it is printed without decimals: the nearest whole number, and
the even one of two. -/
def printedWhole (x : ℚ) : ℤ :=
  if x - ⌊x⌋ < 1 / 2 ∨ x - ⌊x⌋ = 1 / 2 ∧ ⌊x⌋ % 2 = 0 then ⌊x⌋ else ⌊x⌋ + 1

/-- The key of a moment carries its second. -/
def noteKey (code : String) (now : ℚ) : String :=
  short 40 code ++ "@" ++ toString (printedWhole now)

def work (c : Call) (tab : AlarmTable) : AlarmTable :=
  match c.op with
  | .raise key crit => (tab.raise key crit c.now).2
  | .clear key => tab.clear key c.now
  | .retire key => tab.retire key c.now
  | .ack key => tab.ack key c.now
  | .ackAll => tab.ackAll c.now
  | .shelve key seconds => tab.shelve key seconds c.now
  | .note code crit => tab.note (noteKey code c.now) crit c.now

/-- The key a call is about; acknowledging everything is about none. -/
def Call.key? (c : Call) : Option String :=
  match c.op with
  | .raise key _ | .clear key | .retire key | .ack key | .shelve key _ => some key
  | .ackAll => none
  | .note code _ => some (noteKey code c.now)

/-- The key whose entry is given to another one. -/
def evicted (key : String) (tab : AlarmTable) : Option String :=
  (((tab.slotFor key).bind tab.at?).map Alarm.key).filter fun other => other ≠ key

def Call.evicted? (c : Call) (tab : AlarmTable) : Option String :=
  match c.op with
  | .raise key _ => (tab.reap c.now).evicted key
  | .note code _ => tab.evicted (noteKey code c.now)
  | _ => none

/-! ## What a call should leave -/

/-- No two entries have one key. -/
def Distinct (tab : AlarmTable) : Prop :=
  ∀ i j a b, tab.at? i = some a → tab.at? j = some b → a.key = b.key → i = j

/-- Exactly one entry has the key, and it is active. -/
def Standing (tab : AlarmTable) (key : String) : Prop :=
  ∃ i a, tab.at? i = some a ∧ a.key = key ∧ a.active = true ∧
    ∀ j b, tab.at? j = some b → b.key = key → j = i

/-- Keys are distinct, a raise that obtained an entry stands, what was cleared is
over, and no other key's activity changes but that of the entry that made way. -/
structure Kept (c : Call) (tab : AlarmTable) : Prop where
  distinct : Distinct (work c tab)
  raised : ∀ key crit, c.op = .raise key crit → ((tab.reap c.now).slotFor key).isSome →
    Standing (work c tab) key
  cleared : ∀ key, c.op = .clear key → ¬Rings (work c tab) key
  others : ∀ other, c.key? ≠ some other → c.evicted? tab ≠ some other →
    (Rings (work c tab) other ↔ Rings tab other)

/-- An entry that nobody is waiting on. -/
def Droppable (a : Alarm) : Prop := a.retired = true ∨ a.active = false ∧ a.acked = true

instance (a : Alarm) : Decidable (Droppable a) := inferInstanceAs (Decidable (_ ∨ _))

/-- A raise does not have to take over another's entry: there is one for it, or
none that could make way. -/
def Roomy (c : Call) (tab : AlarmTable) : Prop :=
  match c.op with
  | .raise key _ =>
      HasRoom key c.now tab ∨ ∀ entry ∈ tab.reap c.now, ∀ a ∈ entry, ¬Droppable a
  | _ => True

instance : ∀ (c : Call) (tab : AlarmTable), Decidable (Roomy c tab)
  | ⟨.raise _ _, _⟩, _ => inferInstanceAs (Decidable (_ ∨ _))
  | ⟨.clear _, _⟩, _ | ⟨.retire _, _⟩, _ | ⟨.ack _, _⟩, _ | ⟨.ackAll, _⟩, _ | ⟨.shelve _ _, _⟩, _
  | ⟨.note _ _, _⟩, _ => Decidable.isTrue trivial

/-! ## The entry a key is given -/

section

variable {tab : AlarmTable} {i : ℕ} {key other : String} {now : ℚ}

theorem foldl_eq_none {α β : Type} {f : Option β → α → Option β} (skips : α → Prop)
    (remembers : ∀ b x, f (some b) x ≠ none) (finds : ∀ x, f none x = none → skips x)
    {l : List α} {best : Option β} (nothing : l.foldl f best = none) :
    best = none ∧ ∀ x ∈ l, skips x := by
  induction l generalizing best with
  | nil => exact ⟨nothing, nofun⟩
  | cons x rest ih =>
      obtain ⟨first, later⟩ := ih nothing
      cases best with
      | some b => exact absurd first (remembers b x)
      | none =>
          refine ⟨rfl, fun y member => ?_⟩
          rcases List.mem_cons.mp member with rfl | inside
          · exact finds _ first
          · exact later y inside

theorem oldestAcked_eq_some (found : tab.oldestAcked = some i) :
    ∃ a, tab.at? i = some a ∧ a.active = false ∧ a.acked = true := by
  obtain ⟨⟨j, ts⟩, last, rfl⟩ := Option.map_eq_some_iff.mp found
  revert last
  generalize isBest : List.foldl _ (none : Option (ℕ × ℚ)) tab.zipIdx = best
  have known : ∀ k ts, best = some (k, ts) →
      ∃ a, tab.at? k = some a ∧ a.active = false ∧ a.acked = true := by
    rw [← isBest]
    refine List.foldlRecOn (motive := fun best => ∀ k ts, best = some (k, ts) →
      ∃ a, tab.at? k = some a ∧ a.active = false ∧ a.acked = true) tab.zipIdx _ ?_ ?_
    · nofun
    rintro before known ⟨entry, place⟩ member k ts same
    have here : tab[place]? = some entry := List.mk_mem_zipIdx_iff_getElem?.mp member
    cases entry with
    | none => exact known k ts same
    | some a =>
        dsimp only at same
        split_ifs at same with waits
        · exact known k ts same
        · have isOver : a.active = false ∧ a.acked = true := by simpa using waits
          have found : tab.at? place = some a := by rw [at?, here]; rfl
          cases before with
          | none =>
              cases same
              exact ⟨a, found, isOver⟩
          | some oldest =>
              dsimp only at same
              split_ifs at same
              · cases same
                exact ⟨a, found, isOver⟩
              · exact known k ts same
  exact known j ts

theorem oldestAcked_eq_none (missing : tab.oldestAcked = none) {a : Alarm}
    (member : some a ∈ tab) : ¬(a.active = false ∧ a.acked = true) := by
  have nothing := Option.map_eq_none_iff.mp missing
  obtain ⟨place, here⟩ := List.getElem?_of_mem member
  have listed : (some a, place) ∈ tab.zipIdx := List.mk_mem_zipIdx_iff_getElem?.mpr here
  have skipped := (foldl_eq_none (fun entry : Option Alarm × ℕ =>
    ∀ a, entry.1 = some a → ¬(a.active = false ∧ a.acked = true)) ?_ ?_ nothing).2 _ listed
  · exact skipped a rfl
  · rintro ⟨k, ts⟩ ⟨_ | b, place⟩
    · nofun
    · dsimp only
      split_ifs <;> nofun
  · rintro ⟨_ | b, place⟩ same c isSome
    · cases isSome
    · cases isSome
      rintro ⟨inactive, acked⟩
      simp [inactive, acked] at same

/-- A key is given nothing exactly when it has no entry, none is unused, and none
can make way. -/
theorem slotFor_eq_none : tab.slotFor key = none ↔
    tab.find key = none ∧ tab.findIdx? Option.isNone = none ∧ ∀ a, some a ∈ tab → ¬Droppable a := by
  rw [slotFor]
  cases own : tab.find key with
  | some k => simp
  | none =>
  cases unused : tab.findIdx? Option.isNone with
  | some k => simp
  | none =>
  cases history : tab.findIdx? fun entry => entry.any (·.retired) with
  | some k =>
      simp only [reduceCtorEq, true_and, false_iff]
      intro none_
      obtain ⟨inside, retired, -⟩ := List.findIdx?_eq_some_iff_getElem.mp history
      obtain ⟨a, isEntry, isRetired⟩ := (Option.any_eq_true _ _).mp retired
      exact none_ a (isEntry ▸ List.getElem_mem inside) (Or.inl isRetired)
  | none =>
      simp only [true_and]
      constructor
      · rintro missing a member (retired | isOver)
        · have notRetired := List.findIdx?_eq_none_iff.mp history _ member
          simp [retired] at notRetired
        · exact oldestAcked_eq_none missing member isOver
      · intro none_
        cases oldest : tab.oldestAcked with
        | none => rfl
        | some k =>
            obtain ⟨a, found, isOver⟩ := oldestAcked_eq_some oldest
            exact absurd (Or.inr isOver) (none_ a (mem_of_at? found))

/-- A key is given its own entry, an unused one, or one that nobody is waiting on
when there is neither. -/
theorem slotFor_cases (found : tab.slotFor key = some i) :
    (∃ a, tab.at? i = some a ∧ a.key = key) ∨
      (tab.find key = none ∧ tab.at? i = none ∧ i < tab.length) ∨
        tab.find key = none ∧ tab.findIdx? Option.isNone = none ∧
          ∃ a, tab.at? i = some a ∧ a.key ≠ key ∧ Droppable a := by
  rw [slotFor] at found
  cases own : tab.find key with
  | some k =>
      rw [own] at found
      cases found
      exact Or.inl (find_eq_some own)
  | none =>
  rw [own] at found
  cases unused : tab.findIdx? Option.isNone with
  | some k =>
      rw [unused] at found
      cases found
      obtain ⟨inside, isNone, -⟩ := List.findIdx?_eq_some_iff_getElem.mp unused
      refine Or.inr (Or.inl ⟨rfl, ?_, inside⟩)
      rw [at?, List.getElem?_eq_getElem inside, Option.isNone_iff_eq_none.mp isNone]
      rfl
  | none =>
  rw [unused] at found
  dsimp only at found
  have dropped : ∃ a, tab.at? i = some a ∧ Droppable a := by
    cases history : tab.findIdx? fun entry => entry.any (·.retired) with
    | some k =>
        rw [history] at found
        cases found
        obtain ⟨inside, retired, -⟩ := List.findIdx?_eq_some_iff_getElem.mp history
        obtain ⟨a, isEntry, isRetired⟩ := (Option.any_eq_true _ _).mp retired
        refine ⟨a, ?_, Or.inl isRetired⟩
        rw [at?, List.getElem?_eq_getElem inside, isEntry]
        rfl
    | none =>
        rw [history] at found
        obtain ⟨a, here, isOver⟩ := oldestAcked_eq_some found
        exact ⟨a, here, Or.inr isOver⟩
  obtain ⟨a, here, droppable⟩ := dropped
  exact Or.inr (Or.inr ⟨rfl, rfl, a, here, find_eq_none own here, droppable⟩)

theorem lt_of_at? {a : Alarm} (here : tab.at? i = some a) : i < tab.length := by
  by_contra outside
  rw [at?, List.getElem?_eq_none (not_lt.mp outside)] at here
  cases here

theorem slotFor_lt (found : tab.slotFor key = some i) : i < tab.length := by
  rcases slotFor_cases found with ⟨a, here, -⟩ | ⟨-, -, inside⟩ | ⟨-, -, a, here, -⟩
  · exact lt_of_at? here
  · exact inside
  · exact lt_of_at? here

/-! ## Keys a call is not about -/

theorem at?_set_self {entry : Option Alarm} (inside : i < tab.length) :
    at? (tab.set i entry) i = entry := by
  rw [at?, List.getElem?_set_self inside]
  rfl

theorem at?_set_ne {j : ℕ} {entry : Option Alarm} (apart : i ≠ j) :
    at? (tab.set i entry) j = tab.at? j := by
  rw [at?, at?, List.getElem?_set_ne apart]

theorem rings_edit_ne {f : Alarm → Alarm} (calms : Calms f) (apart : key ≠ other) :
    Rings (tab.edit key f) other ↔ Rings tab other := by
  constructor
  · exact Rings.of_calmed (calmed_edit tab key calms)
  · rintro ⟨j, a, here, isOther, active⟩
    refine ⟨j, a, ?_, isOther, active⟩
    rw [edit]
    cases found : tab.find key with
    | none => exact here
    | some i =>
        dsimp only
        rw [at?_modify]
        split_ifs with same
        · obtain ⟨b, atKey, keyed⟩ := find_eq_some found
          subst same
          rw [here] at atKey
          cases atKey
          exact absurd (keyed.symm.trans isOther) apart
        · exact here

theorem rings_reap (sound : Sound tab) : Rings (tab.reap now) other ↔ Rings tab other := by
  constructor
  · exact Rings.of_calmed (calmed_reap tab now)
  · rintro ⟨j, a, here, isOther, active⟩
    refine ⟨j, a, ?_, isOther, active⟩
    rw [reap, at?_map _ rfl, here, Option.filter_eq_some_iff]
    refine ⟨rfl, ?_⟩
    have standing : a.retired = false := by
      cases retired : a.retired with
      | false => rfl
      | true => rw [sound.quiet j a here retired] at active; cases active
    simp [spent, standing]

/-- Writing an entry leaves the activity of a key that is neither the new one
nor, while it is active, the old one. -/
theorem rings_set {a : Alarm} (new : a.key ≠ other)
    (old : ∀ b, tab.at? i = some b → b.key = other → b.active = false) :
    Rings (tab.set i (some a)) other ↔ Rings tab other := by
  constructor
  · rintro ⟨j, b, here, isOther, active⟩
    rcases at?_set_eq_some here with ⟨-, isNew⟩ | before
    · cases isNew
      exact absurd isOther new
    · exact ⟨j, b, before, isOther, active⟩
  · rintro ⟨j, b, here, isOther, active⟩
    refine ⟨j, b, ?_, isOther, active⟩
    rw [at?_set_ne, here]
    rintro rfl
    rw [old b here isOther] at active
    cases active

theorem rings_ackAll : Rings (tab.ackAll now) other ↔ Rings tab other := by
  constructor
  · exact Rings.of_calmed (calmed_ackAll tab now)
  · rintro ⟨j, a, here, isOther, active⟩
    refine ⟨j, seenListed now a, ?_, ?_, ?_⟩
    · rw [ackAll, at?_map _ rfl, here]
      rfl
    · exact ((calms_seenListed now).key a).trans isOther
    · rw [seenListed]
      split_ifs <;> exact active

theorem evicted_eq_some : tab.evicted key = some other ↔
    other ≠ key ∧ ∃ i a, tab.slotFor key = some i ∧ tab.at? i = some a ∧ a.key = other := by
  simp only [evicted, Option.filter_eq_some_iff, Option.map_eq_some_iff, Option.bind_eq_some_iff,
    ne_eq, decide_not, Bool.not_eq_true', decide_eq_false_iff_not]
  constructor
  · rintro ⟨⟨a, ⟨i, found, here⟩, same⟩, apart⟩
    exact ⟨apart, i, a, found, here, same⟩
  · rintro ⟨apart, i, a, found, here, same⟩
    exact ⟨⟨a, ⟨i, found, here⟩, same⟩, apart⟩

theorem rings_raise_ne {crit : Crit} (sound : Sound tab) (apart : key ≠ other)
    (stays : (tab.reap now).evicted key ≠ some other) :
    Rings (tab.raise key crit now).2 other ↔ Rings tab other := by
  cases found : (tab.reap now).slotFor key with
  | none =>
      rw [raise, found]
      exact rings_reap sound
  | some i =>
      obtain ⟨a, eq, -, keyed⟩ := raise_eq crit found
      have unlike : ∀ b, (tab.reap now).at? i = some b → b.key ≠ other := by
        rintro b here rfl
        exact stays (evicted_eq_some.mpr ⟨Ne.symm apart, i, b, found, here, rfl⟩)
      rw [eq, rings_set ?_ (fun b here isOther => absurd isOther (unlike b here)),
        rings_reap sound]
      rw [keyed]
      cases here : (tab.reap now).at? i with
      | none => exact apart
      | some b => exact unlike b here

theorem rings_note_ne {crit : Crit} (sound : Sound tab) (apart : key ≠ other) :
    Rings (tab.note key crit now) other ↔ Rings tab other := by
  rw [note]
  cases found : tab.slotFor key with
  | none => exact Iff.rfl
  | some i =>
      refine rings_set apart ?_
      rintro b here rfl
      rcases slotFor_cases found with ⟨c, own, same⟩ | ⟨-, unused, -⟩ | ⟨-, -, c, own, -, dropped⟩
      · rw [here] at own
        cases own
        exact absurd same (Ne.symm apart)
      · rw [here] at unused
        cases unused
      · rw [here] at own
        cases own
        rcases dropped with retired | isOver
        · exact sound.quiet i b here retired
        · exact isOver.1

theorem isSome_find {a : Alarm} (here : tab.at? i = some a) (isKey : a.key = key) :
    (tab.find key).isSome := by
  by_contra missing
  exact find_eq_none (Option.not_isSome_iff_eq_none.mp missing) here isKey

theorem isSome_unused (unused : tab.at? i = none) (inside : i < tab.length) :
    (tab.findIdx? Option.isNone).isSome := by
  by_contra full
  have used := List.findIdx?_eq_none_iff.mp (Option.not_isSome_iff_eq_none.mp full) _
    (List.getElem_mem inside)
  rw [at?, List.getElem?_eq_getElem inside] at unused
  change tab[i] = none at unused
  rw [unused] at used
  cases used

end

/-! ## Runs -/

theorem sound_edit {tab : AlarmTable} {key : String} {f : Alarm → Alarm} (sound : Sound tab)
    (calms : Calms f) : Sound (tab.edit key f) :=
  sound.calmed (calmed_edit tab key calms)

theorem Sound.work {tab : AlarmTable} (sound : Sound tab) (c : Call) : Sound (work c tab) := by
  obtain ⟨op, now⟩ := c
  cases op with
  | raise key crit => exact sound.raise
  | clear key => exact sound_edit sound (calms_over now)
  | retire key => exact sound_edit sound (calms_gone now)
  | ack key => exact sound_edit sound (calms_seen now)
  | ackAll => exact sound.calmed (calmed_ackAll tab now)
  | shelve key seconds => exact sound_edit sound (calms_hushed seconds now)
  | note code crit => exact sound.note

theorem rings_work_ne {c : Call} {tab : AlarmTable} {other : String} (sound : Sound tab)
    (apart : c.key? ≠ some other) (stays : c.evicted? tab ≠ some other) :
    Rings (work c tab) other ↔ Rings tab other := by
  obtain ⟨op, now⟩ := c
  have unlike {key : String} (about : some key ≠ some other) : key ≠ other :=
    fun same => about (congrArg some same)
  cases op with
  | raise key crit => exact rings_raise_ne sound (unlike apart) stays
  | clear key => exact rings_edit_ne (calms_over now) (unlike apart)
  | retire key => exact rings_edit_ne (calms_gone now) (unlike apart)
  | ack key => exact rings_edit_ne (calms_seen now) (unlike apart)
  | ackAll => exact rings_ackAll
  | shelve key seconds => exact rings_edit_ne (calms_hushed seconds now) (unlike apart)
  | note code crit => exact rings_note_ne sound (unlike apart)

theorem activate_active (now : ℚ) (a : Alarm) : (activate now a).active = true := by
  rw [activate]
  simp only
  split_ifs <;> rfl

theorem raise_active {tab : AlarmTable} {key : String} {now : ℚ} {i : ℕ} (crit : Crit)
    (found : (tab.reap now).slotFor key = some i) :
    ∃ a, (tab.raise key crit now).2.at? i = some a ∧ a.active = true ∧
      a.key = (((tab.reap now).at? i).map Alarm.key).getD key := by
  rw [raise, found]
  refine ⟨_, at?_set_self (slotFor_lt found), ?_, ?_⟩
  · simp only
    split_ifs with active
    · exact active
    · exact activate_active now _
  · simp only
    split_ifs
    · cases (tab.reap now).at? i <;> rfl
    · rw [activate_key]
      cases (tab.reap now).at? i <;> rfl

theorem standing_raise_iff {tab : AlarmTable} {key : String} {crit : Crit} {now : ℚ} {i : ℕ}
    (sound : Sound tab) (found : (tab.reap now).slotFor key = some i) :
    Standing (tab.raise key crit now).2 key ↔ HasRoom key now tab := by
  obtain ⟨a, here, active, keyed⟩ := raise_active crit found
  have after : Sound (tab.raise key crit now).2 := sound.raise
  constructor
  · rintro ⟨j, b, there, isKey, -, only⟩
    rcases slotFor_cases found with ⟨c, own, same⟩ | ⟨-, unused, inside⟩ |
      ⟨missing, full, c, other, apart, -⟩
    · exact Or.inl (isSome_find own same)
    · exact Or.inr (isSome_unused unused inside)
    · -- the entry keeps the name it had, and no other is given the key
      exfalso
      obtain ⟨d, eq, -, keyed⟩ := raise_eq crit found
      rw [eq] at there
      rcases at?_set_eq_some there with ⟨-, isNew⟩ | before
      · cases isNew
        rw [keyed, other] at isKey
        exact apart isKey
      · exact find_eq_none missing before isKey
  · intro room
    have isKey : a.key = key := by
      rw [keyed]
      rcases slotFor_cases found with ⟨c, own, same⟩ | ⟨-, unused, -⟩ | ⟨missing, full, -⟩
      · rw [own]
        exact same
      · rw [unused]
        rfl
      · rcases room with own | unused
        · rw [missing] at own
          cases own
        · rw [full] at unused
          cases unused
    exact ⟨i, a, here, isKey, active,
      fun j b there same => after.unique j i b a there here (same.trans isKey.symm)⟩

theorem kept_iff {c : Call} {tab : AlarmTable} (sound : Sound tab) : Kept c tab ↔ Roomy c tab := by
  obtain ⟨op, now⟩ := c
  constructor
  · intro kept
    cases op with
    | raise key crit =>
        cases found : (tab.reap now).slotFor key with
        | none =>
            right
            rintro entry member a isSome
            cases isSome
            exact (slotFor_eq_none.mp found).2.2 a member
        | some i =>
            left
            apply (standing_raise_iff sound found).mp
            exact kept.raised key crit rfl (by rw [found]; rfl)
    | _ => trivial
  · intro roomy
    refine ⟨(sound.work ⟨op, now⟩).unique, ?_, ?_, ?_⟩
    · rintro key crit rfl obtained
      obtain ⟨i, found⟩ := Option.isSome_iff_exists.mp obtained
      apply (standing_raise_iff sound found).mpr
      rcases roomy with room | none_
      · exact room
      · rcases slotFor_cases found with ⟨a, own, same⟩ | ⟨-, unused, inside⟩ |
          ⟨-, -, a, here, -, dropped⟩
        · exact Or.inl (isSome_find own same)
        · exact Or.inr (isSome_unused unused inside)
        · exact absurd dropped (none_ (some a) (mem_of_at? here) a rfl)
    · rintro key rfl rings
      exact (Rings.of_clear sound rings).2 rfl
    · intro other apart stays
      exact rings_work_ne sound apart stays

/-- Every call of a run from an empty table leaves what it should exactly when no
raise has to take over another's entry. -/
theorem alarms_kept (calls : List Call) :
    Along work Kept calls init ↔ Along work Roomy calls init := by
  have each : ∀ c tab, Sound tab → (Kept c tab ↔ Roomy c tab) := fun c tab => kept_iff
  constructor
  · exact Along.strengthen Sound (fun c tab sound _ => sound.work c)
      (fun c tab sound => (each c tab sound).mp) sound_init
  · exact Along.strengthen Sound (fun c tab sound _ => sound.work c)
      (fun c tab sound => (each c tab sound).mpr) sound_init

/-- Every entry holds what is left of a condition that came and went. -/
def benchCrowd : List Call :=
  (List.range alarmsMax).flatMap fun i =>
    [⟨.raise (toString i) .info, 1⟩, ⟨.clear (toString i), 2⟩]

/-- What is left of a condition that came and went. -/
def past (key : String) : Alarm := ⟨key, .info, false, true, false, true, 1, 2, 0, 1, 1, 0⟩

/-- A table that holds what is left of these conditions. -/
def pasts (done : List String) : AlarmTable := Slots.filled (done.map past) alarmsMax

theorem mem_pasts {done : List String} {a : Alarm} (inside : some a ∈ pasts done) :
    ∃ key ∈ done, a = past key := by
  rcases List.mem_append.mp inside with used | unused
  · obtain ⟨b, among, same⟩ := List.mem_map.mp used
    obtain ⟨key, known, rfl⟩ := List.mem_map.mp among
    exact ⟨key, known, (Option.some.inj same).symm⟩
  · exact nomatch (List.mem_replicate.mp unused).2

theorem find_pasts {key : String} {done : List String} (new : key ∉ done) :
    (pasts done).find key = none := by
  refine List.findIdx?_eq_none_iff.mpr fun entry member => ?_
  cases entry with
  | none => rfl
  | some a =>
      obtain ⟨k, known, rfl⟩ := mem_pasts member
      have apart : k ≠ key := fun same => new (same ▸ known)
      simpa [past] using apart

theorem reap_pasts {now : ℚ} (soon : now ≤ 1000) (done : List String) :
    (pasts done).reap now = pasts done := by
  refine (List.map_congr_left fun entry member => ?_).trans (List.map_id _)
  cases entry with
  | none => rfl
  | some a =>
      obtain ⟨k, known, rfl⟩ := mem_pasts member
      have young : ¬chatterWindow * 2 < now - 2 := by
        norm_num [chatterWindow]
        linarith
      simp [spent, past, young]

theorem modify_set {α : Type} (f : α → α) (l : List α) (i : ℕ) (a : α) :
    (l.set i a).modify i f = l.set i (f a) := by
  induction l generalizing i with
  | nil => simp
  | cons b l ih => cases i <;> simp [ih]

/-- A condition that comes and goes takes the next unused entry. -/
theorem work_pasts {key : String} {done : List String} (new : key ∉ done)
    (room : done.length < alarmsMax) :
    run work [⟨.raise key .info, 1⟩, ⟨.clear key, 2⟩] (pasts done) = pasts (done ++ [key]) := by
  have few : (done.map past).length < alarmsMax := by rwa [List.length_map]
  have free := Slots.free?_filled few
  have slot : (pasts done).slotFor key = some (done.map past).length := by
    rw [Slots.free?] at free
    rw [slotFor, find_pasts new, pasts, free]
  have unused : (pasts done).at? (done.map past).length = none := (Slots.free?_eq_some free).2
  have inside := (Slots.free?_eq_some free).1
  let a := activate 1 (blank key 1)
  have raised : work ⟨.raise key .info, 1⟩ (pasts done) =
      (pasts done).set (done.map past).length (some a) := by
    simp only [work, raise, reap_pasts (by norm_num : (1 : ℚ) ≤ 1000), slot, unused]
    rfl
  have here : (work ⟨.raise key .info, 1⟩ (pasts done)).at? (done.map past).length = some a := by
    rw [raised]
    exact at?_set_self inside
  have found : (work ⟨.raise key .info, 1⟩ (pasts done)).find key = some (done.map past).length := by
    refine Slots.first?_eq (t := work ⟨.raise key .info, 1⟩ (pasts done)) here ?_ ?_
    · simp [a, activate_key, blank]
    · intro j b before there
      rw [raised, Slots.at?_set_ne before.ne'] at there
      obtain ⟨k, known, rfl⟩ := mem_pasts (mem_of_at? there)
      have apart : k ≠ key := fun same => new (same ▸ known)
      simpa [past] using apart
  have left : isOver 2 a = past key := by
    norm_num [a, isOver, activate, blank, past, chatterWindow, chatterRaises]
  rw [run_cons, run_cons, run_nil]
  change clear key 2 (work ⟨.raise key .info, 1⟩ (pasts done)) = _
  rw [clear, edit, found]
  simp only [raised]
  rw [modify_set, Option.map_some, left]
  refine (Slots.set_filled few _).trans ?_
  rw [pasts, List.map_append]
  rfl

theorem run_pasts {keys done : List String} (apart : (done ++ keys).Nodup)
    (room : (done ++ keys).length ≤ alarmsMax) :
    run work (keys.flatMap fun key => [⟨.raise key .info, 1⟩, ⟨.clear key, 2⟩]) (pasts done) =
      pasts (done ++ keys) := by
  induction keys generalizing done with
  | nil => rw [List.append_nil]; rfl
  | cons key rest ih =>
      rw [List.append_cons] at apart room ⊢
      have new : key ∉ done := by
        intro inside
        exact (List.nodup_append.mp (List.nodup_append.mp apart).1).2.2 key inside key
          List.mem_cons_self rfl
      rw [List.flatMap_cons, run_append, work_pasts new ?_, ih apart room]
      simp only [List.length_append, List.length_singleton] at room
      omega

theorem run_benchCrowd :
    run work benchCrowd init = pasts ((List.range alarmsMax).map toString) := by
  have read (n : ℕ) : Nat.ofDigitChars 10 (toString n).toList 0 = n := by
    change Nat.ofDigitChars 10 n.repr.toList 0 = n
    rw [Nat.toList_repr, Nat.ofDigitChars_toDigits (by decide) (by decide)]
  have apart : ((List.range alarmsMax).map toString).Nodup := by
    refine List.nodup_range.map fun a b same => ?_
    rw [← read a, same, read]
  have room : ((List.range alarmsMax).map toString).length ≤ alarmsMax := by
    rw [List.length_map, List.length_range]
  have ran := @run_pasts ((List.range alarmsMax).map toString) [] apart room
  rw [List.flatMap_map] at ran
  exact ran

/-- With the table full of history, a new alarm is raised under an old name. -/
theorem raised_under_another_name :
    ¬∀ calls : List Call, Along work Kept calls init := by
  intro kept
  have last := (along_append.mp (kept (benchCrowd ++ [⟨.raise "late" .critical, 3⟩]))).2.1
  have sound : Sound (run work benchCrowd init) :=
    run_invariant Sound (fun c tab sound => sound.work c) sound_init
  rw [run_benchCrowd] at last sound
  have reaped := reap_pasts (by norm_num : (3 : ℚ) ≤ 1000) ((List.range alarmsMax).map toString)
  rcases (kept_iff sound).mp last with (own | unused) | none_
  · rw [reaped, find_pasts (by decide)] at own
    cases own
  · rw [reaped] at unused
    cases unused
  · have first : some (past "0") ∈ pasts ((List.range alarmsMax).map toString) :=
      List.mem_cons_self
    rw [← reaped] at first
    exact none_ _ first _ rfl (Or.inr ⟨rfl, rfl⟩)

end AlarmTable

end PiFire.Rules
