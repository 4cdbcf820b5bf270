import PiFire.Rules.Table

/-!
# What nobody has read yet

An alarm that mattered stays listed until it is acknowledged or retired, and
every notice is given an entry of its own. The runs are watched: a ledger keeps
the keys that are owed to the reader, whatever the table does with them.
-/

namespace PiFire.Rules

open Transition

namespace AlarmTable

/-- High and critical alarms matter. -/
def Urgent (a : Alarm) : Prop := a.crit = .high ∨ a.crit = .critical

instance (a : Alarm) : Decidable (Urgent a) := inferInstanceAs (Decidable (_ ∨ _))

/-- An entry that is listed and that nobody has acknowledged. -/
def Waiting (a : Alarm) : Prop := a.retired = false ∧ a.acked = false

instance (a : Alarm) : Decidable (Waiting a) := inferInstanceAs (Decidable (_ ∧ _))

/-- The entry with a key waits to be read. -/
def Waits (tab : AlarmTable) (key : String) : Prop :=
  ∃ i a, tab.at? i = some a ∧ a.key = key ∧ Waiting a

/-- What happens to the table: a call, or the rules are loaded again. -/
inductive Event where
  | call (c : Call)
  | reload

/-- The table, and the keys that once mattered and were neither acknowledged nor
retired since. -/
structure Reader where
  tab : AlarmTable
  owed : List String

/-- Nothing has happened. -/
def Reader.start : Reader := ⟨init, []⟩

/-- Whether a call acknowledges or retires a key. -/
def Call.settles (c : Call) (key : String) : Bool :=
  match c.op with
  | .retire other | .ack other | .shelve other _ => other = key
  | .ackAll => true
  | _ => false

def Event.settles : Event → String → Bool
  | .call c, key => c.settles key
  | .reload, _ => false

def Event.work : Event → AlarmTable → AlarmTable
  | .call c, tab => AlarmTable.work c tab
  | .reload, _ => init

/-- The keys of the entries that matter and wait to be read. -/
def urgentKeys (tab : AlarmTable) : List String :=
  (tab.filterMap fun entry => entry.filter fun a => Urgent a ∧ Waiting a).map Alarm.key

def read (e : Event) (s : Reader) : Reader where
  tab := e.work s.tab
  owed := s.owed.filter (fun key => !e.settles key) ++ urgentKeys (e.work s.tab)

/-- A notice has an entry of its own: one that nobody else was waiting on, with
every other entry left as it was. -/
def Noted (code : String) (crit : Crit) (now : ℚ) (before after : AlarmTable) : Prop :=
  ∃ i a, after.at? i = some a ∧ a.key = noteKey code now ∧ a.notice = true ∧ a.crit = crit ∧
    a.raisedTs = now ∧ Waiting a ∧ (∀ b, before.at? i = some b → Droppable b) ∧
      ∀ j, j ≠ i → after.at? j = before.at? j

/-- Everything owed waits to be read, and a notice has an entry of its own. -/
structure Remembers (e : Event) (s : Reader) : Prop where
  owed : ∀ key ∈ (read e s).owed, Waits (read e s).tab key
  noted : ∀ code crit now, e = .call ⟨.note code crit, now⟩ →
    Noted code crit now s.tab (read e s).tab

/-- A notice has a key that no standing entry has, and there is an entry for it;
what is cleared and was owed still matters; and the rules are loaded again only
when nothing is owed. -/
def Spares (e : Event) (s : Reader) : Prop :=
  match e with
  | .call ⟨.note code _, now⟩ =>
      (∀ entry ∈ s.tab, ∀ a ∈ entry, a.key = noteKey code now → Droppable a) ∧
        ∃ entry ∈ s.tab, ∀ a ∈ entry, Droppable a
  | .call ⟨.clear key, _⟩ =>
      ∀ entry ∈ s.tab, ∀ a ∈ entry,
        a.key = key ∧ a.active = true ∧ a.acked = false ∧ key ∈ s.owed → Urgent a
  | .reload => s.owed = []
  | _ => True

instance : ∀ (e : Event) (s : Reader), Decidable (Spares e s)
  | .call ⟨.note _ _, _⟩, _ => inferInstanceAs (Decidable (_ ∧ _))
  | .call ⟨.clear _, _⟩, s => inferInstanceAs (Decidable (∀ entry ∈ s.tab, _))
  | .reload, _ => inferInstanceAs (Decidable (_ = _))
  | .call ⟨.raise _ _, _⟩, _ | .call ⟨.retire _, _⟩, _ | .call ⟨.ack _, _⟩, _
  | .call ⟨.ackAll, _⟩, _ | .call ⟨.shelve _ _, _⟩, _ => Decidable.isTrue trivial

section

variable {tab : AlarmTable} {i : ℕ} {key other : String} {now : ℚ} {a : Alarm}

theorem not_waiting_of_droppable (dropped : Droppable a) : ¬Waiting a := by
  rintro ⟨listed, unread⟩
  rcases dropped with retired | ⟨-, acked⟩
  · rw [listed] at retired
    cases retired
  · rw [unread] at acked
    cases acked

theorem at?_edit_ne {f : Alarm → Alarm} (here : tab.at? i = some a) (apart : a.key ≠ key) :
    (tab.edit key f).at? i = some a := by
  rw [edit]
  cases found : tab.find key with
  | none => exact here
  | some k =>
      dsimp only
      rw [at?_modify]
      split_ifs with same
      · subst same
        obtain ⟨b, atKey, keyed⟩ := find_eq_some found
        rw [here] at atKey
        cases atKey
        exact absurd keyed apart
      · exact here

theorem at?_edit_self {f : Alarm → Alarm} (sound : Sound tab) (here : tab.at? i = some a)
    (isKey : a.key = key) : (tab.edit key f).at? i = some (f a) := by
  rw [edit]
  cases found : tab.find key with
  | none => exact absurd isKey (find_eq_none found here)
  | some k =>
      obtain ⟨b, atKey, keyed⟩ := find_eq_some found
      obtain rfl := sound.unique k i b a atKey here (keyed.trans isKey.symm)
      dsimp only
      rw [at?_modify, if_pos rfl, here]
      rfl

theorem Waits.edit_ne {f : Alarm → Alarm} (waits : Waits tab other) (apart : other ≠ key) :
    Waits (tab.edit key f) other := by
  obtain ⟨i, a, here, isOther, waiting⟩ := waits
  exact ⟨i, a, at?_edit_ne here (isOther.trans_ne apart), isOther, waiting⟩

theorem at?_reap (now : ℚ) (here : tab.at? i = some a) (listed : a.retired = false) :
    (tab.reap now).at? i = some a := by
  rw [reap, at?_map _ rfl, here, Option.filter_eq_some_iff]
  exact ⟨rfl, by simp [spent, listed]⟩

theorem Waits.set {entry : Option Alarm} (waits : Waits tab key)
    (idle : ∀ b, tab.at? i = some b → b.key = key → ¬Waiting b) :
    Waits (tab.set i entry) key := by
  obtain ⟨j, a, here, isKey, waiting⟩ := waits
  refine ⟨j, a, ?_, isKey, waiting⟩
  rw [at?_set_ne, here]
  rintro rfl
  exact idle a here isKey waiting

theorem activate_acked (a : Alarm) : (activate now a).acked = false := by
  rw [activate]
  simp only
  split_ifs <;> rfl

theorem Waits.raise {crit : Crit} (sound : Sound tab) (waits : Waits tab other) :
    Waits (tab.raise key crit now).2 other := by
  have reaped := sound.calmed (calmed_reap tab now)
  obtain ⟨j, a, here, isOther, waiting⟩ := waits
  have still := at?_reap now here waiting.1
  rw [AlarmTable.raise]
  cases found : (tab.reap now).slotFor key with
  | none => exact ⟨j, a, still, isOther, waiting⟩
  | some i =>
      dsimp only
      by_cases same : i = j
      · subst same
        refine ⟨i, _, at?_set_self (slotFor_lt found), ?_, ?_⟩
        · rw [still, Option.getD_some]
          split_ifs
          · exact isOther
          · exact (activate_key _).trans isOther
        · rw [still, Option.getD_some]
          split_ifs
          · exact ⟨rfl, waiting.2⟩
          · exact ⟨activate_retired _, activate_acked _⟩
      · exact ⟨j, a, (at?_set_ne same).trans still, isOther, waiting⟩

theorem Waits.note {crit : Crit} (waits : Waits tab other) (apart : other ≠ key) :
    Waits (tab.note key crit now) other := by
  rw [AlarmTable.note]
  cases found : tab.slotFor key with
  | none => exact waits
  | some i =>
      refine waits.set ?_
      rintro b here rfl
      rcases slotFor_cases found with ⟨c, own, same⟩ | ⟨-, unused, -⟩ | ⟨-, -, c, own, -, dropped⟩
      · rw [here] at own
        cases own
        exact absurd same apart
      · rw [here] at unused
        cases unused
      · rw [here] at own
        cases own
        exact not_waiting_of_droppable dropped

theorem Waits.work {c : Call} (sound : Sound tab) (waits : Waits tab other)
    (unsettled : c.settles other = false)
    (matters : ∀ key, c.op = .clear key → ∀ i a, tab.at? i = some a → a.key = key →
      key = other → a.active = true → Urgent a)
    (apart : ∀ code crit, c.op = .note code crit → other ≠ noteKey code c.now) :
    Waits (work c tab) other := by
  obtain ⟨op, now⟩ := c
  cases op with
  | raise key crit => exact waits.raise sound
  | clear key =>
      by_cases same : other = key
      · subst same
        obtain ⟨i, a, here, isKey, waiting⟩ := waits
        have urgent := matters other rfl i a here isKey rfl
        refine ⟨i, isOver now a, at?_edit_self sound here isKey,
          ((calms_over now).key a).trans isKey, ?_⟩
        rw [isOver]
        split_ifs with active
        · rcases urgent active with high | critical
          · simpa [Waiting, high] using waiting
          · simpa [Waiting, critical] using waiting
        · exact waiting
      · exact waits.edit_ne same
  | retire key => exact waits.edit_ne (Ne.symm (of_decide_eq_false unsettled))
  | ack key => exact waits.edit_ne (Ne.symm (of_decide_eq_false unsettled))
  | ackAll => cases unsettled
  | shelve key seconds => exact waits.edit_ne (Ne.symm (of_decide_eq_false unsettled))
  | note code crit => exact waits.note (apart code crit rfl)

end

section

variable {tab : AlarmTable} {code : String} {crit : Crit} {now : ℚ}

theorem noted_iff (sound : Sound tab) :
    Noted code crit now tab (tab.note (noteKey code now) crit now) ↔
      (∀ entry ∈ tab, ∀ a ∈ entry, a.key = noteKey code now → Droppable a) ∧
        ∃ entry ∈ tab, ∀ a ∈ entry, Droppable a := by
  have after : Sound (tab.note (noteKey code now) crit now) := sound.note
  constructor
  · rintro ⟨i, a, here, isKey, -, -, -, waiting, dropped, -⟩
    rw [note] at here after
    cases found : tab.slotFor (noteKey code now) with
    | none =>
        rw [found] at here
        exact absurd waiting (not_waiting_of_droppable (dropped a here))
    | some k =>
        rw [found] at here after
        have inside := slotFor_lt found
        have new : at? (tab.set k (some { blank (noteKey code now) 0 with
            crit := crit, notice := true, raisedTs := now })) k = _ := at?_set_self inside
        obtain rfl := after.unique k i _ a new here isKey.symm
        constructor
        · rintro entry member b isSome keyed
          cases isSome
          obtain ⟨j, there⟩ := List.getElem?_of_mem member
          have at_ : tab.at? j = some b := by rw [at?, there]; rfl
          rcases slotFor_cases found with ⟨c, own, same⟩ | ⟨missing, -⟩ | ⟨missing, -⟩
          · obtain rfl := sound.unique k j c b own at_ (same.trans keyed.symm)
            exact dropped b at_
          · exact absurd keyed (find_eq_none missing at_)
          · exact absurd keyed (find_eq_none missing at_)
        · refine ⟨tab[k], List.getElem_mem inside, fun b isSome => dropped b ?_⟩
          rw [at?, List.getElem?_eq_getElem inside, isSome]
          rfl
  · rintro ⟨free, entry, member, room⟩
    cases found : tab.slotFor (noteKey code now) with
    | none =>
        obtain ⟨-, full, none_⟩ := slotFor_eq_none.mp found
        exfalso
        cases entry with
        | none =>
            have used := List.findIdx?_eq_none_iff.mp full _ member
            cases used
        | some b => exact none_ b member (room b rfl)
    | some k =>
        rw [note, found]
        refine ⟨k, _, at?_set_self (slotFor_lt found), rfl, rfl, rfl, rfl, ⟨rfl, rfl⟩, ?_,
          fun j apart => at?_set_ne (Ne.symm apart)⟩
        intro b here
        rcases slotFor_cases found with ⟨c, own, same⟩ | ⟨-, unused, -⟩ | ⟨-, -, c, own, -, dropped⟩
        · rw [here] at own
          cases own
          exact free (some b) (mem_of_at? here) b rfl same
        · rw [here] at unused
          cases unused
        · rw [here] at own
          cases own
          exact dropped

end

/-- The table is sound, and everything owed waits to be read. -/
structure Honest (s : Reader) : Prop where
  sound : Sound s.tab
  owed : ∀ key ∈ s.owed, Waits s.tab key

theorem mem_urgentKeys {tab : AlarmTable} {key : String} :
    key ∈ urgentKeys tab ↔ ∃ a, some a ∈ tab ∧ a.key = key ∧ Urgent a ∧ Waiting a := by
  simp only [urgentKeys, List.mem_map, List.mem_filterMap, Option.filter_eq_some_iff,
    decide_eq_true_eq]
  constructor
  · rintro ⟨a, ⟨entry, member, rfl, matters⟩, isKey⟩
    exact ⟨a, member, isKey, matters⟩
  · rintro ⟨a, member, isKey, matters⟩
    exact ⟨a, ⟨some a, member, rfl, matters⟩, isKey⟩

theorem waits_of_urgent {tab : AlarmTable} {key : String} (matters : key ∈ urgentKeys tab) :
    Waits tab key := by
  obtain ⟨a, member, isKey, -, waiting⟩ := mem_urgentKeys.mp matters
  obtain ⟨i, here⟩ := List.getElem?_of_mem member
  exact ⟨i, a, by rw [at?, here]; rfl, isKey, waiting⟩

theorem mem_owed_read {e : Event} {s : Reader} {key : String} :
    key ∈ (read e s).owed ↔
      (key ∈ s.owed ∧ e.settles key = false) ∨ key ∈ urgentKeys (e.work s.tab) := by
  simp [read]

theorem Sound.event {tab : AlarmTable} (sound : Sound tab) (e : Event) : Sound (e.work tab) := by
  cases e with
  | call c => exact sound.work c
  | reload => exact sound_init

theorem waits_of_spares {e : Event} {s : Reader} (honest : Honest s) (spares : Spares e s)
    {key : String} (owed : key ∈ s.owed) (unsettled : e.settles key = false) :
    Waits (e.work s.tab) key := by
  have waits := honest.owed key owed
  cases e with
  | reload =>
      rw [show s.owed = [] from spares] at owed
      cases owed
  | call c =>
      refine waits.work honest.sound unsettled ?_ ?_
      · rintro _ op i a here isKey rfl active
        obtain ⟨_, now⟩ := c
        cases op
        obtain ⟨j, b, there, same, waiting⟩ := waits
        obtain rfl := honest.sound.unique i j a b here there (isKey.trans same.symm)
        rw [here] at there
        cases there
        exact spares (some a) (mem_of_at? here) a rfl ⟨isKey, active, waiting.2, owed⟩
      · rintro code crit op rfl
        obtain ⟨_, now⟩ := c
        cases op
        obtain ⟨j, b, there, same, waiting⟩ := waits
        exact not_waiting_of_droppable (spares.1 (some b) (mem_of_at? there) b rfl same) waiting

theorem remembers_iff {e : Event} {s : Reader} (honest : Honest s) :
    Remembers e s ↔ Spares e s := by
  constructor
  · intro remembers
    match e with
    | .call ⟨.note code crit, now⟩ =>
        exact (noted_iff honest.sound).mp (remembers.noted code crit now rfl)
    | .call ⟨.clear key, now⟩ =>
        rintro entry member a isSome ⟨isKey, active, unread, owed⟩
        cases isSome
        by_contra light
        obtain ⟨i, there⟩ := List.getElem?_of_mem member
        have here : s.tab.at? i = some a := by rw [at?, there]; rfl
        obtain ⟨j, b, after, same, waiting⟩ :=
          remembers.owed key (mem_owed_read.mpr (Or.inl ⟨owed, rfl⟩))
        have cleared := at?_edit_self (f := isOver now) honest.sound here isKey
        have unique := (honest.sound.event (.call ⟨.clear key, now⟩)).unique i j _ b cleared after
          (((calms_over now).key a).trans (isKey.trans same.symm))
        subst unique
        rw [show (read (.call ⟨.clear key, now⟩) s).tab.at? i = some (isOver now a) from cleared]
          at after
        cases after
        have gone : (isOver now a).retired = true := by
          cases level : a.crit with
          | high => exact absurd (Or.inl level) light
          | critical => exact absurd (Or.inr level) light
          | info => simp [isOver, active, level]
          | normal => simp [isOver, active, level]
        exact Bool.noConfusion (gone.symm.trans waiting.1)
    | .reload =>
        rw [Spares, List.eq_nil_iff_forall_not_mem]
        intro key owed
        obtain ⟨i, a, here, -⟩ := remembers.owed key (mem_owed_read.mpr (Or.inl ⟨owed, rfl⟩))
        have unused := List.eq_of_mem_replicate (mem_of_at? here)
        cases unused
    | .call ⟨.raise _ _, _⟩ | .call ⟨.retire _, _⟩ | .call ⟨.ack _, _⟩ | .call ⟨.ackAll, _⟩
    | .call ⟨.shelve _ _, _⟩ => trivial
  · intro spares
    constructor
    · intro key owed
      rcases mem_owed_read.mp owed with ⟨before, unsettled⟩ | matters
      · exact waits_of_spares honest spares before unsettled
      · exact waits_of_urgent matters
    · rintro code crit now rfl
      exact (noted_iff honest.sound).mpr spares

theorem Honest.read {e : Event} {s : Reader} (honest : Honest s) (remembers : Remembers e s) :
    Honest (read e s) where
  sound := honest.sound.event e
  owed := remembers.owed

theorem honest_start : Honest .start where
  sound := sound_init
  owed := nofun

/-- Along a run from an empty table everything that matters waits until it is
acknowledged or retired, and every notice has an entry of its own, exactly when
every event spares what it finds. -/
theorem unread_remembered (events : List Event) :
    Along read Remembers events .start ↔ Along read Spares events .start := by
  constructor
  · exact Along.strengthen Honest (fun e s honest remembers => honest.read remembers)
      (fun e s honest => (remembers_iff honest).mp) honest_start
  · exact Along.strengthen Honest
      (fun e s honest spares => honest.read ((remembers_iff honest).mpr spares))
      (fun e s honest => (remembers_iff honest).mpr) honest_start

/-- Of two notices with one code in one second the second takes the entry of the
first. -/
theorem notice_overwritten :
    ¬∀ events : List Event, Along read Remembers events .start := by
  intro remembered
  have both := remembered
    [.call ⟨.note "Tune_Done" .critical, 1001 / 10⟩, .call ⟨.note "Tune_Done" .critical, 1003 / 10⟩]
  have honest := honest_start.read both.1
  have taken : ¬Spares (.call ⟨.note "Tune_Done" .critical, 1003 / 10⟩)
      (read (.call ⟨.note "Tune_Done" .critical, 1001 / 10⟩) .start) := by
    decide +kernel
  exact taken ((remembers_iff honest).mp both.2.1)

end AlarmTable

end PiFire.Rules
