import PiFire.Rules.Unread
import PiFire.Rules.Watch

/-!
# Shelved alarms

A shelf silences the entry of an alarm until it ends. A ledger keeps the end of
every key's shelf, whatever becomes of its entry, and the announcements of the
rule engine are held against it, turn by turn and between the ticks.
-/

namespace PiFire.Rules

open Transition

/-! ## The moves of a run -/

/-- One turn of a tick, or work on the alarm table between the ticks. -/
inductive Move where
  | turn (t : Tick) (what : Turn)
  | desk (wall : ℚ) (work : Desk)

/-- The moves a run makes from an engine. -/
def moves : List Input → Engine → List Move
  | [], _ => []
  | .tick t :: rest, s => (turns t s).map (Move.turn t) ++ moves rest (tick t s)
  | .desk wall work :: rest, s =>
      .desk wall work :: moves rest ⟨s.slots, work.work wall s.alarms⟩

/-- The engine, the end of the shelf of each key, and the wall clock. -/
structure Hall where
  engine : Engine
  shelf : String → ℚ
  clock : ℚ

/-- Nothing is shelved. -/
def Hall.start : Hall := ⟨.init, fun _ => 0, 0⟩

namespace Move

def wall : Move → ℚ
  | turn t _ => t.wall
  | desk wall _ => wall

def engine (m : Move) (s : Engine) : Engine :=
  match m with
  | turn t what => (take t what s).engine
  | desk wall work => ⟨s.slots, work.work wall s.alarms⟩

/-- The key a move announces, if it announces one. -/
def announces (m : Move) (s : Engine) : Option String :=
  match m with
  | turn t what => if (take t what s).sent then some (take t what s).key else none
  | desk wall (.raise key crit) => if (s.alarms.raise key crit wall).1 then some key else none
  | desk _ _ => none

end Move

/-- How long the entry of a key is silenced. -/
def AlarmTable.shelfOf (tab : AlarmTable) (key : String) : ℚ :=
  (((tab.find key).bind tab.at?).map Alarm.shelvedUntil).getD 0

/-- The end of a key's shelf after a move. A shelf that is put up anew ends when
the new one does; otherwise it ends no sooner than it did. -/
def shelfAfter (m : Move) (h : Hall) (key : String) : ℚ :=
  let held := (m.engine h.engine).alarms.shelfOf key
  match m with
  | .desk _ (.shelve other _) =>
      if other = key ∧ (h.engine.alarms.find key).isSome then held else max (h.shelf key) held
  | _ => max (h.shelf key) held

def move (m : Move) (h : Hall) : Hall :=
  ⟨m.engine h.engine, shelfAfter m h, max h.clock m.wall⟩

/-- A move announces no key that is shelved. -/
def Silent (m : Move) (h : Hall) : Prop :=
  ∀ key, m.announces h.engine = some key → ¬m.wall < (move m h).shelf key

instance (m : Move) (h : Hall) : Decidable (Silent m h) :=
  inferInstanceAs (Decidable (∀ key ∈ m.announces h.engine, ¬m.wall < (move m h).shelf key))

/-- The key about which a move repeats an announcement, if it does. -/
def Move.repeats (m : Move) (s : Engine) : Option String :=
  match m with
  | turn t what => if (take t what s).act = .fire true then some (take t what s).key else none
  | desk _ _ => none

/-- A note that is taken has an entry that is not silenced. -/
def Discreet (m : Move) (s : Engine) : Prop :=
  match m with
  | .desk wall (.note key _) =>
      ∀ i ∈ s.alarms.slotFor key, ∀ a ∈ s.alarms.at? i, ¬wall < a.shelvedUntil
  | _ => True

/-- The wall clock does not go back, no repeat is about an alarm that is silenced
or is being silenced, and no note takes the entry of one that is. -/
structure Fair (m : Move) (h : Hall) : Prop where
  clocked : h.clock ≤ m.wall
  once : ∀ key ∈ m.repeats h.engine, ∀ entry ∈ h.engine.alarms, ∀ a ∈ entry, a.key = key →
    ¬m.wall < a.shelvedUntil ∧
      (a.active = false → ¬m.wall < (AlarmTable.activate m.wall a).shelvedUntil)
  discreet : Discreet m h.engine

instance : ∀ m s, Decidable (Discreet m s)
  | .desk _ (.note _ _), _ => inferInstanceAs (Decidable (∀ i ∈ _, _))
  | .turn _ _, _ | .desk _ (.ack _), _ | .desk _ .ackAll, _ | .desk _ (.shelve _ _), _
  | .desk _ (.raise _ _), _ | .desk _ (.clear _), _ => Decidable.isTrue trivial

instance (m : Move) (h : Hall) : Decidable (Fair m h) :=
  decidable_of_iff
    (h.clock ≤ m.wall ∧
      (∀ key ∈ m.repeats h.engine, ∀ entry ∈ h.engine.alarms, ∀ a ∈ entry, a.key = key →
        ¬m.wall < a.shelvedUntil ∧
          (a.active = false → ¬m.wall < (AlarmTable.activate m.wall a).shelvedUntil)) ∧
      Discreet m h.engine)
    ⟨fun ⟨clocked, once, discreet⟩ => ⟨clocked, once, discreet⟩,
      fun ⟨clocked, once, discreet⟩ => ⟨clocked, once, discreet⟩⟩

/-! ## Shelves through the operations -/

namespace AlarmTable

section

variable {tab tab' : AlarmTable} {i : ℕ} {key other : String} {now : ℚ}

/-- While the entry of a key is silenced, the key keeps an entry that is silenced
for as long. -/
def Carries (now : ℚ) (key : String) (tab tab' : AlarmTable) : Prop :=
  ∀ i a, tab.at? i = some a → a.key = key → now < a.shelvedUntil →
    ∃ j b, tab'.at? j = some b ∧ b.key = key ∧ b.shelvedUntil = a.shelvedUntil

theorem Carries.refl (now : ℚ) (key : String) (tab : AlarmTable) : Carries now key tab tab :=
  fun i a here isKey _ => ⟨i, a, here, isKey, rfl⟩

theorem Carries.trans {last : AlarmTable} (first : Carries now key tab tab')
    (second : Carries now key tab' last) : Carries now key tab last := by
  intro i a here isKey silenced
  obtain ⟨j, b, there, same, until_⟩ := first i a here isKey silenced
  obtain ⟨k, c, last, keyed, still⟩ := second j b there same (until_ ▸ silenced)
  exact ⟨k, c, last, keyed, still.trans until_⟩

theorem carries_edit {f : Alarm → Alarm} (keys : ∀ a, (f a).key = a.key)
    (shelves : ∀ a, (f a).shelvedUntil = a.shelvedUntil) :
    Carries now key tab (tab.edit other f) := by
  intro i a here isKey _
  rw [edit]
  cases found : tab.find other with
  | none => exact ⟨i, a, here, isKey, rfl⟩
  | some k =>
      by_cases same : k = i
      · refine ⟨i, f a, ?_, (keys a).trans isKey, shelves a⟩
        dsimp only
        rw [at?_modify, if_pos same, here]
        rfl
      · refine ⟨i, a, ?_, isKey, rfl⟩
        dsimp only
        rw [at?_modify, if_neg same, here]

theorem carries_ackAll : Carries now key tab (tab.ackAll now) := by
  intro i a here isKey _
  refine ⟨i, seenListed now a, ?_, ((calms_seenListed now).key a).trans isKey, ?_⟩
  · rw [ackAll, at?_map _ rfl, here]
    rfl
  · rw [seenListed]
    split_ifs <;> rfl

theorem over_shelvedUntil (a : Alarm) : (isOver now a).shelvedUntil = a.shelvedUntil := by
  rw [isOver]
  split_ifs <;> rfl

theorem gone_shelvedUntil (a : Alarm) : (gone now a).shelvedUntil = a.shelvedUntil := by
  rw [gone]
  split_ifs <;> rfl

theorem carries_reap : Carries now key tab (tab.reap now) := by
  intro i a here isKey silenced
  refine ⟨i, a, ?_, isKey, rfl⟩
  rw [reap, at?_map _ rfl, here, Option.filter_eq_some_iff]
  refine ⟨rfl, ?_⟩
  simp [spent, not_lt_of_gt silenced]

theorem activate_shelvedUntil {a : Alarm} (silenced : now < a.shelvedUntil) :
    (activate now a).shelvedUntil = a.shelvedUntil := by
  rw [activate]
  simp only
  split_ifs with window chatters chatters
  · exact absurd silenced (not_lt_of_gt chatters.2)
  · rfl
  · exact absurd silenced (not_lt_of_gt chatters.2)
  · rfl

theorem carries_raise {crit : Crit} : Carries now key tab (tab.raise other crit now).2 := by
  refine Carries.trans carries_reap ?_
  rw [raise]
  cases found : (tab.reap now).slotFor other with
  | none => exact Carries.refl now key _
  | some k =>
      intro i a here isKey silenced
      by_cases same : k = i
      · subst same
        refine ⟨k, _, at?_set_self (slotFor_lt found), ?_, ?_⟩
        · rw [here, Option.getD_some]
          split_ifs
          · exact isKey
          · exact (activate_key _).trans isKey
        · rw [here, Option.getD_some]
          split_ifs
          · rfl
          · exact activate_shelvedUntil silenced
      · exact ⟨i, a, (at?_set_ne same).trans here, isKey, rfl⟩

theorem carries_note {crit : Crit}
    (loud : ∀ i ∈ tab.slotFor other, ∀ a ∈ tab.at? i, ¬now < a.shelvedUntil) :
    Carries now key tab (tab.note other crit now) := by
  rw [note]
  cases found : tab.slotFor other with
  | none => exact Carries.refl now key _
  | some k =>
      intro i a here isKey silenced
      have apart : k ≠ i := by
        rintro rfl
        exact loud k found a here silenced
      exact ⟨i, a, (at?_set_ne apart).trans here, isKey, rfl⟩

theorem loud_of_fresh {crit : Crit} (sound : Sound tab)
    (fresh : (tab.raise key crit now).1 = true) {j : ℕ} {b : Alarm}
    (here : (tab.raise key crit now).2.at? j = some b) (isKey : b.key = key) :
    ¬now < b.shelvedUntil := by
  have reaped := sound.calmed (calmed_reap tab now)
  rw [raise] at fresh here
  cases found : (tab.reap now).slotFor key with
  | none =>
      rw [found] at fresh
      cases fresh
  | some k =>
      rw [found] at fresh here
      simp only [Bool.and_eq_true, Bool.not_eq_true', decide_eq_false_iff_not] at fresh
      rcases at?_set_eq_some here with ⟨-, isNew⟩ | before
      · cases isNew
        exact fresh.2
      · rcases slotFor_cases found with ⟨c, own, same⟩ | ⟨missing, -⟩ | ⟨missing, -⟩
        · obtain rfl := reaped.unique k j c b own before (same.trans isKey.symm)
          rw [at?_set_self (slotFor_lt found)] at here
          cases here
          exact fresh.2
        · exact absurd isKey (find_eq_none missing before)
        · exact absurd isKey (find_eq_none missing before)

theorem activate_congr {a b : Alarm} (start : a.windowStart = b.windowStart)
    (raises : a.windowRaises = b.windowRaises) (shelf : a.shelvedUntil = b.shelvedUntil) :
    (activate now a).shelvedUntil = (activate now b).shelvedUntil := by
  simp only [activate, start, raises, shelf]
  split_ifs <;> rfl

/-- A raise leaves no entry of its key silenced when none was, and none is
activated too often. -/
theorem loud_of_loud {crit : Crit} (sound : Sound tab) (began : 0 ≤ now)
    (loud : ∀ a, some a ∈ tab → a.key = key →
      ¬now < a.shelvedUntil ∧ (a.active = false → ¬now < (activate now a).shelvedUntil))
    {j : ℕ} {b : Alarm} (here : (tab.raise key crit now).2.at? j = some b) (isKey : b.key = key) :
    ¬now < b.shelvedUntil := by
  have reaped := sound.calmed (calmed_reap tab now)
  have still : ∀ i a, (tab.reap now).at? i = some a → some a ∈ tab := by
    intro i a there
    rw [reap, at?_map _ rfl] at there
    exact mem_of_at? (Option.filter_eq_some_iff.mp there).1
  rw [raise] at here
  cases found : (tab.reap now).slotFor key with
  | none =>
      rw [found] at here
      exact (loud b (still j b here) isKey).1
  | some k =>
      rw [found] at here
      by_cases same : k = j
      · subst same
        rw [at?_set_self (slotFor_lt found)] at here
        cases own : (tab.reap now).at? k with
        | none =>
            rw [own, Option.getD_none] at here
            cases here
            simp [activate, blank, chatterRaises, chatterWindow, not_lt.mpr began]
        | some c =>
            rw [own, Option.getD_some] at here
            have keyed : c.key = key := by
              cases here
              revert isKey
              dsimp only
              split_ifs
              · exact id
              · rw [activate_key]
                exact id
            obtain ⟨quiet, calm⟩ := loud c (still k c own) keyed
            cases here
            dsimp only
            split_ifs with active
            · exact quiet
            · intro silenced
              exact calm (Bool.eq_false_of_not_eq_true active)
                (silenced.trans_eq (activate_congr rfl rfl rfl))
      · rw [at?_set_ne same] at here
        exact (loud b (still j b here) isKey).1

theorem shelfOf_eq {a : Alarm} (sound : Sound tab) (here : tab.at? i = some a) :
    tab.shelfOf a.key = a.shelvedUntil := by
  cases found : tab.find a.key with
  | none => exact absurd rfl (find_eq_none found here)
  | some k =>
      obtain ⟨b, there, same⟩ := find_eq_some found
      obtain rfl := sound.unique k i b a there here same
      rw [shelfOf, found, Option.bind_some, here]
      rfl

theorem shelfOf_cases (tab : AlarmTable) (key : String) :
    tab.shelfOf key = 0 ∨
      ∃ i a, tab.at? i = some a ∧ a.key = key ∧ a.shelvedUntil = tab.shelfOf key := by
  cases found : tab.find key with
  | none =>
      left
      rw [shelfOf, found]
      rfl
  | some k =>
      obtain ⟨b, there, same⟩ := find_eq_some found
      right
      refine ⟨k, b, there, same, ?_⟩
      rw [shelfOf, found, Option.bind_some, there]
      rfl

end

end AlarmTable

open AlarmTable

/-! ## What a move does to the table -/

theorem take_performs (t : Tick) (what : Turn) (s : Engine) :
    (∃ id, what = .retire id) ∨ ∃ crit, ((take t what s).sent, (take t what s).engine.alarms) =
      (take t what s).act.perform (take t what s).key crit t.wall s.alarms := by
  have settles (rule : Json) (key : String) (judge : Bool → Memory → Memory × Act) (ok : Bool)
      (place : Option ℕ) (slots : List Slot) :
      let o := settle t rule key judge ok place ⟨slots, s.alarms⟩
      (o.sent, o.engine.alarms) = o.act.perform o.key (critOf rule) t.wall s.alarms := by
    dsimp only
    rw [settle]
    split
    · rfl
    · rfl
  cases what with
  | retire id => exact Or.inl ⟨id, rfl⟩
  | judge rule i => exact Or.inr ⟨critOf rule, settles rule _ _ _ _ _⟩
  | judgeEvery rule first others => exact Or.inr ⟨critOf rule, settles rule _ _ _ _ _⟩

theorem retireRule_alarms {id : String} {wall : ℚ} (slots : List Slot) {alarms : AlarmTable}
    (key : String) (sound : alarms.Sound) :
    let after := slots.foldl (fun alarms st =>
      if st.rule = id ∧ st.raised then alarms.retire (alarmKey id st.inst) wall else alarms)
      alarms
    after.Sound ∧ Carries wall key alarms after := by
  induction slots generalizing alarms with
  | nil => exact ⟨sound, Carries.refl wall key alarms⟩
  | cons st rest ih =>
      simp only [List.foldl_cons]
      split_ifs
      · obtain ⟨after, carries⟩ := ih (sound_edit sound (calms_gone wall))
        exact ⟨after, (carries_edit (calms_gone wall).key gone_shelvedUntil).trans carries⟩
      · exact ih sound

/-- A key whose shelf a move puts up anew. -/
def Move.Shelves (m : Move) (key : String) : Prop :=
  ∃ wall seconds, m = .desk wall (.shelve key seconds)

theorem alarms_move {m : Move} {s : Engine} (sound : s.alarms.Sound) (discreet : Discreet m s)
    (key : String) :
    (m.engine s).alarms.Sound ∧
      (¬m.Shelves key → Carries m.wall key s.alarms (m.engine s).alarms) := by
  cases m with
  | turn t what =>
      rcases take_performs t what s with ⟨id, rfl⟩ | ⟨crit, performed⟩
      · obtain ⟨after, carries⟩ := retireRule_alarms s.slots key sound
        exact ⟨after, fun _ => carries⟩
      · have alarms := congrArg Prod.snd performed
        dsimp only at alarms
        rw [Move.engine, Move.wall, alarms]
        cases (take t what s).act with
        | nothing => exact ⟨sound, fun _ => Carries.refl _ _ _⟩
        | clear =>
            exact ⟨sound_edit sound (calms_over t.wall),
              fun _ => carries_edit (calms_over t.wall).key over_shelvedUntil⟩
        | fire again => exact ⟨sound.raise, fun _ => carries_raise⟩
  | desk wall work =>
      cases work with
      | ack k =>
          exact ⟨sound_edit sound (calms_seen wall),
            fun _ => carries_edit (calms_seen wall).key fun _ => rfl⟩
      | ackAll => exact ⟨sound.calmed (calmed_ackAll _ wall), fun _ => carries_ackAll⟩
      | shelve k seconds =>
          refine ⟨sound_edit sound (calms_hushed seconds wall), fun other => ?_⟩
          intro i a here isKey _
          have apart : a.key ≠ k := by
            rintro rfl
            exact other ⟨wall, seconds, isKey ▸ rfl⟩
          exact ⟨i, a, at?_edit_ne here apart, isKey, rfl⟩
      | raise k crit => exact ⟨sound.raise, fun _ => carries_raise⟩
      | clear k =>
          exact ⟨sound_edit sound (calms_over wall),
            fun _ => carries_edit (calms_over wall).key over_shelvedUntil⟩
      | note k crit => exact ⟨sound.note, fun _ => carries_note discreet⟩

/-! ## Runs -/

/-- Every shelf that stands is that of the entry of its key, and no entry is
silenced for longer. -/
structure Posted (h : Hall) : Prop where
  sound : h.engine.alarms.Sound
  began : 0 ≤ h.clock
  known : ∀ key, h.clock < h.shelf key →
    ∃ i a, h.engine.alarms.at? i = some a ∧ a.key = key ∧ a.shelvedUntil = h.shelf key
  within : ∀ i a, h.engine.alarms.at? i = some a → a.shelvedUntil ≤ h.shelf a.key

theorem posted_start : Posted .start where
  sound := sound_init
  began := le_refl 0
  known := fun _ ahead => absurd ahead (lt_irrefl 0)
  within := fun _ _ here => absurd (List.eq_of_mem_replicate (mem_of_at? here)) nofun

section

variable {m : Move} {h : Hall}

theorem shelfAfter_cases (m : Move) (h : Hall) (key : String) :
    (m.Shelves key ∧ shelfAfter m h key = (m.engine h.engine).alarms.shelfOf key) ∨
      ((m.Shelves key → Carries m.wall key h.engine.alarms (m.engine h.engine).alarms) ∧
        shelfAfter m h key = max (h.shelf key) ((m.engine h.engine).alarms.shelfOf key)) := by
  have other (plain : ¬m.Shelves key)
      (same : shelfAfter m h key = max (h.shelf key) ((m.engine h.engine).alarms.shelfOf key)) :
      (m.Shelves key → Carries m.wall key h.engine.alarms (m.engine h.engine).alarms) ∧
        shelfAfter m h key = max (h.shelf key) ((m.engine h.engine).alarms.shelfOf key) :=
    ⟨fun shelves => absurd shelves plain, same⟩
  cases m with
  | turn t what => exact Or.inr (other (by rintro ⟨_, _, same⟩; cases same) rfl)
  | desk wall work =>
      cases work with
      | shelve k seconds =>
          rw [shelfAfter]
          split_ifs with taken
          · exact Or.inl ⟨⟨wall, seconds, taken.1 ▸ rfl⟩, rfl⟩
          · refine Or.inr ⟨?_, rfl⟩
            rintro ⟨_, _, same⟩
            cases same
            have missing : h.engine.alarms.find key = none := by
              simpa using taken
            have same : (Move.desk wall (.shelve key seconds)).engine h.engine = h.engine := by
              rw [Move.engine, Desk.work, AlarmTable.shelve, edit, missing]
            rw [same]
            exact Carries.refl _ _ _
      | ack k | ackAll | raise k crit | clear k | note k crit =>
          exact Or.inr (other (by rintro ⟨_, _, same⟩; cases same) rfl)

theorem Posted.move (posted : Posted h) (fair : Fair m h) : Posted (move m h) := by
  have kept (key : String) := alarms_move posted.sound fair.discreet key
  have sound := (kept "").1
  have now : max h.clock m.wall = m.wall := max_eq_right fair.clocked
  have began : 0 ≤ m.wall := posted.began.trans fair.clocked
  refine ⟨sound, posted.began.trans (le_max_left _ _), ?_, ?_⟩
  · intro key ahead
    change max h.clock m.wall < shelfAfter m h key at ahead
    rw [now] at ahead
    change ∃ i a, (m.engine h.engine).alarms.at? i = some a ∧ a.key = key ∧
      a.shelvedUntil = shelfAfter m h key
    have ofEntry (same : shelfAfter m h key = (m.engine h.engine).alarms.shelfOf key) :
        ∃ i a, (m.engine h.engine).alarms.at? i = some a ∧ a.key = key ∧
          a.shelvedUntil = shelfAfter m h key := by
      rcases shelfOf_cases (m.engine h.engine).alarms key with none_ | found
      · rw [same, none_] at ahead
        exact absurd (began.trans_lt ahead) (lt_irrefl 0)
      · rw [same]
        exact found
    rcases shelfAfter_cases m h key with ⟨-, same⟩ | ⟨carries, same⟩
    · exact ofEntry same
    · rcases le_total (h.shelf key) ((m.engine h.engine).alarms.shelfOf key) with more | less
      · exact ofEntry (same.trans (max_eq_right more))
      · have still := same.trans (max_eq_left less)
        rw [still] at ahead ⊢
        obtain ⟨i, a, here, isKey, until_⟩ := posted.known key (fair.clocked.trans_lt ahead)
        have carried : Carries m.wall key h.engine.alarms (m.engine h.engine).alarms := by
          by_cases shelves : m.Shelves key
          · exact carries shelves
          · exact (kept key).2 shelves
        obtain ⟨j, b, there, same, stays⟩ := carried i a here isKey (until_ ▸ ahead)
        exact ⟨j, b, there, same, stays.trans until_⟩
  · intro i a here
    have held := shelfOf_eq sound here
    change a.shelvedUntil ≤ shelfAfter m h a.key
    rcases shelfAfter_cases m h a.key with ⟨-, same⟩ | ⟨-, same⟩
    · rw [same, held]
    · rw [same, held]
      exact le_max_right _ _

theorem silent_of_fair (posted : Posted h) (fair : Fair m h) : Silent m h := by
  intro key announced shelved
  have after := posted.move fair
  have began : 0 ≤ m.wall := posted.began.trans fair.clocked
  have ahead : (move m h).clock < (move m h).shelf key := by
    rwa [show (move m h).clock = m.wall from max_eq_right fair.clocked]
  obtain ⟨i, a, here, isKey, until_⟩ := after.known key ahead
  rw [← until_] at shelved
  -- the announcement left no entry of its key silenced
  cases m with
  | turn t what =>
      simp only [Move.announces, Option.ite_none_right_eq_some, Option.some.injEq] at announced
      obtain ⟨sent, rfl⟩ := announced
      rcases take_performs t what h.engine with ⟨id, rfl⟩ | ⟨crit, performed⟩
      · cases sent
      · have said := congrArg Prod.fst performed
        have alarms := congrArg Prod.snd performed
        dsimp only at said alarms
        change (take t what h.engine).engine.alarms.at? i = some a at here
        rw [alarms] at here
        rw [sent] at said
        cases act : (take t what h.engine).act with
        | nothing =>
            rw [act] at said
            cases said
        | clear =>
            rw [act] at said
            cases said
        | fire again =>
            rw [act] at said here
            cases again with
            | false =>
                have fresh :
                    (h.engine.alarms.raise (take t what h.engine).key crit t.wall).1 = true := by
                  simpa [Act.perform] using said.symm
                exact loud_of_fresh posted.sound fresh here isKey shelved
            | true =>
                have repeats : (Move.turn t what).repeats h.engine =
                    some (take t what h.engine).key := by
                  rw [Move.repeats, if_pos act]
                refine loud_of_loud posted.sound began (fun b member same => ?_) here isKey shelved
                exact fair.once _ repeats (some b) member b rfl same
  | desk wall work =>
      cases work with
      | raise k crit =>
          simp only [Move.announces, Option.ite_none_right_eq_some, Option.some.injEq] at announced
          obtain ⟨fresh, rfl⟩ := announced
          exact loud_of_fresh posted.sound fresh here isKey shelved
      | ack k | ackAll | shelve k seconds | clear k | note k crit => cases announced

end

theorem engine_run_moves (inputs : List Input) (w : Watch) (h : Hall) (same : h.engine = w.engine) :
    (run move (moves inputs w.engine) h).engine = (run step inputs w).engine := by
  induction inputs generalizing w h with
  | nil => exact same
  | cons i rest ih =>
      cases i with
      | tick t =>
          have turned : ∀ (list : List Turn) (h : Hall) (s : Engine), h.engine = s →
              (run move (list.map (Move.turn t)) h).engine = run (turn t) list s := by
            intro list
            induction list with
            | nil => exact fun h s same => same
            | cons what list ih =>
                intro h s same
                subst same
                exact ih (move (.turn t what) h) _ rfl
          rw [moves, run_append, run_cons]
          exact ih ⟨tick t w.engine, _⟩ _ (turned _ h w.engine same)
      | desk wall work =>
          rw [moves, run_cons, run_cons]
          exact ih ⟨⟨w.engine.slots, work.work wall w.engine.alarms⟩, w.seen⟩ _
            (by rw [move, Move.engine, same])

/-- Along a run whose moves are fair nothing is announced about a key that is
shelved. -/
theorem shelved_silent (inputs : List Input)
    (fair : Along move Fair (moves inputs .init) .start) :
    Along move Silent (moves inputs .init) .start :=
  Along.strengthen Posted (fun _ _ posted fair => posted.move fair)
    (fun _ _ posted fair => silent_of_fair posted fair) posted_start fair

/-- The pit is over its limit, is shelved, recovers, and is over it again. -/
def benchShelved : List Input :=
  let rule := Pit.rule "hot" 200 []
  [.tick (Pit.tick [rule] "Hold" 250 1000), .desk 1010 (.shelve (alarmKey "hot" "grill") 3600),
    .tick (Pit.tick [rule] "Hold" 150 1100), .tick (Pit.tick [rule] "Hold" 250 1500)]

theorem shelved_silent_on_bench : Along move Silent (moves benchShelved .init) .start :=
  shelved_silent benchShelved (by decide +kernel)

/-- The pit stays over its limit, and the rule repeats itself. -/
def benchRepeating : List Input :=
  let rule := Pit.rule "hot" 200 [("repeat_s", .num 600)]
  [.tick (Pit.tick [rule] "Hold" 250 1000), .desk 1010 (.shelve (alarmKey "hot" "grill") 3600),
    .tick (Pit.tick [rule] "Hold" 250 1700)]

/-- A repeat is announced in the middle of a shelf. -/
theorem shelved_repeated :
    ¬∀ inputs : List Input, Along move Silent (moves inputs .init) .start := by
  intro silent
  have spoken : ¬Along move Silent (moves benchRepeating .init) .start := by decide +kernel
  exact spoken (silent benchRepeating)

end PiFire.Rules
