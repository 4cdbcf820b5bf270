import Mathlib.Algebra.Order.Field.Rat
import Mathlib.Data.List.Basic

/-!
# The alarm table

One table of what is wrong with the grill right now. An alarm is a condition
under a key; it is raised while the condition holds and ends by being cleared
or retired. The texts of an entry, its sinks and its remedies are left out, as
nothing here reads them; a key is never longer than the field that keeps it.
-/

namespace PiFire.Rules

/-- How much an alarm matters. -/
inductive Crit where
  | info
  | normal
  | high
  | critical
  deriving DecidableEq

/-- One entry of the table. -/
structure Alarm where
  key : String
  crit : Crit
  active : Bool
  acked : Bool
  notice : Bool
  retired : Bool
  raisedTs : ℚ
  clearedTs : ℚ
  ackedTs : ℚ
  windowStart : ℚ
  windowRaises : ℕ
  shelvedUntil : ℚ

/-- The table; an entry that is not used is `none`. -/
abbrev AlarmTable := List (Option Alarm)

namespace AlarmTable

def alarmsMax : ℕ := 64

def chatterRaises : ℕ := 5

def chatterWindow : ℚ := 600

def chatterShelf : ℚ := 1800

def init : AlarmTable := List.replicate alarmsMax none

/-- The entry with this key. -/
def find (tab : AlarmTable) (key : String) : Option ℕ :=
  tab.findIdx? fun entry => entry.any (·.key == key)

/-- Whether a retired entry can no longer tell anything about chattering. -/
def spent (now : ℚ) (a : Alarm) : Bool :=
  a.retired && decide (chatterWindow * 2 < now - a.clearedTs) && decide (a.shelvedUntil < now)

def reap (now : ℚ) (tab : AlarmTable) : AlarmTable :=
  tab.map fun entry => entry.filter fun a => !spent now a

/-- The oldest entry that is over and has been seen. -/
def oldestAcked (tab : AlarmTable) : Option ℕ :=
  (tab.zipIdx.foldl (fun best entry =>
    match entry.1 with
    | none => best
    | some a =>
        if a.active || !a.acked then best
        else
          match best with
          | none => some (entry.2, a.raisedTs)
          | some (_, ts) => if a.raisedTs < ts then some (entry.2, a.raisedTs) else best)
    (none : Option (ℕ × ℚ))).map Prod.fst

/-- The entry a key is given: its own, an unused one, or else one that nobody is
waiting on. -/
def slotFor (tab : AlarmTable) (key : String) : Option ℕ :=
  match tab.find key with
  | some i => some i
  | none =>
      match tab.findIdx? Option.isNone with
      | some i => some i
      | none =>
          match tab.findIdx? fun entry => entry.any (·.retired) with
          | some i => some i
          | none => tab.oldestAcked

/-- The used entry at a place. -/
def at? (tab : AlarmTable) (i : ℕ) : Option Alarm := tab[i]?.join

/-- An entry that has just been taken into use. -/
def blank (key : String) (now : ℚ) : Alarm :=
  ⟨key, .info, false, false, false, false, 0, 0, 0, now, 0, 0⟩

/-- An entry whose condition becomes true: its activations are counted, and too
many of them shelve it. -/
def activate (now : ℚ) (a : Alarm) : Alarm :=
  let a := { a with active := true, acked := false, raisedTs := now, clearedTs := 0 }
  let a :=
    if chatterWindow < now - a.windowStart then { a with windowStart := now, windowRaises := 1 }
    else { a with windowRaises := a.windowRaises + 1 }
  if chatterRaises ≤ a.windowRaises ∧ a.shelvedUntil < now then
    { a with shelvedUntil := now + chatterShelf }
  else a

/-- A condition is raised, or refreshed when it stands already; the answer is
whether it is news. An entry that is already used keeps its key, also when it
was another condition's. -/
def raise (key : String) (crit : Crit) (now : ℚ) (tab : AlarmTable) : Bool × AlarmTable :=
  let tab := tab.reap now
  match tab.slotFor key with
  | none => (false, tab)
  | some i =>
      let found := (tab.at? i).getD (blank key now)
      let a := { found with crit := crit, notice := false, retired := false }
      let after := if a.active then a else activate now a
      (!a.active && !decide (now < after.shelvedUntil), tab.set i (some after))

/-- A change of the entry with a key, if there is one. -/
def edit (key : String) (f : Alarm → Alarm) (tab : AlarmTable) : AlarmTable :=
  match tab.find key with
  | none => tab
  | some i => tab.modify i (Option.map f)

/-- What is active is over; what mattered and was not acknowledged stays
listed. -/
def isOver (now : ℚ) (a : Alarm) : Alarm :=
  let gone := a.acked || a.crit == .info || a.crit == .normal
  if a.active then
    { a with active := false, clearedTs := now, retired := a.retired || gone,
             acked := a.acked || gone }
  else a

/-- The condition is false again. -/
def clear (key : String) (now : ℚ) : AlarmTable → AlarmTable := edit key (isOver now)

/-- An entry that is taken off the list. -/
def gone (now : ℚ) (a : Alarm) : Alarm :=
  if a.retired then a
  else
    { a with active := false, acked := true, retired := true,
             clearedTs := if a.clearedTs = 0 then now else a.clearedTs }

/-- Nobody is looking at the condition any more. -/
def retire (key : String) (now : ℚ) : AlarmTable → AlarmTable := edit key (gone now)

/-- Somebody has seen an entry. -/
def seen (now : ℚ) (a : Alarm) : Alarm :=
  { a with acked := true, ackedTs := now, retired := a.retired || !a.active,
           clearedTs := if !a.active && a.clearedTs == 0 then now else a.clearedTs }

def ack (key : String) (now : ℚ) : AlarmTable → AlarmTable := edit key (seen now)

/-- Somebody has seen all entries that are listed. -/
def seenListed (now : ℚ) (a : Alarm) : Alarm := if a.retired then a else seen now a

def ackAll (now : ℚ) (tab : AlarmTable) : AlarmTable := tab.map (Option.map (seenListed now))

/-- An entry is silenced for a while. -/
def hushed (seconds now : ℚ) (a : Alarm) : Alarm :=
  { a with shelvedUntil := now + (if 0 < seconds then seconds else chatterShelf),
           acked := true, ackedTs := now }

def shelve (key : String) (seconds now : ℚ) : AlarmTable → AlarmTable :=
  edit key (hushed seconds now)

/-- A moment is noted under a key of its own. -/
def note (key : String) (crit : Crit) (now : ℚ) (tab : AlarmTable) : AlarmTable :=
  match tab.slotFor key with
  | none => tab
  | some i => tab.set i (some { blank key 0 with crit := crit, notice := true, raisedTs := now })

/-! ## What rings -/

section Rings

variable {tab : AlarmTable} {i j : ℕ} {key other : String} {now : ℚ}

/-- An alarm under this key is active. -/
def Rings (tab : AlarmTable) (key : String) : Prop :=
  ∃ i a, tab.at? i = some a ∧ a.key = key ∧ a.active = true

/-- No two entries have one key, and nothing that is retired is active. -/
structure Sound (tab : AlarmTable) : Prop where
  unique : ∀ i j a b, tab.at? i = some a → tab.at? j = some b → a.key = b.key → i = j
  quiet : ∀ i a, tab.at? i = some a → a.retired = true → a.active = false

theorem at?_modify (f : Alarm → Alarm) :
    at? (tab.modify i (Option.map f)) j = if i = j then (tab.at? j).map f else tab.at? j := by
  rw [at?, at?, List.getElem?_modify]
  cases tab[j]? with
  | none => split_ifs <;> rfl
  | some entry => cases entry <;> split_ifs <;> rfl

theorem at?_map (f : Option Alarm → Option Alarm) (none' : f none = none) :
    at? (tab.map f) j = f (tab.at? j) := by
  rw [at?, at?, List.getElem?_map]
  cases tab[j]? with
  | none => exact none'.symm
  | some entry => rfl

theorem at?_set_eq_some {entry : Option Alarm} {a : Alarm}
    (found : at? (tab.set i entry) j = some a) : i = j ∧ entry = some a ∨ tab.at? j = some a := by
  rw [at?, List.getElem?_set] at found
  split_ifs at found with same inside
  · exact Or.inl ⟨same, found⟩
  · exact absurd found nofun
  · exact Or.inr found

theorem mem_of_at? {a : Alarm} (found : tab.at? i = some a) : some a ∈ tab := by
  rw [at?, Option.join_eq_some_iff] at found
  exact List.mem_of_getElem? found

theorem find_eq_some (found : tab.find key = some i) : ∃ a, tab.at? i = some a ∧ a.key = key := by
  obtain ⟨inside, isKey, -⟩ := List.findIdx?_eq_some_iff_getElem.mp found
  cases entry : tab[i] with
  | none => simp [entry] at isKey
  | some a =>
      refine ⟨a, ?_, by simpa [entry] using isKey⟩
      rw [at?, List.getElem?_eq_getElem inside, entry]
      rfl

theorem find_eq_none (missing : tab.find key = none) {a : Alarm} (found : tab.at? i = some a) :
    a.key ≠ key := by
  have apart := List.findIdx?_eq_none_iff.mp missing _ (mem_of_at? found)
  simpa using apart

/-- A change that keeps the key of an entry and activates nothing. -/
structure Calms (f : Alarm → Alarm) : Prop where
  key : ∀ a, (f a).key = a.key
  active : ∀ a, (f a).active = true → a.active = true
  quiet : ∀ a, (a.retired = true → a.active = false) → (f a).retired = true → (f a).active = false

theorem calms_over (now : ℚ) : Calms (isOver now) where
  key a := by
    rw [isOver]
    split_ifs <;> rfl
  active a := by
    rw [isOver]
    split_ifs with active
    · exact nofun
    · exact id
  quiet a := by
    rw [isOver]
    split_ifs with active
    · exact fun _ _ => rfl
    · exact id

theorem calms_gone (now : ℚ) : Calms (gone now) where
  key a := by
    rw [gone]
    split_ifs <;> rfl
  active a := by
    rw [gone]
    split_ifs with retired
    · exact id
    · exact nofun
  quiet a := by
    rw [gone]
    by_cases retired : a.retired = true
    · rw [if_pos retired]
      exact id
    · rw [if_neg retired]
      exact fun _ _ => rfl

theorem calms_seen (now : ℚ) : Calms (seen now) where
  key _ := rfl
  active _ := id
  quiet a quiet := by
    intro retired
    rcases Bool.or_eq_true_iff.mp retired with before | inactive
    · exact quiet before
    · exact Bool.not_eq_true' _ ▸ inactive

theorem calms_seenListed (now : ℚ) : Calms (seenListed now) where
  key a := by
    rw [seenListed]
    split_ifs <;> rfl
  active a := by
    rw [seenListed]
    split_ifs <;> exact id
  quiet a := by
    rw [seenListed]
    split_ifs
    · exact id
    · exact (calms_seen now).quiet a

theorem calms_hushed (seconds now : ℚ) : Calms (hushed seconds now) where
  key _ := rfl
  active _ := id
  quiet _ := id

/-- A table whose entries are those of another one after calm changes, or are
gone. -/
def Calmed (tab tab' : AlarmTable) : Prop :=
  ∀ i a', tab'.at? i = some a' → ∃ a, tab.at? i = some a ∧ a'.key = a.key ∧
    (a'.active = true → a.active = true) ∧
    ((a.retired = true → a.active = false) → a'.retired = true → a'.active = false)

theorem Sound.calmed {tab' : AlarmTable} (sound : Sound tab) (calmed : Calmed tab tab') :
    Sound tab' where
  unique := by
    intro i j a' b' first second same
    obtain ⟨a, atFirst, keyFirst, -⟩ := calmed i a' first
    obtain ⟨b, atSecond, keySecond, -⟩ := calmed j b' second
    exact sound.unique i j a b atFirst atSecond (keyFirst.symm.trans (same.trans keySecond))
  quiet := by
    intro i a' found
    obtain ⟨a, here, -, -, quiet⟩ := calmed i a' found
    exact quiet (sound.quiet i a here)

theorem Rings.of_calmed {tab' : AlarmTable} (calmed : Calmed tab tab') (rings : Rings tab' key) :
    Rings tab key := by
  obtain ⟨i, a', found, isKey, active⟩ := rings
  obtain ⟨a, here, keyed, was, -⟩ := calmed i a' found
  exact ⟨i, a, here, keyed.symm.trans isKey, was active⟩

theorem calmed_edit (tab : AlarmTable) (key : String) {f : Alarm → Alarm} (calms : Calms f) :
    Calmed tab (tab.edit key f) := by
  intro j a' found
  rw [edit] at found
  split at found
  · exact ⟨a', found, rfl, id, id⟩
  · rw [at?_modify] at found
    split_ifs at found
    · obtain ⟨a, here, rfl⟩ := Option.map_eq_some_iff.mp found
      exact ⟨a, here, calms.key a, calms.active a, calms.quiet a⟩
    · exact ⟨a', found, rfl, id, id⟩

theorem calmed_ackAll (tab : AlarmTable) (now : ℚ) : Calmed tab (tab.ackAll now) := by
  intro j a' found
  rw [ackAll, at?_map _ rfl] at found
  obtain ⟨a, here, rfl⟩ := Option.map_eq_some_iff.mp found
  have calms := calms_seenListed now
  exact ⟨a, here, calms.key a, calms.active a, calms.quiet a⟩

theorem calmed_reap (tab : AlarmTable) (now : ℚ) : Calmed tab (tab.reap now) := by
  intro j a' found
  rw [reap, at?_map _ rfl] at found
  obtain ⟨here, -⟩ := Option.filter_eq_some_iff.mp found
  exact ⟨a', here, rfl, id, id⟩

theorem not_rings_edit {f : Alarm → Alarm} (sound : Sound tab)
    (silent : ∀ i a, tab.at? i = some a → (f a).active = false) : ¬Rings (tab.edit key f) key := by
  rintro ⟨j, a, here, isKey, active⟩
  rw [edit] at here
  cases found : tab.find key with
  | none =>
      rw [found] at here
      exact find_eq_none found here isKey
  | some i =>
      obtain ⟨b, atKey, keyed⟩ := find_eq_some found
      rw [found, at?_modify] at here
      split_ifs at here with same
      · obtain ⟨d, before, rfl⟩ := Option.map_eq_some_iff.mp here
        rw [silent j d before] at active
        exact Bool.noConfusion active
      · exact same (sound.unique i j b a atKey here (keyed.trans isKey.symm))

theorem Rings.of_clear (sound : Sound tab) (rings : Rings (tab.clear key now) other) :
    Rings tab other ∧ other ≠ key := by
  refine ⟨rings.of_calmed (calmed_edit tab key (calms_over now)), ?_⟩
  rintro rfl
  refine not_rings_edit sound ?_ rings
  intro i a _
  rw [isOver]
  split_ifs with active
  · rfl
  · exact Bool.eq_false_of_not_eq_true active

theorem Rings.of_retire (sound : Sound tab) (rings : Rings (tab.retire key now) other) :
    Rings tab other ∧ other ≠ key := by
  refine ⟨rings.of_calmed (calmed_edit tab key (calms_gone now)), ?_⟩
  rintro rfl
  refine not_rings_edit sound ?_ rings
  intro i a here
  rw [gone]
  by_cases retired : a.retired = true
  · rw [if_pos retired]
    exact sound.quiet i a here retired
  · rw [if_neg retired]

/-! ### Raising an alarm -/

/-- A key has its entry, or there is an unused one for it. -/
def HasRoom (key : String) (now : ℚ) (tab : AlarmTable) : Prop :=
  ((tab.reap now).find key).isSome ∨ ((tab.reap now).findIdx? Option.isNone).isSome

instance : Decidable (HasRoom key now tab) := inferInstanceAs (Decidable (_ ∨ _))

theorem activate_key (a : Alarm) : (activate now a).key = a.key := by
  rw [activate]
  simp only
  split_ifs <;> rfl

theorem activate_retired (a : Alarm) : (activate now a).retired = a.retired := by
  rw [activate]
  simp only
  split_ifs <;> rfl

theorem slotFor_eq_some (found : tab.slotFor key = some i) :
    (∃ a, tab.at? i = some a ∧ a.key = key) ∨ tab.find key = none ∧ tab.at? i = none ∨
      tab.find key = none ∧ tab.findIdx? Option.isNone = none := by
  rw [slotFor] at found
  cases here : tab.find key with
  | some k =>
      rw [here] at found
      obtain rfl := Option.some.inj found
      exact Or.inl (find_eq_some here)
  | none =>
      right
      rw [here] at found
      cases unused : tab.findIdx? Option.isNone with
      | none => exact Or.inr ⟨rfl, rfl⟩
      | some k =>
          rw [unused] at found
          obtain rfl := Option.some.inj found
          obtain ⟨inside, isNone, -⟩ := List.findIdx?_eq_some_iff_getElem.mp unused
          refine Or.inl ⟨rfl, ?_⟩
          rw [at?, List.getElem?_eq_getElem inside, Option.isNone_iff_eq_none.mp isNone]
          rfl

theorem raise_eq (crit : Crit) (found : (tab.reap now).slotFor key = some i) :
    ∃ a, (tab.raise key crit now).2 = (tab.reap now).set i (some a) ∧ a.retired = false ∧
      a.key = (((tab.reap now).at? i).map Alarm.key).getD key := by
  rw [raise, found]
  refine ⟨_, rfl, ?_, ?_⟩
  · simp only
    split_ifs
    · rfl
    · rw [activate_retired]
  · simp only
    split_ifs
    · cases (tab.reap now).at? i <;> rfl
    · rw [activate_key]
      cases (tab.reap now).at? i <;> rfl

theorem Sound.set {a : Alarm} (sound : Sound tab) (quiet : a.retired = true → a.active = false)
    (own : ∀ j b, tab.at? j = some b → b.key = a.key → j = i) : Sound (tab.set i (some a)) where
  unique := by
    intro j k b c first second same
    rcases at?_set_eq_some first with ⟨rfl, isFirst⟩ | first <;>
      rcases at?_set_eq_some second with ⟨rfl, isSecond⟩ | second
    · rfl
    · obtain rfl := Option.some.inj isFirst
      exact (own k c second same.symm).symm
    · obtain rfl := Option.some.inj isSecond
      exact own j b first same
    · exact sound.unique j k b c first second same
  quiet := by
    intro j b found
    rcases at?_set_eq_some found with ⟨-, isA⟩ | found
    · obtain rfl := Option.some.inj isA
      exact quiet
    · exact sound.quiet j b found

theorem Sound.raise {crit : Crit} (sound : Sound tab) : Sound (tab.raise key crit now).2 := by
  have reaped := sound.calmed (calmed_reap tab now)
  cases found : (tab.reap now).slotFor key with
  | none =>
      rw [AlarmTable.raise, found]
      exact reaped
  | some i =>
      obtain ⟨a, eq, standing, keyed⟩ := raise_eq crit found
      rw [eq]
      refine reaped.set (fun retired => ?_) ?_
      · rw [standing] at retired
        exact Bool.noConfusion retired
      · intro j b here same
        rw [keyed] at same
        cases entry : (tab.reap now).at? i with
        | some c =>
            rw [entry] at same
            exact reaped.unique j i b c here entry same
        | none =>
            rw [entry] at same
            rcases slotFor_eq_some found with ⟨c, other, -⟩ | ⟨missing, -⟩ | ⟨missing, -⟩
            · rw [entry] at other
              exact absurd other nofun
            · exact absurd same (find_eq_none missing here)
            · exact absurd same (find_eq_none missing here)

theorem Rings.of_raise {crit : Crit} (room : HasRoom key now tab)
    (rings : Rings (tab.raise key crit now).2 other) : Rings tab other ∨ other = key := by
  cases found : (tab.reap now).slotFor key with
  | none =>
      rw [raise, found] at rings
      exact Or.inl (rings.of_calmed (calmed_reap tab now))
  | some i =>
      obtain ⟨a, eq, -, keyed⟩ := raise_eq crit found
      rw [eq] at rings
      have isKey : a.key = key := by
        rw [keyed]
        rcases slotFor_eq_some found with ⟨c, here, same⟩ | ⟨-, unused⟩ | ⟨missing, full⟩
        · rw [here]
          exact same
        · rw [unused]
          rfl
        · rcases room with own | unused
          · rw [missing] at own
            exact Bool.noConfusion own
          · rw [full] at unused
            exact Bool.noConfusion unused
      obtain ⟨j, b, here, sameKey, active⟩ := rings
      rcases at?_set_eq_some here with ⟨-, isA⟩ | before
      · obtain rfl := Option.some.inj isA
        exact Or.inr (sameKey.symm.trans isKey)
      · exact Or.inl (Rings.of_calmed (calmed_reap tab now) ⟨j, b, before, sameKey, active⟩)

theorem Sound.note {crit : Crit} (sound : Sound tab) : Sound (tab.note key crit now) := by
  rw [AlarmTable.note]
  cases found : tab.slotFor key with
  | none => exact sound
  | some i =>
      refine sound.set (fun _ => rfl) ?_
      intro j b here same
      rcases slotFor_eq_some found with ⟨c, own, keyed⟩ | ⟨missing, -⟩ | ⟨missing, -⟩
      · exact sound.unique j i b c here own (same.trans keyed.symm)
      · exact absurd same (find_eq_none missing here)
      · exact absurd same (find_eq_none missing here)

theorem Rings.of_note {crit : Crit} (rings : Rings (tab.note key crit now) other) :
    Rings tab other := by
  rw [note] at rings
  cases found : tab.slotFor key with
  | none =>
      rw [found] at rings
      exact rings
  | some i =>
      rw [found] at rings
      obtain ⟨j, b, here, sameKey, active⟩ := rings
      rcases at?_set_eq_some here with ⟨-, isA⟩ | before
      · obtain rfl := Option.some.inj isA
        exact absurd active nofun
      · exact ⟨j, b, before, sameKey, active⟩

theorem sound_init : Sound init := by
  have empty : ∀ i, init.at? i = none := by
    intro i
    rw [at?, init, List.getElem?_replicate]
    split_ifs <;> rfl
  constructor
  · intro i j a b found
    rw [empty] at found
    exact absurd found nofun
  · intro i a found
    rw [empty] at found
    exact absurd found nofun

theorem not_rings_init : ¬Rings init key := by
  rintro ⟨i, a, found, -⟩
  have unused := List.eq_of_mem_replicate (mem_of_at? found)
  exact absurd unused nofun

end Rings

end AlarmTable

end PiFire.Rules
