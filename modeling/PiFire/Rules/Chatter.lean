import PiFire.Rules.Shelf

/-!
# Chattering alarms

An alarm that comes and goes is announced only so often: its activations are counted in
windows that begin with one of them, and the fifth of a window shelves it. Over any calls
the announcements of one key in any ten minutes stay within two windows, as long as the
key has an entry of its own and none falls on the instant its shelf ends.
-/

namespace PiFire.Rules

open Transition

namespace AlarmTable

/-! ## The entry of a key -/

/-- The entry of a key, if it has one. -/
def entryOf (tab : AlarmTable) (key : String) : Option Alarm := (tab.find key).bind tab.at?

section Entries

variable {tab : AlarmTable} {key other : String} {now : ℚ} {a : Alarm}

theorem entryOf_eq_some (sound : Sound tab) :
    tab.entryOf key = some a ↔ ∃ i, tab.at? i = some a ∧ a.key = key := by
  rw [entryOf, Option.bind_eq_some_iff]
  constructor
  · rintro ⟨i, found, here⟩
    obtain ⟨b, there, same⟩ := find_eq_some found
    rw [here, Option.some_inj] at there
    exact ⟨i, here, there ▸ same⟩
  · rintro ⟨i, here, same⟩
    obtain ⟨k, found⟩ := Option.isSome_iff_exists.mp (isSome_find here same)
    obtain ⟨b, there, keyed⟩ := find_eq_some found
    obtain rfl := sound.unique k i b a there here (keyed.trans same.symm)
    exact ⟨k, found, here⟩

theorem find_modify {f : Alarm → Alarm} (keys : ∀ a, (f a).key = a.key) (i : ℕ) :
    find (tab.modify i (Option.map f)) key = tab.find key := by
  have same (entry : Option Alarm) :
      (entry.map f).any (·.key == key) = entry.any (·.key == key) := by
    cases entry <;> simp [keys]
  simp only [find]
  induction tab generalizing i with
  | nil => rw [List.modify_nil]
  | cons entry rest ih =>
      cases i with
      | zero => rw [List.modify_zero_cons, List.findIdx?_cons, List.findIdx?_cons, same]
      | succ i =>
          rw [List.modify_succ_cons, List.findIdx?_cons, List.findIdx?_cons, ih]

theorem entryOf_edit {f : Alarm → Alarm} (keys : ∀ a, (f a).key = a.key) :
    (tab.edit key f).entryOf key = (tab.entryOf key).map f := by
  cases found : tab.find key with
  | none => simp [edit, entryOf, found]
  | some i =>
      simp only [edit, entryOf, found, find_modify keys, Option.bind_some]
      rw [at?_modify, if_pos rfl]

theorem entryOf_edit_ne {f : Alarm → Alarm} (keys : ∀ a, (f a).key = a.key)
    (apart : other ≠ key) : (tab.edit other f).entryOf key = tab.entryOf key := by
  cases changed : tab.find other with
  | none => simp [edit, changed]
  | some i =>
      simp only [edit, entryOf, changed, find_modify keys]
      cases found : tab.find key with
      | none => rfl
      | some j =>
          obtain ⟨a, here, isOther⟩ := find_eq_some changed
          obtain ⟨b, there, isKey⟩ := find_eq_some found
          have elsewhere : i ≠ j := by
            rintro rfl
            rw [here, Option.some_inj] at there
            exact apart (isOther.symm.trans (there ▸ isKey))
          rw [Option.bind_some, Option.bind_some, at?_modify, if_neg elsewhere]

theorem entryOf_ackAll : (tab.ackAll now).entryOf key = (tab.entryOf key).map (seenListed now) := by
  have found : (tab.ackAll now).find key = tab.find key := by
    rw [find, ackAll, List.findIdx?_map, find]
    congr 1
    funext entry
    cases entry <;> simp [(calms_seenListed now).key]
  rw [entryOf, found, entryOf]
  cases tab.find key with
  | none => rfl
  | some i => rw [Option.bind_some, Option.bind_some, ackAll, at?_map _ rfl]

theorem entryOf_reap (sound : Sound tab) :
    (tab.reap now).entryOf key = (tab.entryOf key).filter fun a => !spent now a := by
  have reaped := sound.calmed (calmed_reap tab now)
  apply Option.ext
  intro a
  rw [entryOf_eq_some reaped, Option.filter_eq_some_iff, entryOf_eq_some sound]
  constructor
  · rintro ⟨i, here, isKey⟩
    rw [reap, at?_map _ rfl, Option.filter_eq_some_iff] at here
    exact ⟨⟨i, here.1, isKey⟩, here.2⟩
  · rintro ⟨⟨i, here, isKey⟩, kept⟩
    refine ⟨i, ?_, isKey⟩
    rw [reap, at?_map _ rfl, Option.filter_eq_some_iff]
    exact ⟨here, kept⟩

theorem entryOf_set_ne {i : ℕ} (sound : Sound tab) (after : Sound (tab.set i (some a)))
    (new : a.key ≠ key) (old : ∀ b, tab.at? i = some b → b.key ≠ key) :
    entryOf (tab.set i (some a)) key = tab.entryOf key := by
  apply Option.ext
  intro b
  rw [entryOf_eq_some after, entryOf_eq_some sound]
  constructor
  · rintro ⟨j, here, isKey⟩
    rcases at?_set_eq_some here with ⟨-, isNew⟩ | before
    · cases isNew
      exact absurd isKey new
    · exact ⟨j, before, isKey⟩
  · rintro ⟨j, here, isKey⟩
    refine ⟨j, ?_, isKey⟩
    rw [at?_set_ne, here]
    rintro rfl
    exact old b here isKey

theorem entryOf_raise_ne {crit : Crit} (sound : Sound tab) (apart : other ≠ key)
    (stays : (tab.reap now).evicted other ≠ some key) :
    (tab.raise other crit now).2.entryOf key = (tab.reap now).entryOf key := by
  have reaped := sound.calmed (calmed_reap tab now)
  cases found : (tab.reap now).slotFor other with
  | none => simp [raise, found]
  | some i =>
      obtain ⟨a, eq, -, keyed⟩ := raise_eq crit found
      have unlike : ∀ b, (tab.reap now).at? i = some b → b.key ≠ key := by
        rintro b here rfl
        exact stays (evicted_eq_some.mpr ⟨Ne.symm apart, i, b, found, here, rfl⟩)
      have after : Sound (tab.raise other crit now).2 := sound.raise
      rw [eq] at after ⊢
      apply entryOf_set_ne reaped after _ unlike
      rw [keyed]
      cases here : (tab.reap now).at? i with
      | none => exact apart
      | some b => exact unlike b here

theorem entryOf_note_ne {crit : Crit} (sound : Sound tab) (apart : other ≠ key)
    (stays : tab.evicted other ≠ some key) :
    (tab.note other crit now).entryOf key = tab.entryOf key := by
  have after : Sound (tab.note other crit now) := sound.note
  rw [note] at after ⊢
  cases found : tab.slotFor other with
  | none => rfl
  | some i =>
      rw [found] at after
      apply entryOf_set_ne sound after apart
      rintro b here rfl
      exact stays (evicted_eq_some.mpr ⟨Ne.symm apart, i, b, found, here, rfl⟩)

/-- What a raise writes into the entry it found. -/
def raised (crit : Crit) (now : ℚ) (found : Alarm) : Alarm :=
  let a := { found with crit := crit, notice := false, retired := false }
  if a.active then a else activate now a

theorem raise_room (crit : Crit) (sound : Sound tab) (room : HasRoom key now tab)
    {found : Alarm} (isFound : ((tab.reap now).entryOf key).getD (blank key now) = found) :
    (tab.raise key crit now).2.entryOf key = some (raised crit now found) ∧
      (tab.raise key crit now).1 =
        (!found.active && !decide (now < (raised crit now found).shelvedUntil)) := by
  have reaped := sound.calmed (calmed_reap tab now)
  have after : Sound (tab.raise key crit now).2 := sound.raise
  have given : (tab.reap now).slotFor key ≠ none := by
    intro nothing
    obtain ⟨missing, full, -⟩ := slotFor_eq_none.mp nothing
    rcases room with own | unused
    · rw [missing] at own
      cases own
    · rw [full] at unused
      cases unused
  obtain ⟨i, place⟩ := Option.ne_none_iff_exists'.mp given
  have own : (tab.reap now).at? i = (tab.reap now).entryOf key := by
    rcases slotFor_cases place with ⟨c, here, same⟩ | ⟨missing, unused, -⟩ | ⟨missing, full, -⟩
    · rw [here, eq_comm]
      exact (entryOf_eq_some reaped).mpr ⟨i, here, same⟩
    · rw [unused, entryOf, missing]
      rfl
    · rcases room with own | unused
      · rw [missing] at own
        cases own
      · rw [full] at unused
        cases unused
  have isKey : found.key = key := by
    rw [← isFound]
    cases here : (tab.reap now).entryOf key with
    | none => rfl
    | some b =>
        obtain ⟨-, -, same⟩ := (entryOf_eq_some reaped).mp here
        exact same
  rw [raise, place] at after ⊢
  dsimp only at after ⊢
  rw [own, isFound] at after ⊢
  refine ⟨(entryOf_eq_some after).mpr ⟨i, at?_set_self (slotFor_lt place), ?_⟩, rfl⟩
  rw [raised]
  dsimp only
  split_ifs
  · exact isKey
  · rw [activate_key]
    exact isKey

theorem raise_none (crit : Crit) (nothing : (tab.reap now).slotFor key = none) :
    (tab.raise key crit now).2.entryOf key = none ∧ (tab.raise key crit now).1 = false := by
  rw [raise, nothing]
  refine ⟨?_, rfl⟩
  rw [entryOf, (slotFor_eq_none.mp nothing).1]
  rfl

end Entries

/-! ## What a call does to a key -/

/-- Whether a call answers that a key is to be announced. -/
def tells (key : String) (c : Call) (tab : AlarmTable) : Bool :=
  match c.op with
  | .raise other crit => other == key && (tab.raise other crit c.now).1
  | _ => false

/-- Whether the alarm of a key is active. -/
def isActive (key : String) (tab : AlarmTable) : Bool := (tab.entryOf key).any Alarm.active

/-- Whether a call makes the alarm of a key active. -/
def rises (key : String) (c : Call) (tab : AlarmTable) : Bool :=
  !isActive key tab && isActive key (work c tab)

/-- A call raises a key. -/
def Raises (key : String) (c : Call) : Prop :=
  match c.op with
  | .raise other _ => other = key
  | _ => False

/-- A call puts no shelf on a key, and notes nothing under it. -/
def Plain (key : String) (c : Call) : Prop :=
  match c.op with
  | .shelve other _ => other ≠ key
  | .note code _ => noteKey code c.now ≠ key
  | _ => True

/-- The table, the times at which a key was announced and those at which it became
active, the latest first, and the time of the last call. -/
structure Books where
  tab : AlarmTable
  said : List ℚ
  rose : List ℚ
  clock : ℚ

namespace Books

def start : Books := ⟨AlarmTable.init, [], [], 0⟩

def record (key : String) (c : Call) (b : Books) : Books where
  tab := work c b.tab
  said := if tells key c b.tab then c.now :: b.said else b.said
  rose := if rises key c b.tab then c.now :: b.rose else b.rose
  clock := c.now

end Books

/-- How many of some times are in the ten minutes from an instant on. -/
def within (t : ℚ) (times : List ℚ) : ℕ :=
  times.countP fun s => decide (t ≤ s ∧ s ≤ t + chatterWindow)

/-- A call about which the law is promised: the clock does not go back, the key is given
an entry of its own if one can be given at all and keeps it, nobody shelves it by hand,
and it is not raised for a fifth time in a window at the very instant its shelf ends. -/
structure Steady (key : String) (c : Call) (b : Books) : Prop where
  clocked : 0 < c.now ∧ b.clock ≤ c.now
  roomy : c.key? = some key → Roomy c b.tab
  stays : c.evicted? b.tab ≠ some key
  plain : Plain key c
  ended : Raises key c → ∀ a ∈ (b.tab.reap c.now).entryOf key,
    a.active = false → a.shelvedUntil = c.now → c.now - a.windowStart ≤ chatterWindow →
      a.windowRaises + 1 < chatterRaises

instance (key : String) (c : Call) : Decidable (Raises key c) := by
  unfold Raises
  split <;> infer_instance

instance (key : String) (c : Call) : Decidable (Plain key c) := by
  unfold Plain
  split <;> infer_instance

instance (key : String) (c : Call) (b : Books) : Decidable (Steady key c b) :=
  decidable_of_iff
    ((0 < c.now ∧ b.clock ≤ c.now) ∧ (c.key? = some key → Roomy c b.tab) ∧
      c.evicted? b.tab ≠ some key ∧ Plain key c ∧
        (Raises key c → ∀ a ∈ (b.tab.reap c.now).entryOf key,
          a.active = false → a.shelvedUntil = c.now → c.now - a.windowStart ≤ chatterWindow →
            a.windowRaises + 1 < chatterRaises))
    ⟨fun ⟨clocked, roomy, stays, plain, ended⟩ => ⟨clocked, roomy, stays, plain, ended⟩,
      fun ⟨clocked, roomy, stays, plain, ended⟩ => ⟨clocked, roomy, stays, plain, ended⟩⟩

/-! ## What an entry knows -/

section Told

variable {said rose : List ℚ} {clock now t : ℚ} {a : Alarm}

/-- The counters of an entry against the times of its key. -/
structure Told (said rose : List ℚ) (clock : ℚ) (a : Alarm) : Prop where
  since : a.windowStart ≤ clock
  closed : ∀ s ∈ said, s ≤ a.windowStart + chatterWindow
  opened : said.countP (fun s => decide (a.windowStart ≤ s)) ≤ min a.windowRaises (chatterRaises - 1)
  earlier : said.countP (fun s =>
    decide (a.windowStart - chatterWindow ≤ s ∧ s < a.windowStart)) ≤ chatterRaises - 1
  counted : a.windowRaises ≤ within a.windowStart rose
  shelved : a.shelvedUntil = 0 ∨ ∃ t, chatterRaises ≤ within t rose

/-- What is over was over after the last announcement, and what is active has not ended. -/
structure Rested (said : List ℚ) (a : Alarm) : Prop where
  gone : a.active = false → 0 < a.clearedTs ∧ ∀ s ∈ said, s ≤ a.clearedTs
  standing : a.active = true → a.clearedTs = 0

theorem within_cons (t s : ℚ) (times : List ℚ) :
    within t (s :: times) = within t times + if t ≤ s ∧ s ≤ t + chatterWindow then 1 else 0 := by
  rw [within, List.countP_cons]
  simp only [decide_eq_true_eq]
  rfl

theorem within_cons_le (t s : ℚ) (times : List ℚ) : within t times ≤ within t (s :: times) := by
  rw [within_cons]
  exact Nat.le_add_right _ _

theorem within_cons_inside {s : ℚ} (times : List ℚ) (from_ : t ≤ s)
    (until_ : s ≤ t + chatterWindow) : within t (s :: times) = within t times + 1 := by
  rw [within_cons, if_pos ⟨from_, until_⟩]

theorem countP_le_add {p q r : ℚ → Bool} {times : List ℚ}
    (covers : ∀ s ∈ times, p s = true → q s = true ∨ r s = true) :
    times.countP p ≤ times.countP q + times.countP r := by
  induction times with
  | nil => exact Nat.le_refl 0
  | cons s rest ih =>
      have later := ih fun x inside => covers x (List.mem_cons_of_mem s inside)
      have first := covers s List.mem_cons_self
      simp only [List.countP_cons]
      split_ifs <;> simp_all <;> omega

theorem Told.later (told : Told said rose clock a) (after : clock ≤ now) : Told said rose now a :=
  { told with since := told.since.trans after }

theorem Told.congr {b : Alarm} (told : Told said rose clock a)
    (start : b.windowStart = a.windowStart) (raises : b.windowRaises = a.windowRaises)
    (shelf : b.shelvedUntil = a.shelvedUntil) : Told said rose clock b where
  since := start ▸ told.since
  closed := start ▸ told.closed
  opened := by
    rw [start, raises]
    exact told.opened
  earlier := by
    rw [start]
    exact told.earlier
  counted := by
    rw [start, raises]
    exact told.counted
  shelved := by
    rw [shelf]
    exact told.shelved

theorem told_blank (key : String) (silent : ∀ s ∈ said, s < now - chatterWindow * 2) :
    Told said rose now (blank key now) := by
  have apart : ∀ s ∈ said, s < now - chatterWindow := by
    intro s inside
    have long := silent s inside
    rw [chatterWindow] at long ⊢
    linarith
  have positive : (0 : ℚ) < chatterWindow := by
    rw [chatterWindow]
    norm_num
  refine ⟨le_refl _, ?_, ?_, ?_, Nat.zero_le _, Or.inl rfl⟩
  · intro s inside
    dsimp only [blank]
    linarith [apart s inside]
  · apply Nat.le_of_eq
    rw [List.countP_eq_zero.mpr]
    · rfl
    · intro s inside
      rw [decide_eq_true_eq, not_le]
      dsimp only [blank]
      linarith [apart s inside]
  · rw [List.countP_eq_zero.mpr]
    · exact Nat.zero_le _
    · intro s inside
      rw [decide_eq_true_eq]
      rintro ⟨recent, -⟩
      dsimp only [blank] at recent
      linarith [apart s inside]

/-- The windows that reach the present hold what two of an entry's windows hold. -/
theorem Told.recent (told : Told said rose clock a) (reaches : clock - chatterWindow ≤ t) :
    within t said ≤ 2 * (chatterRaises - 1) := by
  have split : within t said ≤ said.countP (fun s => decide (a.windowStart ≤ s)) +
      said.countP (fun s =>
        decide (a.windowStart - chatterWindow ≤ s ∧ s < a.windowStart)) := by
    apply countP_le_add
    intro s _ inside
    rw [decide_eq_true_eq] at inside
    by_cases opened : a.windowStart ≤ s
    · exact Or.inl (decide_eq_true opened)
    · right
      rw [decide_eq_true_eq]
      exact ⟨by linarith [told.since, inside.1], not_le.mp opened⟩
  have opened := told.opened
  have earlier := told.earlier
  have four : chatterRaises - 1 = 4 := rfl
  rw [four] at opened earlier ⊢
  omega

/-! ### An activation -/

theorem activate_anew (long : chatterWindow < now - a.windowStart) :
    (activate now a).windowStart = now ∧ (activate now a).windowRaises = 1 := by
  rw [activate]
  simp only [if_pos long]
  split_ifs <;> exact ⟨rfl, rfl⟩

theorem activate_again (short : ¬chatterWindow < now - a.windowStart) :
    (activate now a).windowStart = a.windowStart ∧
      (activate now a).windowRaises = a.windowRaises + 1 := by
  rw [activate]
  simp only [if_neg short]
  split_ifs <;> exact ⟨rfl, rfl⟩

theorem activate_shelf :
    (activate now a).shelvedUntil =
      if chatterRaises ≤ (activate now a).windowRaises ∧ a.shelvedUntil < now then
        now + chatterShelf
      else a.shelvedUntil := by
  by_cases long : chatterWindow < now - a.windowStart
  · rw [(activate_anew long).2, activate]
    simp only [if_pos long]
    split_ifs <;> rfl
  · rw [(activate_again long).2, activate]
    simp only [if_neg long]
    split_ifs <;> rfl

theorem activate_clearedTs : (activate now a).clearedTs = 0 := by
  rw [activate]
  simp only
  split_ifs <;> rfl

theorem activate_few (heard : ¬now < (activate now a).shelvedUntil)
    (ended : a.shelvedUntil = now → now - a.windowStart ≤ chatterWindow →
      a.windowRaises + 1 < chatterRaises) :
    (activate now a).windowRaises ≤ chatterRaises - 1 := by
  by_contra many
  have fifth : chatterRaises ≤ (activate now a).windowRaises := by
    have five : chatterRaises = 5 := rfl
    omega
  have positive : (0 : ℚ) < chatterShelf := by
    rw [chatterShelf]
    norm_num
  rw [activate_shelf] at heard
  split_ifs at heard with shelves
  · linarith
  have same : a.shelvedUntil = now :=
    le_antisymm (not_lt.mp heard) (not_lt.mp fun before => shelves ⟨fifth, before⟩)
  by_cases long : chatterWindow < now - a.windowStart
  · rw [(activate_anew long).2] at fifth
    exact absurd fifth (by decide)
  · rw [(activate_again long).2] at fifth
    exact absurd (ended same (not_lt.mp long)) (not_lt.mpr fifth)

theorem Told.behind (told : Told said rose clock a) (long : chatterWindow < now - a.windowStart) :
    said.countP (fun s => decide (now - chatterWindow ≤ s ∧ s < now)) ≤ chatterRaises - 1 := by
  refine le_trans (List.countP_mono_left ?_) (told.opened.trans (min_le_right _ _))
  intro s _ recent
  rw [decide_eq_true_eq] at recent ⊢
  linarith [recent.1]

theorem Told.fresh (told : Told said rose clock a) (long : chatterWindow < now - a.windowStart) :
    said.countP (fun s => decide (now ≤ s)) = 0 := by
  apply List.countP_eq_zero.mpr
  intro s inside
  rw [decide_eq_true_eq, not_le]
  linarith [told.closed s inside]

theorem Told.counts (told : Told said rose now a) :
    (activate now a).windowRaises ≤ within (activate now a).windowStart (now :: rose) := by
  have positive : (0 : ℚ) < chatterWindow := by
    rw [chatterWindow]
    norm_num
  by_cases long : chatterWindow < now - a.windowStart
  · rw [(activate_anew long).1, (activate_anew long).2,
      within_cons_inside rose (le_refl now) (by linarith)]
    exact Nat.le_add_left 1 _
  · rw [(activate_again long).1, (activate_again long).2,
      within_cons_inside rose told.since (by linarith [not_lt.mp long])]
    exact Nat.add_le_add_right told.counted 1

theorem Told.shelves (told : Told said rose now a) : (activate now a).shelvedUntil = 0 ∨
    ∃ t, chatterRaises ≤ within t (now :: rose) := by
  rw [activate_shelf]
  split_ifs with chatters
  · exact Or.inr ⟨_, chatters.1.trans told.counts⟩
  · rcases told.shelved with never | ⟨t, many⟩
    · exact Or.inl never
    · exact Or.inr ⟨t, many.trans (within_cons_le t now rose)⟩

theorem Told.silent (told : Told said rose now a) (past : ∀ s ∈ said, s ≤ now) :
    Told said (now :: rose) now (activate now a) := by
  have positive : (0 : ℚ) < chatterWindow := by
    rw [chatterWindow]
    norm_num
  have counted := told.counts
  have shelved := told.shelves
  by_cases long : chatterWindow < now - a.windowStart
  · obtain ⟨start, raises⟩ := activate_anew long
    refine ⟨start.le, ?_, ?_, ?_, counted, shelved⟩
    · intro s inside
      rw [start]
      linarith [past s inside]
    · rw [start, told.fresh long]
      exact Nat.zero_le _
    · rw [start]
      exact told.behind long
  · obtain ⟨start, raises⟩ := activate_again long
    refine ⟨start ▸ told.since, start ▸ told.closed, ?_, ?_, counted, shelved⟩
    · rw [start, raises]
      exact told.opened.trans (min_le_min_right _ (Nat.le_succ _))
    · rw [start]
      exact told.earlier

theorem Told.loud (told : Told said rose now a) (past : ∀ s ∈ said, s ≤ now)
    (few : (activate now a).windowRaises ≤ chatterRaises - 1) :
    Told (now :: said) (now :: rose) now (activate now a) := by
  have positive : (0 : ℚ) < chatterWindow := by
    rw [chatterWindow]
    norm_num
  have before := told.silent past
  have starts : (activate now a).windowStart ≤ now := before.since
  refine { before with closed := ?_, opened := ?_, earlier := ?_ }
  · intro s inside
    rcases List.mem_cons.mp inside with rfl | old
    · by_cases long : chatterWindow < s - a.windowStart
      · rw [(activate_anew long).1]
        linarith
      · rw [(activate_again long).1]
        linarith [not_lt.mp long]
    · exact before.closed s old
  · rw [min_eq_left few, List.countP_cons, if_pos (decide_eq_true starts)]
    by_cases long : chatterWindow < now - a.windowStart
    · rw [(activate_anew long).1, (activate_anew long).2, told.fresh long]
    · rw [(activate_again long).1, (activate_again long).2]
      exact Nat.add_le_add_right (told.opened.trans (min_le_left _ _)) 1
  · rw [List.countP_cons, if_neg]
    · exact before.earlier
    · rw [decide_eq_true_eq]
      rintro ⟨-, sooner⟩
      exact absurd starts (not_le.mpr sooner)

/-! ### A change that is no activation -/

/-- A change that leaves the counters, activates nothing, and notes when it ends something. -/
structure Eases (now : ℚ) (f : Alarm → Alarm) : Prop where
  start : ∀ a, (f a).windowStart = a.windowStart
  raises : ∀ a, (f a).windowRaises = a.windowRaises
  shelf : ∀ a, (f a).shelvedUntil = a.shelvedUntil
  stands : ∀ a, (f a).active = true → a.active = true ∧ (f a).clearedTs = a.clearedTs
  ends : ∀ a, (a.active = true → a.clearedTs = 0) → (a.retired = true → a.active = false) →
    (f a).active = false →
      (f a).clearedTs = now ∨ a.active = false ∧ (f a).clearedTs = a.clearedTs

theorem eases_over (now : ℚ) : Eases now (isOver now) where
  start a := by
    rw [isOver]
    split_ifs <;> rfl
  raises a := by
    rw [isOver]
    split_ifs <;> rfl
  shelf a := over_shelvedUntil a
  stands a := by
    rw [isOver]
    split_ifs
    · rintro ⟨⟩
    · exact fun active => ⟨active, rfl⟩
  ends a _ _ := by
    rw [isOver]
    split_ifs
    · exact fun _ => Or.inl rfl
    · exact fun inactive => Or.inr ⟨inactive, rfl⟩

theorem eases_gone (now : ℚ) : Eases now (gone now) where
  start a := by
    rw [gone]
    split_ifs <;> rfl
  raises a := by
    rw [gone]
    split_ifs <;> rfl
  shelf a := gone_shelvedUntil a
  stands a := by
    rw [gone]
    by_cases retired : a.retired = true
    · rw [if_pos retired]
      exact fun active => ⟨active, rfl⟩
    · rw [if_neg retired]
      rintro ⟨⟩
  ends a standing quiet := by
    rw [gone]
    by_cases retired : a.retired = true
    · rw [if_pos retired]
      exact fun inactive => Or.inr ⟨inactive, rfl⟩
    · rw [if_neg retired]
      intro _
      dsimp only
      split_ifs with zero
      · exact Or.inl rfl
      · refine Or.inr ⟨?_, rfl⟩
        exact Bool.eq_false_of_not_eq_true fun active => zero (standing active)

theorem eases_seen (now : ℚ) : Eases now (seen now) where
  start _ := rfl
  raises _ := rfl
  shelf _ := rfl
  stands a active := by
    have isActive : a.active = true := active
    exact ⟨isActive, by simp [seen, isActive]⟩
  ends a _ _ inactive := by
    have isOver : a.active = false := inactive
    by_cases zero : a.clearedTs = 0
    · exact Or.inl (by simp [seen, isOver, zero])
    · exact Or.inr ⟨isOver, by simp [seen, zero]⟩

theorem eases_seenListed (now : ℚ) : Eases now (seenListed now) := by
  have each (a : Alarm) : seenListed now a = a ∨ seenListed now a = seen now a := by
    rw [seenListed]
    split_ifs
    · exact Or.inl rfl
    · exact Or.inr rfl
  have seen := eases_seen now
  constructor
  · intro a
    rcases each a with same | same <;> rw [same]
    exact seen.start a
  · intro a
    rcases each a with same | same <;> rw [same]
    exact seen.raises a
  · intro a
    rcases each a with same | same <;> rw [same]
    exact seen.shelf a
  · intro a
    rcases each a with same | same <;> rw [same]
    · exact fun active => ⟨active, rfl⟩
    · exact seen.stands a
  · intro a standing quiet
    rcases each a with same | same <;> rw [same]
    · exact fun inactive => Or.inr ⟨inactive, rfl⟩
    · exact seen.ends a standing quiet

theorem Rested.eases {f : Alarm → Alarm} (rested : Rested said a) (eases : Eases now f)
    (quiet : a.retired = true → a.active = false) (positive : 0 < now)
    (past : ∀ s ∈ said, s ≤ now) : Rested said (f a) where
  gone := by
    intro inactive
    rcases eases.ends a rested.standing quiet inactive with isNow | ⟨isOver, same⟩
    · rw [isNow]
      exact ⟨positive, past⟩
    · rw [same]
      exact rested.gone isOver
  standing := by
    intro active
    obtain ⟨was, same⟩ := eases.stands a active
    rw [same]
    exact rested.standing was

end Told

/-! ## The law over runs -/

section Law

variable {key other : String} {c : Call} {b : Books} {a : Alarm} {tab : AlarmTable} {now : ℚ}

/-- The counters of an entry and its end agree with the times of its key. -/
structure Knows (said rose : List ℚ) (clock : ℚ) (a : Alarm) : Prop where
  told : Told said rose clock a
  rested : Rested said a

/-- The table is sound, no ten minutes have heard more than two windows may say, the
entry of the key knows the times, and without one nothing was said lately. -/
structure Counted (key : String) (b : Books) : Prop where
  sound : Sound b.tab
  past : ∀ s ∈ b.said, s ≤ b.clock
  few : ∀ t, within t b.said ≤ 2 * (chatterRaises - 1)
  entry : ∀ a, b.tab.entryOf key = some a → Knows b.said b.rose b.clock a
  absent : b.tab.entryOf key = none → ∀ s ∈ b.said, s < b.clock - chatterWindow * 2

theorem counted_start (key : String) : Counted key Books.start := by
  refine ⟨sound_init, nofun, fun t => Nat.zero_le _, ?_, nofun⟩
  intro a here
  obtain ⟨i, found, -⟩ := (entryOf_eq_some sound_init).mp here
  exact absurd (List.eq_of_mem_replicate (mem_of_at? found)) nofun

/-- The entry of a key in a table, against the times. -/
structure Stands (key : String) (said rose : List ℚ) (clock : ℚ) (tab : AlarmTable) : Prop where
  entry : ∀ a, tab.entryOf key = some a → Knows said rose clock a
  absent : tab.entryOf key = none → ∀ s ∈ said, s < clock - chatterWindow * 2

theorem Counted.stands (counted : Counted key b) (clocked : b.clock ≤ now) :
    Stands key b.said b.rose now b.tab where
  entry a here := ⟨(counted.entry a here).told.later clocked, (counted.entry a here).rested⟩
  absent missing s inside := by linarith [counted.absent missing s inside]

theorem quiet_of_entryOf (sound : Sound tab) (here : tab.entryOf key = some a) :
    a.retired = true → a.active = false := by
  obtain ⟨i, found, -⟩ := (entryOf_eq_some sound).mp here
  exact sound.quiet i a found

theorem Stands.reap {said rose : List ℚ} (stands : Stands key said rose now tab)
    (sound : Sound tab) : Stands key said rose now (tab.reap now) where
  entry a here := by
    rw [entryOf_reap sound, Option.filter_eq_some_iff] at here
    exact stands.entry a here.1
  absent missing := by
    rw [entryOf_reap sound] at missing
    cases here : tab.entryOf key with
    | none => exact stands.absent here
    | some a =>
        rw [here, Option.filter_eq_none_iff] at missing
        have isSpent : spent now a = true := by simpa using missing a rfl
        simp only [spent, Bool.and_eq_true, decide_eq_true_eq] at isSpent
        obtain ⟨⟨retired, long⟩, -⟩ := isSpent
        intro s inside
        have isOver := quiet_of_entryOf sound here retired
        linarith [((stands.entry a here).rested.gone isOver).2 s inside]

theorem Stands.of_eq {said rose : List ℚ} {tab' : AlarmTable}
    (stands : Stands key said rose now tab) (same : tab'.entryOf key = tab.entryOf key) :
    Stands key said rose now tab' where
  entry a here := stands.entry a (same ▸ here)
  absent missing := stands.absent (same ▸ missing)

theorem Stands.eased {said rose : List ℚ} {tab' : AlarmTable} {f : Alarm → Alarm}
    (stands : Stands key said rose now tab) (sound : Sound tab) (eases : Eases now f)
    (positive : 0 < now) (past : ∀ s ∈ said, s ≤ now)
    (same : tab'.entryOf key = (tab.entryOf key).map f) : Stands key said rose now tab' where
  entry b here := by
    rw [same, Option.map_eq_some_iff] at here
    obtain ⟨a, before, rfl⟩ := here
    obtain ⟨told, rested⟩ := stands.entry a before
    exact ⟨told.congr (eases.start a) (eases.raises a) (eases.shelf a),
      rested.eases eases (quiet_of_entryOf sound before) positive past⟩
  absent missing := by
    rw [same, Option.map_eq_none_iff] at missing
    exact stands.absent missing

/-! ### Calls that do not raise the key -/

theorem rises_eq_false (was : ∀ a, (work c tab).entryOf key = some a → a.active = true →
    ∃ a', tab.entryOf key = some a' ∧ a'.active = true) : rises key c tab = false := by
  cases after : isActive key (work c tab) with
  | false => rw [rises, after, Bool.and_false]
  | true =>
      obtain ⟨a, here, active⟩ := (Option.any_eq_true _ _).mp after
      obtain ⟨a', before, wasActive⟩ := was a here active
      rw [rises, isActive, before, Option.any_some, wasActive]
      rfl

theorem rises_eq_false_of_map {f : Alarm → Alarm} (eases : Eases now f)
    (same : (work c tab).entryOf key = (tab.entryOf key).map f) : rises key c tab = false := by
  apply rises_eq_false
  intro a here active
  rw [same, Option.map_eq_some_iff] at here
  obtain ⟨a', before, rfl⟩ := here
  exact ⟨a', before, (eases.stands a' active).1⟩

theorem rises_eq_false_of_eq (same : (work c tab).entryOf key = tab.entryOf key) :
    rises key c tab = false :=
  rises_eq_false fun a here active => ⟨a, same ▸ here, active⟩

theorem stands_edit {said rose : List ℚ} {f : Alarm → Alarm} (sound : Sound tab)
    (stands : Stands key said rose now tab) (eases : Eases now f)
    (keys : ∀ a, (f a).key = a.key) (positive : 0 < now) (past : ∀ s ∈ said, s ≤ now)
    (isWork : work c tab = tab.edit other f) :
    Stands key said rose now (work c tab) ∧ rises key c tab = false := by
  by_cases same : other = key
  · subst same
    have changed : (work c tab).entryOf other = (tab.entryOf other).map f := by
      rw [isWork, entryOf_edit keys]
    exact ⟨stands.eased sound eases positive past changed, rises_eq_false_of_map eases changed⟩
  · have left : (work c tab).entryOf key = tab.entryOf key := by
      rw [isWork, entryOf_edit_ne keys same]
    exact ⟨stands.of_eq left, rises_eq_false_of_eq left⟩

theorem Counted.aside (counted : Counted key b) (steady : Steady key c b)
    (other : ∀ crit, c.op ≠ .raise key crit) :
    Stands key b.said b.rose c.now (work c b.tab) ∧ rises key c b.tab = false ∧
      tells key c b.tab = false := by
  obtain ⟨op, now⟩ := c
  obtain ⟨⟨positive, clocked⟩, -, stays, plain, -⟩ := steady
  have sound := counted.sound
  have stands := counted.stands clocked
  have past : ∀ s ∈ b.said, s ≤ now := fun s inside => (counted.past s inside).trans clocked
  cases op with
  | raise name crit =>
      have apart : name ≠ key := fun same => other crit (same ▸ rfl)
      have left : (work ⟨.raise name crit, now⟩ b.tab).entryOf key = (b.tab.reap now).entryOf key :=
        entryOf_raise_ne sound apart stays
      refine ⟨(stands.reap sound).of_eq left, ?_, ?_⟩
      · apply rises_eq_false
        intro a here active
        rw [left, entryOf_reap sound, Option.filter_eq_some_iff] at here
        exact ⟨a, here.1, active⟩
      · exact Bool.and_eq_false_iff.mpr (Or.inl (beq_false_of_ne apart))
  | clear name =>
      obtain ⟨after, rises⟩ := stands_edit (c := ⟨.clear name, now⟩) sound stands
        (eases_over now) (calms_over now).key positive past rfl
      exact ⟨after, rises, rfl⟩
  | retire name =>
      obtain ⟨after, rises⟩ := stands_edit (c := ⟨.retire name, now⟩) sound stands
        (eases_gone now) (calms_gone now).key positive past rfl
      exact ⟨after, rises, rfl⟩
  | ack name =>
      obtain ⟨after, rises⟩ := stands_edit (c := ⟨.ack name, now⟩) sound stands
        (eases_seen now) (calms_seen now).key positive past rfl
      exact ⟨after, rises, rfl⟩
  | ackAll =>
      have changed : (work ⟨.ackAll, now⟩ b.tab).entryOf key =
          (b.tab.entryOf key).map (seenListed now) := entryOf_ackAll
      exact ⟨stands.eased sound (eases_seenListed now) positive past changed,
        rises_eq_false_of_map (eases_seenListed now) changed, rfl⟩
  | shelve name seconds =>
      have left : (work ⟨.shelve name seconds, now⟩ b.tab).entryOf key = b.tab.entryOf key :=
        entryOf_edit_ne (calms_hushed seconds now).key plain
      exact ⟨stands.of_eq left, rises_eq_false_of_eq left, rfl⟩
  | note code crit =>
      have left : (work ⟨.note code crit, now⟩ b.tab).entryOf key = b.tab.entryOf key :=
        entryOf_note_ne sound plain stays
      exact ⟨stands.of_eq left, rises_eq_false_of_eq left, rfl⟩

theorem Counted.of_aside (counted : Counted key b) (steady : Steady key c b)
    (stands : Stands key b.said b.rose c.now (work c b.tab))
    (quiet : rises key c b.tab = false) (silent : tells key c b.tab = false) :
    Counted key (b.record key c) := by
  have said : (b.record key c).said = b.said := if_neg (Bool.eq_false_iff.mp silent)
  have rose : (b.record key c).rose = b.rose := if_neg (Bool.eq_false_iff.mp quiet)
  refine ⟨counted.sound.work c, ?_, ?_, ?_, ?_⟩
  · rw [said]
    exact fun s inside => (counted.past s inside).trans steady.clocked.2
  · rw [said]
    exact counted.few
  · rw [said, rose]
    exact stands.entry
  · rw [said]
    exact stands.absent

/-! ### Raises of the key -/

theorem Counted.found (counted : Counted key b) (clocked : b.clock ≤ now) :
    Told b.said b.rose now (((b.tab.reap now).entryOf key).getD (blank key now)) := by
  have stands := (counted.stands clocked).reap counted.sound
  cases here : (b.tab.reap now).entryOf key with
  | none => exact told_blank key (stands.absent here)
  | some a => exact (stands.entry a here).told

theorem Counted.refresh {crit : Crit} (counted : Counted key b)
    (steady : Steady key ⟨.raise key crit, now⟩ b) (room : HasRoom key now b.tab)
    (here : (b.tab.reap now).entryOf key = some a) (active : a.active = true) :
    Counted key (b.record key ⟨.raise key crit, now⟩) ∧
      rises key ⟨.raise key crit, now⟩ b.tab = false := by
  have isFound : ((b.tab.reap now).entryOf key).getD (blank key now) = a := by
    rw [here]
    rfl
  obtain ⟨after, told⟩ := raise_room crit counted.sound room isFound
  have before : b.tab.entryOf key = some a := by
    rw [entryOf_reap counted.sound, Option.filter_eq_some_iff] at here
    exact here.1
  have silent : tells key ⟨.raise key crit, now⟩ b.tab = false := by
    rw [active] at told
    exact Bool.and_eq_false_iff.mpr (Or.inr told)
  have quiet : rises key ⟨.raise key crit, now⟩ b.tab = false :=
    rises_eq_false fun _ _ _ => ⟨a, before, active⟩
  refine ⟨counted.of_aside steady ?_ quiet silent, quiet⟩
  have stands := counted.stands steady.clocked.2
  have known := stands.entry a before
  have same : raised crit now a = { a with crit := crit, notice := false, retired := false } :=
    if_pos active
  constructor
  · intro a' isEntry
    obtain rfl : raised crit now a = a' := Option.some.inj (after.symm.trans isEntry)
    rw [same]
    refine ⟨known.told.congr rfl rfl rfl, ?_, fun _ => known.rested.standing active⟩
    intro inactive
    have not : a.active = false := inactive
    rw [active] at not
    cases not
  · intro missing
    have none_ : (work ⟨.raise key crit, now⟩ b.tab).entryOf key = some (raised crit now a) := after
    rw [missing] at none_
    cases none_

theorem tells_raise (crit : Crit) (sound : Sound tab) (room : HasRoom key now tab)
    (isFound : ((tab.reap now).entryOf key).getD (blank key now) = a)
    (inactive : a.active = false) : tells key ⟨.raise key crit, now⟩ tab =
      !decide (now < (raised crit now a).shelvedUntil) := by
  have told := (raise_room crit sound room isFound).2
  rw [inactive] at told
  rw [tells]
  dsimp only
  rw [told, beq_self_eq_true]
  rfl

theorem rises_raise (crit : Crit) (sound : Sound tab) (room : HasRoom key now tab)
    (isFound : ((tab.reap now).entryOf key).getD (blank key now) = a)
    (inactive : a.active = false) : rises key ⟨.raise key crit, now⟩ tab = true := by
  have after : (work ⟨.raise key crit, now⟩ tab).entryOf key = some (raised crit now a) :=
    (raise_room crit sound room isFound).1
  have fresh : (raised crit now a).active = true := by
    rw [raised]
    dsimp only
    rw [inactive, if_neg Bool.false_ne_true]
    exact activate_active now _
  have was : isActive key tab = false := by
    cases here : tab.entryOf key with
    | none =>
        rw [isActive, here]
        rfl
    | some a' =>
        rw [isActive, here]
        by_cases gone : spent now a' = true
        · have retired : a'.retired = true := by
            simp only [spent, Bool.and_eq_true] at gone
            exact gone.1.1
          exact quiet_of_entryOf sound here retired
        · have kept : (some a').filter (fun a => !spent now a) = some a' := by
            simp [Bool.eq_false_of_not_eq_true gone]
          rw [entryOf_reap sound, here, kept] at isFound
          exact (congrArg Alarm.active isFound).trans inactive
  rw [rises, was, isActive, after]
  exact fresh

theorem Stands.of_active {said rose : List ℚ} (here : tab.entryOf key = some a)
    (told : Told said rose now a) (active : a.active = true) (uncleared : a.clearedTs = 0) :
    Stands key said rose now tab := by
  constructor
  · intro a' isEntry
    obtain rfl : a = a' := Option.some.inj (here.symm.trans isEntry)
    refine ⟨told, fun inactive => ?_, fun _ => uncleared⟩
    rw [active] at inactive
    cases inactive
  · intro missing
    rw [here] at missing
    cases missing

theorem Counted.of_stands {said rose : List ℚ} (sound : Sound tab) (past : ∀ s ∈ said, s ≤ now)
    (few : ∀ t, within t said ≤ 2 * (chatterRaises - 1)) (stands : Stands key said rose now tab) :
    Counted key ⟨tab, said, rose, now⟩ :=
  ⟨sound, past, few, stands.entry, stands.absent⟩

theorem Counted.rise {crit : Crit} (counted : Counted key b)
    (steady : Steady key ⟨.raise key crit, now⟩ b) (room : HasRoom key now b.tab)
    (isFound : ((b.tab.reap now).entryOf key).getD (blank key now) = a)
    (inactive : a.active = false) :
    Counted key (b.record key ⟨.raise key crit, now⟩) ∧
      ((∀ t, within t (now :: b.rose) < chatterRaises) →
        tells key ⟨.raise key crit, now⟩ b.tab = true) := by
  obtain ⟨⟨positive, clocked⟩, -, -, -, ended⟩ := steady
  have sound : Sound (work ⟨.raise key crit, now⟩ b.tab) := counted.sound.work _
  have past : ∀ s ∈ b.said, s ≤ now := fun s inside => (counted.past s inside).trans clocked
  have after : (work ⟨.raise key crit, now⟩ b.tab).entryOf key = some (raised crit now a) :=
    (raise_room crit counted.sound room isFound).1
  have rises := rises_raise crit counted.sound room isFound inactive
  have tells := tells_raise crit counted.sound room isFound inactive
  -- what the raise renews beside the counters is read by none of them
  have fresh : raised crit now a =
      activate now { a with crit := crit, notice := false, retired := false } :=
    if_neg (by simp [inactive])
  have known : Told b.said b.rose now
      { a with crit := crit, notice := false, retired := false } :=
    (isFound ▸ counted.found clocked).congr rfl rfl rfl
  rw [fresh] at after tells
  rw [Books.record, rises, if_pos rfl]
  constructor
  · by_cases shelved : now < (raised crit now a).shelvedUntil
    · rw [fresh] at shelved
      rw [if_neg (by simp [tells, shelved])]
      apply Counted.of_stands sound past counted.few
      exact Stands.of_active after (known.silent past) (activate_active now _) activate_clearedTs
    · rw [fresh] at shelved
      rw [if_pos (by simp [tells, shelved])]
      have few := activate_few shelved fun ends short => by
        cases here : (b.tab.reap now).entryOf key with
        | none =>
            rw [here] at isFound
            subst isFound
            exact absurd ends (ne_of_lt positive)
        | some a' =>
            rw [here] at isFound
            have same : a' = a := isFound
            subst same
            exact ended rfl a' here inactive ends short
      have loud := known.loud past few
      apply Counted.of_stands sound
      · intro s inside
        rcases List.mem_cons.mp inside with rfl | old
        · exact le_refl _
        · exact past s old
      · intro t
        by_cases reaches : now - chatterWindow ≤ t
        · exact loud.recent reaches
        · rw [within_cons, if_neg]
          · exact counted.few t
          · rintro ⟨-, late⟩
            exact reaches (by linarith)
      · exact Stands.of_active after loud (activate_active now _) activate_clearedTs
  · intro sparse
    rcases known.shelves with never | ⟨t, many⟩
    · rw [tells, never]
      simp [positive.le]
    · exact absurd (sparse t) (not_lt.mpr many)

/-- Where the key became active in no ten minutes as often as silences it, it is announced. -/
def Heard (key : String) (c : Call) (b : Books) : Prop :=
  rises key c b.tab = true → (∀ t, within t (c.now :: b.rose) < chatterRaises) →
    tells key c b.tab = true

theorem Counted.step (counted : Counted key b) (steady : Steady key c b) :
    Counted key (b.record key c) ∧ Heard key c b := by
  by_cases about : ∃ crit, c.op = .raise key crit
  · obtain ⟨op, now⟩ := c
    obtain ⟨crit, isRaise⟩ := about
    have isOp : op = .raise key crit := isRaise
    subst isOp
    cases place : (b.tab.reap now).slotFor key with
    | none =>
        obtain ⟨missing, silent⟩ := raise_none crit place
        have isAfter : (work ⟨.raise key crit, now⟩ b.tab).entryOf key = none := missing
        have quiet : rises key ⟨.raise key crit, now⟩ b.tab = false := by
          apply rises_eq_false
          intro a here
          rw [isAfter] at here
          cases here
        have left : (work ⟨.raise key crit, now⟩ b.tab).entryOf key =
            (b.tab.reap now).entryOf key := by
          rw [isAfter, entryOf, (slotFor_eq_none.mp place).1]
          rfl
        have stands := ((counted.stands steady.clocked.2).reap counted.sound).of_eq left
        refine ⟨counted.of_aside steady stands quiet ?_, fun rises => ?_⟩
        · exact Bool.and_eq_false_iff.mpr (Or.inr silent)
        · rw [quiet] at rises
          cases rises
    | some i =>
        have room : HasRoom key now b.tab := by
          have kept := (kept_iff counted.sound).mpr (steady.roomy rfl)
          have stands : Standing (b.tab.raise key crit now).2 key := by
            apply kept.raised key crit rfl
            rw [place]
            rfl
          exact (standing_raise_iff counted.sound place).mp stands
        cases active : (((b.tab.reap now).entryOf key).getD (blank key now)).active with
        | false =>
            obtain ⟨after, heard⟩ := counted.rise steady room rfl active
            exact ⟨after, fun _ => heard⟩
        | true =>
            cases here : (b.tab.reap now).entryOf key with
            | none =>
                rw [here] at active
                cases active
            | some a =>
                rw [here] at active
                obtain ⟨after, quiet⟩ := counted.refresh steady room here active
                refine ⟨after, fun rises => ?_⟩
                rw [quiet] at rises
                cases rises
  · have other : ∀ crit, c.op ≠ .raise key crit := fun crit same => about ⟨crit, same⟩
    obtain ⟨stands, quiet, silent⟩ := counted.aside steady other
    refine ⟨counted.of_aside steady stands quiet silent, fun rises => ?_⟩
    rw [quiet] at rises
    cases rises

/-- Over any calls that are steady no ten minutes hear a key more often than two windows
may say, and a key that becomes active more rarely than silences it is always announced. -/
theorem chatter_bounded (key : String) (calls : List Call)
    (steady : Along (Books.record key) (Steady key) calls Books.start) :
    (∀ t, within t (run (Books.record key) calls Books.start).said ≤ 2 * (chatterRaises - 1)) ∧
      Along (Books.record key) (Heard key) calls Books.start := by
  constructor
  · have counted : Counted key (run (Books.record key) calls Books.start) :=
      run_preserves (Steady key) (Counted key) (fun c b counted steady => (counted.step steady).1)
        (counted_start key) steady
    exact counted.few
  · exact Along.strengthen (Counted key) (fun c b counted steady => (counted.step steady).1)
      (fun c b counted steady => (counted.step steady).2) (counted_start key) steady

/-- A probe that comes and goes beside another one. -/
def benchProbe : List Call :=
  [⟨.raise "probe" .high, 10⟩, ⟨.raise "grill" .high, 11⟩, ⟨.clear "probe", 12⟩,
    ⟨.raise "probe" .high, 700⟩, ⟨.ackAll, 710⟩, ⟨.clear "probe", 720⟩]

theorem chatter_bounded_on_bench :
    (∀ t, within t (run (Books.record "probe") benchProbe Books.start).said ≤ 8) ∧
      Along (Books.record "probe") (Heard "probe") benchProbe Books.start :=
  chatter_bounded "probe" benchProbe (by decide +kernel)

end Law

/-- A call raises or clears a key. -/
def Moves (key : String) (c : Call) : Prop :=
  match c.op with
  | .raise other _ | .clear other => other = key
  | _ => False

instance (key : String) (c : Call) : Decidable (Moves key c) := by
  unfold Moves
  split <;> infer_instance

/-- An alarm that comes and goes at an instant, some times. -/
def flutter (key : String) (times : ℕ) (now : ℚ) : List Call :=
  (List.replicate times [⟨.raise key .info, now⟩, ⟨.clear key, now⟩]).flatten

/-- At the instant its shelf ends a chattering alarm is neither silenced nor shelved. -/
theorem shelf_end_chatters : ¬∀ (key : String) (calls : List Call),
    (∀ c ∈ calls, Moves key c) →
      (∀ t, within t (run (Books.record key) calls Books.start).said ≤ 2 * (chatterRaises - 1)) ∧
        Along (Books.record key) (Heard key) calls Books.start := by
  intro bounded
  have calls := bounded "probe" (flutter "probe" 5 1 ++ flutter "probe" 4 1700 ++
    flutter "probe" 9 1801) (by decide)
  have nine : within 1801 (run (Books.record "probe") (flutter "probe" 5 1 ++
    flutter "probe" 4 1700 ++ flutter "probe" 9 1801) Books.start).said = 9 := by decide +kernel
  have eight := calls.1 1801
  rw [nine] at eight
  exact absurd eight (by decide)

end AlarmTable

end PiFire.Rules
