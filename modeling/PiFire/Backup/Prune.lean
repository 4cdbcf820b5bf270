import Mathlib
import PiFire.Ranking.Rank

/-!
# The archives of a backup location

An archive is named after the grill and the local time it was made, and a location
is pruned by those names: they are sorted, the greatest first, and from place `keep`
on they are removed. This file has the name, the listing and the pruning.
-/

namespace PiFire.Backup

/-- Local time as `localtime_r` gives it; `year` and `mon` as `strftime` prints them. -/
structure Tm where
  year : ℕ
  mon : ℕ
  mday : ℕ
  hour : ℕ
  min : ℕ
  bounds : mon ≤ 12 ∧ mday ≤ 31 ∧ hour < 24 ∧ min < 60

/-- `sizeof slug - 1`. -/
def slugRoom : ℕ := 39

/-- The loop of `archive_name` over the grill's name; `slug` is what is written so far,
its last character first. -/
def slugLoop : List Char → List Char → List Char
  | slug, [] => slug
  | slug, p :: rest =>
    if slug.length < slugRoom then
      if p.isAlphanum then slugLoop (p.toLower :: slug) rest
      else if slug ≠ [] ∧ slug.head? ≠ some '-' then slugLoop ('-' :: slug) rest
      else slugLoop slug rest
    else slug

/-- The grill's name as it stands in an archive's. -/
def slugOf (grill : List Char) : List Char :=
  let slug := ((slugLoop [] grill).dropWhile (· == '-')).reverse
  if slug = [] then "grill".toList else slug

def digit (n : ℕ) : Char := Char.ofNat ('0'.toNat + n % 10)

/-- `%m`, `%d`, `%H` and `%M`: two digits. -/
def twoDigits (n : ℕ) : List Char := [digit (n / 10), digit n]

/-- `%Y`: as many digits as the year has, and at least four. -/
def yearDigits (n : ℕ) : List Char :=
  if n < 10000 then twoDigits (n / 100) ++ twoDigits n else Nat.toDigits 10 n

/-- `strftime` with `%Y%m%d-%H%M`. -/
def stamp (tm : Tm) : List Char :=
  yearDigits tm.year ++ (twoDigits tm.mon ++ (twoDigits tm.mday ++
    ('-' :: (twoDigits tm.hour ++ twoDigits tm.min))))

/-- `"pifire-"`. -/
def fore : List Char := ['p', 'i', 'f', 'i', 'r', 'e', '-']

/-- `".tar.gz"`. -/
def extension : List Char := ['.', 't', 'a', 'r', '.', 'g', 'z']

/-- `archive_name`; `grill` is `globals.grill_name`, or the host's where it has none. -/
def archiveName (grill : List Char) (tm : Tm) : List Char :=
  fore ++ (slugOf grill ++ ('-' :: (stamp tm ++ extension)))

/-- The characters `is_ours` lets a name have. -/
def nameChar (c : Char) : Bool := c.isAlphanum || c == '-' || c == '_' || c == '.'

/-- `is_ours`. -/
def isOurs (name : List Char) : Bool :=
  14 < name.length && fore.isPrefixOf name && extension.isSuffixOf name && name.all nameChar

/-- `prune`: the names it has the location delete, in order. `listed` is what
`loc_list` found. -/
def prune (listed : List (List Char)) (keep : ℤ) : List (List Char) :=
  if keep ≤ 0 then [] else (listed.insertionSort (· ≥ ·)).drop keep.toNat

/-- `loc_list`: the files there that are ours. -/
def locList (files : List (List Char)) : List (List Char) := files.filter isOurs

/-- A backup: the grill it is of, the moment it was made, and the local time that
the grill's clock showed then. -/
structure Made where
  grill : List Char
  moment : ℤ
  clock : Tm

/-- The file a backup is kept in. -/
def Made.name (b : Made) : List Char := archiveName b.grill b.clock

/-- A backup location: its backups, each in a file of its own, other files that are
not ours, and all of them as the directory gives them. -/
structure Location where
  backups : List Made
  others : List (List Char)
  files : List (List Char)
  apart : (backups.map Made.name).Nodup
  foreign : ∀ name ∈ others, isOurs name = false
  listed : files.Perm (backups.map Made.name ++ others)

namespace Location

/-- What pruning removes from a location. -/
def pruned (l : Location) (keep : ℤ) : List (List Char) := prune (locList l.files) keep

/-- The `n` most recent backups of a location. -/
def recent (l : Location) (n : ℕ) : List Made :=
  (l.backups.insertionSort fun a b => b.moment ≤ a.moment).take n

/-- Pruning to `keep` removes nothing but backups that are older than each of the
`keep` most recent, and never the last one made. -/
def PrunesOldest (l : Location) (keep : ℤ) : Prop :=
  ∀ name ∈ l.pruned keep, ∃ b ∈ l.backups, b.name = name ∧
    (∀ r ∈ l.recent keep.toNat, b.moment < r.moment) ∧
    ∃ later ∈ l.backups, b.moment < later.moment

end Location

/-- The characters `archive_name` writes. -/
def Plain (c : Char) : Prop := c.isAlphanum = true ∨ c = '-'

theorem ascii_of_isAlphanum {c : Char} (letter : c.isAlphanum = true) : c.toNat < 128 := by
  simp only [Char.isAlphanum, Char.isAlpha, Char.isUpper, Char.isLower, Char.isDigit,
    Bool.or_eq_true, Bool.and_eq_true, decide_eq_true_eq, UInt32.le_iff_toNat_le] at letter
  have upper : 'Z'.val.toNat = 90 := rfl
  have lower : 'z'.val.toNat = 122 := rfl
  have nine : '9'.val.toNat = 57 := rfl
  change c.val.toNat < 128
  omega

theorem toLower_isAlphanum {c : Char} (letter : c.isAlphanum = true) :
    c.toLower.isAlphanum = true := by
  have all : ∀ n < 128, (Char.ofNat n).isAlphanum = true →
      (Char.ofNat n).toLower.isAlphanum = true := by decide
  have here := all c.toNat (ascii_of_isAlphanum letter)
  rw [Char.ofNat_toNat] at here
  exact here letter

theorem slugLoop_plain {grill : List Char} : ∀ {slug : List Char},
    (∀ c ∈ slug, Plain c) → ∀ c ∈ slugLoop slug grill, Plain c := by
  induction grill with
  | nil =>
    intro slug plain
    exact plain
  | cons p rest ih =>
    intro slug plain
    rw [slugLoop]
    split
    · split
      · rename_i letter
        apply ih
        rintro c (_ | ⟨_, member⟩)
        · exact Or.inl (toLower_isAlphanum letter)
        · exact plain c member
      · split
        · apply ih
          rintro c (_ | ⟨_, member⟩)
          · exact Or.inr rfl
          · exact plain c member
        · exact ih plain
    · exact plain

theorem slugOf_plain (grill : List Char) : ∀ c ∈ slugOf grill, Plain c := by
  intro c member
  rw [slugOf] at member
  split at member
  · have letters : "grill".toList.all Char.isAlphanum = true := by decide
    exact Or.inl (List.all_eq_true.mp letters c member)
  · have plain : ∀ c ∈ slugLoop [] grill, Plain c := slugLoop_plain (by rintro _ ⟨⟩)
    exact plain c ((List.dropWhile_sublist _).subset (List.mem_reverse.mp member))

theorem slugOf_ne_nil (grill : List Char) : slugOf grill ≠ [] := by
  rw [slugOf]
  split
  · decide
  · assumption

theorem digit_plain (n : ℕ) : Plain (digit n) := by
  have all : ∀ d < 10, (Char.ofNat ('0'.toNat + d)).isAlphanum = true := by decide
  exact Or.inl (all _ (Nat.mod_lt n (by decide)))

theorem yearDigits_plain (n : ℕ) : ∀ c ∈ yearDigits n, Plain c := by
  intro c member
  rw [yearDigits] at member
  split at member
  · simp only [twoDigits, List.cons_append, List.nil_append, List.mem_cons,
      List.not_mem_nil, or_false] at member
    rcases member with rfl | rfl | rfl | rfl <;> exact digit_plain _
  · have numeral := Nat.isDigit_of_mem_toDigits (by decide) (by decide) member
    exact Or.inl (by simp [Char.isAlphanum, numeral])

theorem stamp_plain (tm : Tm) : ∀ c ∈ stamp tm, Plain c := by
  intro c member
  rw [stamp, List.mem_append] at member
  rcases member with member | member
  · exact yearDigits_plain _ c member
  · simp only [twoDigits, List.cons_append, List.nil_append, List.mem_cons,
      List.not_mem_nil, or_false] at member
    rcases member with rfl | rfl | rfl | rfl | rfl | rfl | rfl | rfl | rfl
    all_goals first | exact digit_plain _ | exact Or.inr rfl

theorem nameChar_of_plain {c : Char} (plain : Plain c) : nameChar c = true := by
  rcases plain with letter | rfl
  · simp [nameChar, letter]
  · rfl

theorem nameChar_of_mem_archiveName {grill : List Char} {tm : Tm} {c : Char}
    (member : c ∈ archiveName grill tm) : nameChar c = true := by
  simp only [archiveName, List.mem_append, List.mem_cons] at member
  rcases member with member | member | rfl | member | member
  · have named : fore.all nameChar = true := by decide
    exact List.all_eq_true.mp named c member
  · exact nameChar_of_plain (slugOf_plain grill c member)
  · rfl
  · exact nameChar_of_plain (stamp_plain tm c member)
  · have named : extension.all nameChar = true := by decide
    exact List.all_eq_true.mp named c member

theorem isOurs_archiveName (grill : List Char) (tm : Tm) :
    isOurs (archiveName grill tm) = true := by
  have long : 14 < (archiveName grill tm).length := by
    have slug := List.length_pos_of_ne_nil (slugOf_ne_nil grill)
    simp only [archiveName, fore, extension, List.length_append, List.length_cons,
      List.length_nil]
    omega
  have starts : fore <+: archiveName grill tm := List.prefix_append _ _
  have ends : extension <:+ archiveName grill tm := by
    refine ⟨fore ++ (slugOf grill ++ ('-' :: stamp tm)), ?_⟩
    simp only [archiveName, List.append_assoc, List.cons_append]
  have allowed : (archiveName grill tm).all nameChar = true := by
    rw [List.all_eq_true]
    intro c member
    exact nameChar_of_mem_archiveName member
  rw [isOurs, allowed, List.isPrefixOf_iff_prefix.mpr starts,
    List.isSuffixOf_iff_suffix.mpr ends, decide_eq_true long]
  rfl

end PiFire.Backup

/-!
# What pruning keeps

Pruning goes by names. It removes the oldest backups, whatever number it is to
keep, exactly when the names of a location's backups stand in the order of their
moments. One grill under one name whose clock never goes back writes such names;
two grills, or one that was renamed, need not.
-/

namespace PiFire.Backup

open Ranking

namespace Location

variable (l : Location)

theorem locList_perm : (locList l.files).Perm (l.backups.map Made.name) := by
  have strangers : l.others.filter isOurs = [] := by
    rw [List.filter_eq_nil_iff]
    intro name member
    simp [l.foreign name member]
  have ours : (l.backups.map Made.name).filter isOurs = l.backups.map Made.name := by
    rw [List.filter_eq_self]
    intro name member
    obtain ⟨b, _, rfl⟩ := List.mem_map.mp member
    exact isOurs_archiveName b.grill b.clock
  have filtered := l.listed.filter isOurs
  rwa [List.filter_append, ours, strangers, List.append_nil] at filtered

theorem sorted_listing :
    ((locList l.files).insertionSort (· ≥ ·)).Pairwise fun a b => id b < id a := by
  have distinct : ((locList l.files).insertionSort (· ≥ ·)).Nodup :=
    ((List.perm_insertionSort _ _).trans l.locList_perm).nodup_iff.mpr l.apart
  have descending := List.pairwise_insertionSort (· ≥ ·) (locList l.files)
  exact (descending.and distinct).imp fun ⟨ge, ne⟩ => lt_of_le_of_ne ge (Ne.symm ne)

theorem above_names (name : List Char) :
    above id (locList l.files) name = above Made.name l.backups name := by
  rw [above_perm l.locList_perm, above, above, List.countP_map]
  rfl

/-- The names pruning removes: those with at least `keep` names of other backups above
them. -/
theorem mem_pruned_iff {name : List Char} {keep : ℤ} :
    name ∈ l.pruned keep ↔ 0 < keep ∧ (∃ b ∈ l.backups, b.name = name) ∧
      keep.toNat ≤ above Made.name l.backups name := by
  rw [pruned, prune]
  split
  · rename_i none_kept
    constructor
    · rintro ⟨⟩
    · rintro ⟨positive, _⟩
      omega
  · rename_i positive
    rw [mem_drop_iff l.sorted_listing, List.mem_insertionSort, l.locList_perm.mem_iff,
      List.mem_map, above_perm (List.perm_insertionSort _ _), id, above_names]
    constructor
    · rintro ⟨member, rank⟩
      exact ⟨by omega, member, rank⟩
    · rintro ⟨_, member, rank⟩
      exact ⟨member, rank⟩

theorem older_than_recent_iff {b : Made} (member : b ∈ l.backups) (n : ℕ) :
    (∀ r ∈ l.recent n, b.moment < r.moment) ↔ n ≤ above Made.moment l.backups b.moment := by
  have descending := List.pairwise_insertionSort
    (fun a b : Made => b.moment ≤ a.moment) l.backups
  have same := List.perm_insertionSort (fun a b : Made => b.moment ≤ a.moment) l.backups
  rw [← above_perm same]
  exact forall_take_iff descending (same.mem_iff.mpr member) n

theorem eq_of_name {a b : Made} (left : a ∈ l.backups) (right : b ∈ l.backups)
    (same : a.name = b.name) : a = b :=
  List.inj_on_of_nodup_map l.apart left right same

theorem prunesOldest_iff {keep : ℤ} (positive : 0 < keep) :
    l.PrunesOldest keep ↔ ∀ b ∈ l.backups, keep.toNat ≤ above Made.name l.backups b.name →
      keep.toNat ≤ above Made.moment l.backups b.moment := by
  constructor
  · intro oldest b member rank
    obtain ⟨c, inside, same, older, _⟩ :=
      oldest b.name (l.mem_pruned_iff.mpr ⟨positive, ⟨b, member, rfl⟩, rank⟩)
    rw [l.eq_of_name inside member same] at older
    exact (l.older_than_recent_iff member _).mp older
  · intro ranks name removed
    obtain ⟨_, ⟨b, member, rfl⟩, rank⟩ := l.mem_pruned_iff.mp removed
    have newer := ranks b member rank
    refine ⟨b, member, rfl, (l.older_than_recent_iff member _).mpr newer, ?_⟩
    exact exists_gt_of_above (by omega)

end Location

/-- Whatever the number to keep, pruning a location removes only backups older than
each of that many most recent, and never the last one made, if and only if of any two
of its backups the one whose name sorts first is the older. -/
theorem prunes_oldest_iff_names_in_order (l : Location) :
    (∀ keep, l.PrunesOldest keep) ↔
      ∀ a ∈ l.backups, ∀ b ∈ l.backups, a.name < b.name → a.moment < b.moment := by
  constructor
  · intro oldest
    -- no backup has more names above it than backups that are newer
    have ranks : ∀ b ∈ l.backups,
        above Made.name l.backups b.name ≤ above Made.moment l.backups b.moment := by
      intro b member
      by_cases least : above Made.name l.backups b.name = 0
      · omega
      · have here := oldest (above Made.name l.backups b.name)
        rw [l.prunesOldest_iff (by omega)] at here
        exact here b member (by simp)
    exact in_order_of_above_le l.apart ranks
  · intro in_order keep
    by_cases positive : 0 < keep
    · rw [l.prunesOldest_iff positive]
      intro b member rank
      exact rank.trans (above_mono fun y inside => in_order b member y inside)
    · intro name removed
      exact absurd (l.mem_pruned_iff.mp removed).1 positive

/-- A backup of one grill. -/
def zoo : Made := ⟨"Zoo".toList, 1, ⟨2026, 5, 1, 12, 0, by decide⟩⟩

/-- A backup made the day after, of a grill whose name sorts before. -/
def attic : Made := ⟨"Attic".toList, 2, ⟨2026, 5, 2, 12, 0, by decide⟩⟩

/-- A location that both keep their backups in. -/
def sharedLocation : Location where
  backups := [zoo, attic]
  others := []
  files := [zoo.name, attic.name]
  apart := by decide
  foreign := by rintro _ ⟨⟩
  listed := List.Perm.refl _

/-- Keeping one backup of the two removes the one just made. -/
theorem newest_pruned : ¬ sharedLocation.PrunesOldest 1 := by
  intro oldest
  have removed : attic.name ∈ sharedLocation.pruned 1 := by decide
  obtain ⟨b, member, same, _, later, inside, newer⟩ := oldest attic.name removed
  have here : attic ∈ sharedLocation.backups := List.mem_cons_of_mem _ List.mem_cons_self
  rw [sharedLocation.eq_of_name member here same] at newer
  rcases List.mem_pair.mp inside with rfl | rfl
  · exact absurd newer (by decide)
  · exact absurd newer (by decide)

/-- A local time before another, to the minute. -/
def Tm.Before (a b : Tm) : Prop :=
  a.year < b.year ∨ a.year = b.year ∧ (a.mon < b.mon ∨ a.mon = b.mon ∧
    (a.mday < b.mday ∨ a.mday = b.mday ∧ (a.hour < b.hour ∨ a.hour = b.hour ∧ a.min < b.min)))

theorem digit_lt_iff (m n : ℕ) : digit m < digit n ↔ m % 10 < n % 10 := by
  have all : ∀ m < 10, ∀ n < 10,
      (Char.ofNat ('0'.toNat + m) < Char.ofNat ('0'.toNat + n) ↔ m < n) := by decide
  exact all _ (Nat.mod_lt m (by decide)) _ (Nat.mod_lt n (by decide))

theorem digit_eq_iff (m n : ℕ) : digit m = digit n ↔ m % 10 = n % 10 := by
  have all : ∀ m < 10, ∀ n < 10,
      (Char.ofNat ('0'.toNat + m) = Char.ofNat ('0'.toNat + n) ↔ m = n) := by decide
  exact all _ (Nat.mod_lt m (by decide)) _ (Nat.mod_lt n (by decide))

theorem twoDigits_lt_iff {m n : ℕ} (left : m < 100) (right : n < 100) (u v : List Char) :
    twoDigits m ++ u < twoDigits n ++ v ↔ m < n ∨ m = n ∧ u < v := by
  simp only [twoDigits, List.cons_append, List.nil_append, List.cons_lt_cons_iff,
    digit_lt_iff, digit_eq_iff]
  by_cases rest : u < v
  · simp only [rest, and_true]
    omega
  · simp only [rest, and_false, or_false]
    omega

theorem yearDigits_eq {n : ℕ} (small : n < 10000) :
    yearDigits n = twoDigits (n / 100) ++ twoDigits (n % 100) := by
  have tens : digit (n / 10) = digit (n % 100 / 10) := by rw [digit_eq_iff]; omega
  have ones : digit n = digit (n % 100) := by rw [digit_eq_iff]; omega
  rw [yearDigits, if_pos small]
  simp only [twoDigits, tens, ones]

theorem hundreds_lt_iff {m n : ℕ} (p : Prop) :
    (m / 100 < n / 100 ∨ m / 100 = n / 100 ∧ (m % 100 < n % 100 ∨ m % 100 = n % 100 ∧ p)) ↔
      m < n ∨ m = n ∧ p := by
  by_cases holds : p
  · simp only [holds, and_true]
    omega
  · simp only [holds, and_false, or_false]
    omega

theorem stamp_lt_iff {a b : Tm} (left : a.year < 10000) (right : b.year < 10000)
    (u : List Char) : stamp a ++ u < stamp b ++ u ↔ a.Before b := by
  have first := a.bounds
  have second := b.bounds
  simp only [stamp, yearDigits_eq left, yearDigits_eq right, List.append_assoc,
    List.cons_append]
  rw [twoDigits_lt_iff (by omega) (by omega), twoDigits_lt_iff (by omega) (by omega),
    hundreds_lt_iff, twoDigits_lt_iff (by omega) (by omega),
    twoDigits_lt_iff (by omega) (by omega), List.cons_lt_cons_iff,
    twoDigits_lt_iff (by omega) (by omega), twoDigits_lt_iff (by omega) (by omega)]
  simp only [lt_irrefl, false_or, and_false, or_false, true_and, Tm.Before]

theorem name_lt_iff {a b : Made} (one : slugOf a.grill = slugOf b.grill)
    (left : a.clock.year < 10000) (right : b.clock.year < 10000) :
    a.name < b.name ↔ a.clock.Before b.clock := by
  have cancel : ∀ w u v : List Char, w ++ u < w ++ v ↔ u < v := by
    intro w u v
    induction w with
    | nil => rfl
    | cons c w ih => simp [ih]
  rw [Made.name, Made.name, archiveName, archiveName, one, cancel, cancel,
    List.cons_lt_cons_iff, stamp_lt_iff left right]
  simp

/-- Where all backups of a location are of one name and the clock never went back from
one to a later one, pruning keeps the most recent, whatever their number. -/
theorem prunes_oldest_of_one_grill (l : Location)
    (one : ∀ a ∈ l.backups, ∀ b ∈ l.backups, slugOf a.grill = slugOf b.grill)
    (year : ∀ a ∈ l.backups, a.clock.year < 10000)
    (forward : ∀ a ∈ l.backups, ∀ b ∈ l.backups, a.clock.Before b.clock → a.moment < b.moment)
    (keep : ℤ) : l.PrunesOldest keep := by
  apply (prunes_oldest_iff_names_in_order l).mpr
  intro a left b right less
  apply forward a left b right
  exact (name_lt_iff (one a left b right) (year a left) (year b right)).mp less

end PiFire.Backup
