import Mathlib
import PiFire.Text.Listed
import PiFire.Text.Scan

/-!
# The folders of a share

A share's folders are read off the listing that `smbclient` prints, each line from the right.
This file has the listing as it is printed, its reading, and for which entries the reading
gives the folders.
-/

namespace PiFire.Backup

open Text

/-! ## The listing -/

/-- The blank between the columns. -/
def isBlank (c : Char) : Bool := c = ' '

/-- One word of a date. -/
structure DateWord where
  letters : List Char
  given : letters ≠ []
  solid : ∀ c ∈ letters, isSpace c = false

/-- A file or a folder on a share, with what a line of the listing says of it. -/
structure Entry where
  name : List Char
  attr : List Char
  size : ℕ
  wday : DateWord
  mon : DateWord
  mday : DateWord
  time : DateWord
  year : DateWord
  /-- No name holds a control character. -/
  printable : ∀ c ∈ name, isSpace c = true → isBlank c = true
  letters : ∀ c ∈ attr, isSpace c = false
  short : mday.letters.length ≤ 2

def padLeft (width : ℕ) (text : List Char) : List Char :=
  List.replicate (width - text.length) ' ' ++ text

def padRight (width : ℕ) (text : List Char) : List Char :=
  text ++ List.replicate (width - text.length) ' '

/-- The attributes as they are printed: seven of them at most. -/
def Entry.shown (e : Entry) : List Char := e.attr.take 7

/-- The date as `asctime` prints it. -/
def Entry.date (e : Entry) : List Char :=
  e.wday.letters ++ [' '] ++ e.mon.letters ++ padLeft 3 e.mday.letters ++ [' '] ++
    e.time.letters ++ [' '] ++ e.year.letters

/-- The line before the size. -/
def Entry.head (e : Entry) : List Char :=
  [' ', ' '] ++ padRight 30 e.name ++ padLeft 7 e.shown

/-- A line as `  %-30s%7.7s %8.0f  %s` prints it. -/
def Entry.line (e : Entry) : List Char :=
  e.head ++ [' '] ++ padLeft 8 (Nat.toDigits 10 e.size) ++ [' ', ' '] ++ e.date

/-- A line of a listing: an entry, or something said about the share. -/
inductive Row where
  | entry (e : Entry)
  | remark (text : List Char) (apart : text.head? ≠ some ' ') (single : '\n' ∉ text)

def Row.line : Row → List Char
  | entry e => e.line
  | remark text _ _ => text

/-- The listing of a share. -/
def listing (rows : List Row) : List Char := rows.flatMap fun row => row.line ++ ['\n']

/-- Whether the attributes are those of a folder. -/
def Entry.isDirectory (e : Entry) : Bool := 'D' ∈ e.attr

/-- The name of a folder other than the two that every folder has. -/
def Entry.folder? (e : Entry) : Option (List Char) :=
  if e.isDirectory ∧ e.name ≠ ['.'] ∧ e.name ≠ ['.', '.'] then some e.name else none

def Row.folder? : Row → Option (List Char)
  | entry e => e.folder?
  | remark .. => none

/-! ## Its reading -/

/-- `%Ns` of `sscanf`: a word of at most so many characters, and what follows it. -/
def scanWord (room : ℕ) (text : List Char) : Option (List Char × List Char) :=
  let begun := text.dropWhile isSpace
  let word := (begun.takeWhile fun c => !isSpace c).take room
  if word.isEmpty then none else some (word, begun.drop word.length)

/-- The name that is left of the attributes, if it is one to list. -/
def nameOf (left : List Char) : Option (List Char) :=
  let name := (strip isBlank left).take 255
  if name = [] ∨ name = ['.'] ∨ name = ['.', '.'] then none else some name

/-- Whether two words are the attributes of a folder and a size. -/
def saysFolder (attr size : List Char) : Bool :=
  attr.all Char.isUpper && size.all Char.isDigit && attr.contains 'D'

/-- One line of `pf_backup_parse_smb_ls`: seven words from the right, the first of them the
attributes. -/
def readLine (line : List Char) : Option (List Char) :=
  if line.head? = some ' ' then
    let trimmed := line.rdropWhile fun c => c = ' ' || c = '\r'
    (chops isBlank 7 trimmed).bind fun left =>
      (scanWord 15 (line.drop left.length)).bind fun attr =>
        (scanWord 31 attr.2).bind fun size =>
          if saysFolder attr.1 size.1 then nameOf left else none
  else none

/-- `pf_backup_parse_smb_ls`. -/
def parseSmbLs (text : List Char) (max : ℕ) : List (List Char) :=
  (((pieces '\n' text).filter fun line => !line.isEmpty).filterMap readLine).take max

/-! ## What is read of an entry -/

/-- Whether a word passes for the attributes of a folder with a size behind it. -/
def looksLikeFolder (word : List Char) : Bool :=
  !word.isEmpty && (word.take 15).all Char.isUpper && (word.take 15).contains 'D' &&
    ((word.drop 15).take 31).all Char.isDigit

theorem isUpper_of_isDigit {c : Char} (digit : c.isDigit = true) : c.isUpper = false := by
  simp only [Char.isDigit, Bool.and_eq_true, decide_eq_true_eq, UInt32.le_iff_toNat_le, ge_iff_le]
    at digit
  rw [Bool.eq_false_iff]
  intro upper
  simp only [Char.isUpper, decide_eq_true_eq, UInt32.le_iff_toNat_le, ge_iff_le] at upper
  exact absurd (upper.1.trans digit.2) (by decide)

section Scan

variable {room : ℕ} {word rest gap : List Char}

theorem isSpace_of_isBlank {c : Char} (blank : isBlank c = true) : isSpace c = true := by
  rw [isBlank, decide_eq_true_iff] at blank
  rw [blank]
  rfl

theorem isBlank_replicate (n : ℕ) : ∀ c ∈ List.replicate n ' ', isBlank c = true := by
  intro c inside
  rw [List.eq_of_mem_replicate inside]
  rfl

theorem scanWord_append (some_ : 0 < room) (given : word ≠ [])
    (solid : ∀ c ∈ word, isSpace c = false) (stops : ∀ c ∈ rest.head?, isSpace c = true) :
    scanWord room (word ++ rest) = some (word.take room, word.drop room ++ rest) := by
  have begun : (word ++ rest).dropWhile isSpace = word ++ rest := by
    cases word with
    | nil => exact absurd rfl given
    | cons c word =>
        rw [List.cons_append, List.dropWhile_cons_of_neg]
        rw [solid c List.mem_cons_self]
        exact Bool.false_ne_true
  have taken : (word ++ rest).takeWhile (fun c => !isSpace c) = word := by
    rw [List.takeWhile_append_of_pos fun c inside => by rw [solid c inside]; rfl]
    cases rest with
    | nil => simp
    | cons c rest =>
        rw [List.takeWhile_cons_of_neg, List.append_nil]
        rw [stops c rfl]
        exact Bool.false_ne_true
  rw [scanWord, begun, taken, if_neg]
  · rw [List.length_take]
    rcases le_total room word.length with long | short
    · rw [min_eq_left long, List.drop_append_of_le_length long]
    · rw [min_eq_right short, List.drop_left, List.drop_of_length_le short, List.nil_append]
  · rw [List.isEmpty_iff, List.take_eq_nil_iff]
    rintro (none_ | empty)
    · omega
    · exact given empty

theorem scanWord_spaces (spaces : ∀ c ∈ gap, isSpace c = true) (text : List Char) :
    scanWord room (gap ++ text) = scanWord room text := by
  rw [scanWord, scanWord, List.dropWhile_append_of_pos spaces]

end Scan

namespace Entry

variable (e : Entry)

/-- The line from the size on. -/
def rest : List Char :=
  [' '] ++ padLeft 8 (Nat.toDigits 10 e.size) ++ [' ', ' '] ++ e.date

theorem line_eq : e.line = e.head ++ e.rest := by
  simp [line, rest]

theorem digits_solid {c : Char} (inside : c ∈ Nat.toDigits 10 e.size) : isSpace c = false :=
  isDigit_not_space (toDigits_isDigit c inside)

theorem ends_blank (text : List Char) {gap : List Char} (some_ : gap ≠ [])
    (blanks : ∀ c ∈ gap, isBlank c = true) :
    (text ++ gap).rdropWhile (fun c => !isBlank c) = text ++ gap := by
  obtain ⟨gap, c, rfl⟩ := List.eq_nil_or_concat gap |>.resolve_left some_
  rw [List.concat_eq_append] at blanks ⊢
  rw [← List.append_assoc]
  apply rdropWhile_concat_eq
  rw [blanks c (by simp)]
  rfl

theorem chops_date (n : ℕ) (text : List Char) :
    chops isBlank (n + 5) (text ++ [' ', ' '] ++ e.date) =
      chops isBlank n (text ++ [' ', ' ']) := by
  have solid (word : DateWord) : ∀ c ∈ word.letters, isBlank c = false := by
    intro c inside
    have solid := word.solid c inside
    rw [isSpace, Bool.or_eq_false_iff] at solid
    exact solid.1
  have word (n : ℕ) (text : List Char) (word : DateWord) {before gap : List Char}
      (some_ : before ≠ []) (blank : ∀ c ∈ before, isBlank c = true)
      (blanks : ∀ c ∈ gap, isBlank c = true) :
      chops isBlank (n + 1) (text ++ before ++ word.letters ++ gap) =
        chops isBlank n (text ++ before) :=
    chops_word (ends_blank text some_ blank) word.given (solid word) blanks
  have one : ∀ c ∈ [' '], isBlank c = true := List.forall_mem_singleton.mpr rfl
  have none_ : ∀ c ∈ [], isBlank c = true := fun c inside => absurd inside List.not_mem_nil
  have gap : List.replicate (3 - e.mday.letters.length) ' ' ≠ [] := by
    have short := e.short
    rw [ne_eq, List.replicate_eq_nil_iff]
    omega
  have spread : text ++ [' ', ' '] ++ e.date =
      text ++ [' ', ' '] ++ e.wday.letters ++ [' '] ++ e.mon.letters ++
        List.replicate (3 - e.mday.letters.length) ' ' ++ e.mday.letters ++ [' '] ++
          e.time.letters ++ [' '] ++ e.year.letters ++ [] := by
    simp [date, padLeft]
  rw [spread, word (n + 4) _ e.year (by decide) one none_,
    word (n + 3) _ e.time (by decide) one one,
    word (n + 2) _ e.mday gap (isBlank_replicate _) one,
    word (n + 1) _ e.mon (by decide) one (isBlank_replicate _),
    word n text e.wday (by decide) (List.all_eq_true.mp rfl) one]

theorem chops_line : chops isBlank 7 e.line = some (chop isBlank e.head) := by
  have solid : ∀ c ∈ Nat.toDigits 10 e.size, isBlank c = false := by
    intro c inside
    have solid := e.digits_solid inside
    rw [isSpace, Bool.or_eq_false_iff] at solid
    exact solid.1
  have gap : ∀ c ∈ [' '] ++ List.replicate (8 - (Nat.toDigits 10 e.size).length) ' ',
      isBlank c = true := by
    intro c inside
    rcases List.mem_append.mp inside with one | more
    · rw [List.mem_singleton.mp one]
      rfl
    · exact isBlank_replicate _ c more
  have sized : e.head ++ [' '] ++ padLeft 8 (Nat.toDigits 10 e.size) =
      e.head ++ ([' '] ++ List.replicate (8 - (Nat.toDigits 10 e.size).length) ' ') ++
        Nat.toDigits 10 e.size := by
    simp [padLeft]
  have ends := ends_blank e.head (List.append_ne_nil_of_left_ne_nil (List.cons_ne_nil ' ' []) _) gap
  rw [line, chops_date e 2, sized, chops_word ends Nat.toDigits_ne_nil solid (List.all_eq_true.mp rfl),
    chops_succ, chops, chop, rdropWhile_append_of_all _ gap]
  · rfl
  · simp

theorem head_solid {c : Char} (inside : c ∈ e.head) (space : isSpace c = true) :
    isBlank c = true := by
  simp only [head, padRight, padLeft, shown, List.mem_append] at inside
  rcases inside with (two | name | gap) | gap | attr
  · rcases List.mem_pair.mp two with rfl | rfl <;> rfl
  · exact e.printable c name space
  · exact isBlank_replicate _ c gap
  · exact isBlank_replicate _ c gap
  · rw [e.letters c (List.mem_of_mem_take attr)] at space
    exact Bool.noConfusion space

theorem line_trimmed : e.line.rdropWhile (fun c => c = ' ' || c = '\r') = e.line := by
  obtain ⟨letters, c, year⟩ := List.eq_nil_or_concat e.year.letters |>.resolve_left e.year.given
  have solid : isSpace c = false := e.year.solid c (by rw [year]; simp)
  have spread : e.line = (e.head ++ [' '] ++ padLeft 8 (Nat.toDigits 10 e.size) ++ [' ', ' '] ++
      (e.wday.letters ++ [' '] ++ e.mon.letters ++ padLeft 3 e.mday.letters ++ [' '] ++
        e.time.letters ++ [' '] ++ letters)) ++ [c] := by
    simp [line, date, year]
  rw [spread]
  apply rdropWhile_concat_eq
  rw [Bool.or_eq_false_iff, decide_eq_false_iff_not, decide_eq_false_iff_not]
  constructor
  · rintro rfl
    exact absurd solid (by decide)
  · rintro rfl
    exact absurd solid (by decide)

theorem drop_line : e.line.drop (chop isBlank e.head).length =
    lastWord isBlank e.head ++ (e.head.rtakeWhile isBlank ++ e.rest) := by
  have whole : e.line = chop isBlank e.head ++ (lastWord isBlank e.head ++
      (e.head.rtakeWhile isBlank ++ e.rest)) := by
    rw [← List.append_assoc, chop_append_lastWord, ← List.append_assoc,
      List.rdropWhile_append_rtakeWhile, line_eq]
  rw [whole, List.drop_left]

theorem scan_rest {room : ℕ} (some_ : 0 < room) {gap : List Char}
    (blanks : ∀ c ∈ gap, isBlank c = true) :
    ∃ left, scanWord room (gap ++ e.rest) = some ((Nat.toDigits 10 e.size).take room, left) := by
  have spread : gap ++ e.rest =
      (gap ++ [' '] ++ List.replicate (8 - (Nat.toDigits 10 e.size).length) ' ') ++
        (Nat.toDigits 10 e.size ++ ([' ', ' '] ++ e.date)) := by
    simp [rest, padLeft]
  refine ⟨(Nat.toDigits 10 e.size).drop room ++ ([' ', ' '] ++ e.date), ?_⟩
  rw [spread, scanWord_spaces]
  · apply scanWord_append some_ Nat.toDigits_ne_nil
    · intro c inside
      exact e.digits_solid inside
    · intro c first
      obtain rfl : ' ' = c := by simpa using first
      rfl
  · intro c inside
    apply isSpace_of_isBlank
    simp only [List.mem_append] at inside
    rcases inside with (gap | one) | more
    · exact blanks c gap
    · rw [List.mem_singleton.mp one]
      rfl
    · exact isBlank_replicate _ c more

theorem digits_all (n : ℕ) : ((Nat.toDigits 10 e.size).take n).all Char.isDigit = true := by
  rw [List.all_eq_true]
  intro c inside
  exact toDigits_isDigit c (List.mem_of_mem_take inside)

theorem readLine_line : readLine e.line =
    if looksLikeFolder (lastWord isBlank e.head) then nameOf (chop isBlank e.head) else none := by
  have begins : e.line.head? = some ' ' := by simp [line, head]
  have blanks : ∀ c ∈ e.head.rtakeWhile isBlank, isBlank c = true :=
    fun c inside => List.mem_rtakeWhile_imp inside
  rw [readLine, if_pos begins]
  dsimp only
  rw [line_trimmed, chops_line, Option.bind_some, drop_line]
  by_cases given : lastWord isBlank e.head = []
  · -- nothing but blanks stands before the size, which is no letters
    obtain ⟨left, scanned⟩ := e.scan_rest (by decide : 0 < 15) blanks
    have first : ∃ c ∈ (Nat.toDigits 10 e.size).take 15, c.isUpper = false := by
      obtain ⟨c, digits, same⟩ := List.exists_cons_of_ne_nil (Nat.toDigits_ne_nil (b := 10)
        (n := e.size))
      have digit : c.isDigit = true := toDigits_isDigit c (same ▸ List.mem_cons_self)
      exact ⟨c, by rw [same]; exact List.mem_cons_self, isUpper_of_isDigit digit⟩
    obtain ⟨c, inside, lower⟩ := first
    have small : ((Nat.toDigits 10 e.size).take 15).all Char.isUpper = false :=
      List.all_eq_false.mpr ⟨c, inside, by rw [lower]; exact Bool.false_ne_true⟩
    rw [given, List.nil_append, scanned, Option.bind_some]
    cases scanWord 31 left with
    | none => rfl
    | some size => simp [saysFolder, small, looksLikeFolder]
  · have solid : ∀ c ∈ lastWord isBlank e.head, isSpace c = false := by
      intro c inside
      by_contra space
      have blank := e.head_solid (lastWord_subset inside) (Bool.not_eq_false _ ▸ space)
      rw [lastWord_solid inside] at blank
      exact Bool.noConfusion blank
    have stops : ∀ c ∈ (e.head.rtakeWhile isBlank ++ e.rest).head?, isSpace c = true := by
      intro c first
      cases gap : e.head.rtakeWhile isBlank with
      | nil =>
          rw [gap] at first
          obtain rfl : ' ' = c := by simpa [rest] using first
          rfl
      | cons d gap_ =>
          rw [gap] at first
          obtain rfl : d = c := by simpa using first
          exact isSpace_of_isBlank (blanks d (by rw [gap]; exact List.mem_cons_self))
    rw [scanWord_append (by decide) given solid stops, Option.bind_some]
    have empty : (lastWord isBlank e.head).isEmpty = false := List.isEmpty_eq_false_iff.mpr given
    by_cases short : (lastWord isBlank e.head).drop 15 = []
    · obtain ⟨left, scanned⟩ := e.scan_rest (by decide : 0 < 31) blanks
      rw [short, List.nil_append, scanned, Option.bind_some]
      simp [saysFolder, looksLikeFolder, short, empty, digits_all]
    · rw [scanWord_append (by decide) short (fun c inside => solid c (List.mem_of_mem_drop inside))
        stops, Option.bind_some]
      have same : saysFolder ((lastWord isBlank e.head).take 15)
          (((lastWord isBlank e.head).drop 15).take 31) =
            looksLikeFolder (lastWord isBlank e.head) := by
        rw [saysFolder, looksLikeFolder, empty, Bool.not_false, Bool.true_and]
        ac_rfl
      rw [same]

/-! ## The three ways a line reads -/

/-- Whether the name leaves a blank before its attributes. -/
def Apart : Prop := e.name.length < 30 ∨ e.shown.length < 7

instance : Decidable e.Apart := inferInstanceAs (Decidable (_ ∨ _))

/-- The blanks between a name and its attributes. -/
def gap : List Char :=
  List.replicate (30 - e.name.length) ' ' ++ List.replicate (7 - e.shown.length) ' '

theorem head_eq : e.head = [' ', ' '] ++ e.name ++ e.gap ++ e.shown := by
  simp only [head, gap, padRight, padLeft, List.append_assoc]

theorem gap_blank : ∀ c ∈ e.gap, isBlank c = true := by
  intro c inside
  rcases List.mem_append.mp inside with more | more
  · exact isBlank_replicate _ c more
  · exact isBlank_replicate _ c more

theorem gap_ne_nil_iff : e.gap ≠ [] ↔ e.Apart := by
  rw [Apart, gap, ne_eq, List.append_eq_nil_iff, List.replicate_eq_nil_iff,
    List.replicate_eq_nil_iff]
  omega

theorem shown_solid : ∀ c ∈ e.shown, isBlank c = false := by
  intro c inside
  have solid := e.letters c (List.mem_of_mem_take inside)
  rw [isSpace, Bool.or_eq_false_iff] at solid
  exact solid.1

theorem nameOf_blanks (text : List Char) : nameOf ([' ', ' '] ++ text) = nameOf text := by
  rw [nameOf, nameOf, strip_blanks_append (List.all_eq_true.mp rfl)]

theorem readLine_apart (given : e.shown ≠ []) (apart : e.Apart) :
    readLine e.line = if looksLikeFolder e.shown then nameOf e.name else none := by
  have spread : e.head = [' ', ' '] ++ e.name ++ e.gap ++ e.shown ++ [] := by
    rw [head_eq, List.append_nil]
  have ends := ends_blank ([' ', ' '] ++ e.name) (e.gap_ne_nil_iff.mpr apart) e.gap_blank
  have none_ : ∀ c ∈ [], isBlank c = true := fun c inside => absurd inside List.not_mem_nil
  rw [readLine_line, spread, lastWord_word ends given e.shown_solid none_,
    chop_word ends given e.shown_solid none_]
  rw [List.append_assoc, nameOf_blanks, nameOf, strip_append_blanks _ e.gap_blank, ← nameOf]

/-- The word a text ends with, empty after a blank. -/
def tail (text : List Char) : List Char := text.rtakeWhile fun c => !isBlank c

/-- A text without the word it ends with. -/
def front (text : List Char) : List Char := text.rdropWhile fun c => !isBlank c

theorem tail_solid {text : List Char} : ∀ c ∈ tail text, isBlank c = false := by
  intro c inside
  have solid := List.mem_rtakeWhile_imp inside
  simpa using solid

theorem ends_front (text : List Char) :
    ([' ', ' '] ++ front text).rdropWhile (fun c => !isBlank c) = [' ', ' '] ++ front text := by
  rw [rdropWhile_append (by decide), front, List.rdropWhile_idempotent]

theorem readLine_touching (given : e.shown ≠ []) (touching : ¬e.Apart) :
    readLine e.line =
      if looksLikeFolder (tail e.name ++ e.shown) then nameOf (front e.name) else none := by
  have gap : e.gap = [] := not_not.mp fun some_ => touching (e.gap_ne_nil_iff.mp some_)
  have spread : e.head = [' ', ' '] ++ front e.name ++ (tail e.name ++ e.shown) ++ [] := by
    have name : front e.name ++ tail e.name = e.name := List.rdropWhile_append_rtakeWhile
    rw [head_eq, gap, List.append_nil, List.append_nil]
    nth_rewrite 1 [← name]
    simp only [List.append_assoc]
  have solid : ∀ c ∈ tail e.name ++ e.shown, isBlank c = false := by
    intro c inside
    rcases List.mem_append.mp inside with name | attr
    · exact tail_solid c name
    · exact e.shown_solid c attr
  have some_ : tail e.name ++ e.shown ≠ [] := List.append_ne_nil_of_right_ne_nil _ given
  have none_ : ∀ c ∈ [], isBlank c = true := fun c inside => absurd inside List.not_mem_nil
  rw [readLine_line, spread, lastWord_word (ends_front _) some_ solid none_,
    chop_word (ends_front _) some_ solid none_, nameOf_blanks]

theorem readLine_bare (bare : e.shown = []) :
    readLine e.line =
      if looksLikeFolder (lastWord isBlank e.name) then nameOf (chop isBlank e.name) else none := by
  have spread : e.head = [' ', ' '] ++ chop isBlank e.name ++ lastWord isBlank e.name ++
      (e.name.rtakeWhile isBlank ++ e.gap) := by
    have name : chop isBlank e.name ++ lastWord isBlank e.name ++ e.name.rtakeWhile isBlank =
        e.name := by
      rw [chop_append_lastWord, List.rdropWhile_append_rtakeWhile]
    rw [head_eq, bare, List.append_nil]
    nth_rewrite 1 [← name]
    simp only [List.append_assoc]
  have blanks : ∀ c ∈ e.name.rtakeWhile isBlank ++ e.gap, isBlank c = true := by
    intro c inside
    rcases List.mem_append.mp inside with name | more
    · exact List.mem_rtakeWhile_imp name
    · exact e.gap_blank c more
  by_cases given : lastWord isBlank e.name = []
  · -- a name of blanks: the whole line before the size is blank
    have blank : ∀ c ∈ e.head, isBlank c = true := by
      intro c inside
      rw [head_eq, bare, List.append_nil] at inside
      rcases List.mem_append.mp inside with begun | more
      · rcases List.mem_append.mp begun with two | name
        · rcases List.mem_pair.mp two with rfl | rfl <;> rfl
        · exact lastWord_eq_nil_iff.mp given c name
      · exact e.gap_blank c more
    rw [readLine_line, given, lastWord_eq_nil_iff.mpr blank]
    simp [looksLikeFolder]
  · have ends : ([' ', ' '] ++ chop isBlank e.name).rdropWhile (fun c => !isBlank c) =
        [' ', ' '] ++ chop isBlank e.name := by
      rw [rdropWhile_append (by decide), chop, List.rdropWhile_idempotent]
    have solid : ∀ c ∈ lastWord isBlank e.name, isBlank c = false := fun c => lastWord_solid
    rw [readLine_line, spread, lastWord_word ends given solid blanks,
      chop_word ends given solid blanks, nameOf_blanks]

/-! ## Which entries are read right -/

/-- Whether a name to list is left of the attributes. -/
def Names (left : List Char) : Prop :=
  strip isBlank left ≠ [] ∧ strip isBlank left ≠ ['.'] ∧ strip isBlank left ≠ ['.', '.']

instance (left : List Char) : Decidable (Names left) := inferInstanceAs (Decidable (_ ∧ _ ∧ _))

/-- A name of at most 255 characters with no blank at either end. -/
def Plain (name : List Char) : Prop :=
  strip isBlank name = name ∧ name ≠ [] ∧ name.length ≤ 255

instance (name : List Char) : Decidable (Plain name) := inferInstanceAs (Decidable (_ ∧ _ ∧ _))

/-- An entry whose line says what it is. A folder's attributes are capitals apart from a plain
name; the name of a file does not end in a word that passes for them. -/
def Readable : Prop :=
  if e.isDirectory then
    e.name = ['.'] ∨ e.name = ['.', '.'] ∨
      (e.Apart ∧ e.shown.all Char.isUpper ∧ 'D' ∈ e.shown ∧ Plain e.name)
  else if e.shown = [] then
    ¬(looksLikeFolder (lastWord isBlank e.name) ∧ Names (chop isBlank e.name))
  else e.Apart ∨ ¬(looksLikeFolder (tail e.name ++ e.shown) ∧ Names (front e.name))

instance : Decidable e.Readable := by
  unfold Readable
  infer_instance

theorem nameOf_eq_none_iff {left : List Char} : nameOf left = none ↔ ¬Names left := by
  have short (text few : List Char) (small : few.length < 255) :
      text.take 255 = few ↔ text = few := by
    constructor
    · intro taken
      rcases le_or_gt text.length 255 with fits | long
      · rwa [List.take_of_length_le fits] at taken
      · have counted := congrArg List.length taken
        rw [List.length_take, min_eq_left long.le] at counted
        omega
    · rintro rfl
      exact List.take_of_length_le small.le
  rw [nameOf, Names, ne_eq, ne_eq, ne_eq, ← short (strip isBlank left) [] (by decide),
    ← short (strip isBlank left) ['.'] (by decide),
    ← short (strip isBlank left) ['.', '.'] (by decide)]
  split_ifs with special
  · simp only [true_iff]
    tauto
  · simp only [false_iff, not_not]
    tauto

theorem nameOf_eq_self_iff {name : List Char} (dot : name ≠ ['.']) (dots : name ≠ ['.', '.']) :
    nameOf name = some name ↔ Plain name := by
  rw [nameOf]
  constructor
  · intro read
    split_ifs at read with special
    have taken : (strip isBlank name).take 255 = name := Option.some_inj.mp read
    rw [taken] at special
    have small : name.length ≤ 255 := by
      rw [← taken]
      exact List.length_take_le _ _
    have prefix_ := List.take_prefix 255 (strip isBlank name)
    rw [taken] at prefix_
    refine ⟨?_, fun empty => special (Or.inl empty), small⟩
    exact (prefix_.eq_of_length (le_antisymm prefix_.length_le (length_strip_le name))).symm
  · rintro ⟨same, some_, small⟩
    rw [same, List.take_of_length_le small, if_neg]
    rintro (empty | special | special)
    · exact some_ empty
    · exact dot special
    · exact dots special

theorem nameOf_length {left name : List Char} (read : nameOf left = some name) :
    name.length ≤ (strip isBlank left).length := by
  rw [nameOf] at read
  split_ifs at read
  rw [← Option.some_inj.mp read, List.length_take]
  exact min_le_right _ _

theorem nameOf_front_ne {name : List Char} (some_ : name ≠ []) :
    nameOf (front name) ≠ some name := by
  intro read
  have whole : name.length ≤ (strip isBlank (front name)).length := nameOf_length read
  have kept : front name = name := by
    have prefix_ : front name <+: name := List.rdropWhile_prefix _ _
    exact prefix_.eq_of_length (le_antisymm prefix_.length_le
      (whole.trans (length_strip_le (front name))))
  rw [kept] at whole
  have trimmed : name.rdropWhile isBlank = name := by
    have prefix_ : name.rdropWhile isBlank <+: name := List.rdropWhile_prefix _ _
    apply prefix_.eq_of_length (le_antisymm prefix_.length_le (whole.trans ?_))
    exact (List.dropWhile_suffix _).length_le
  -- the last character would be a blank and none
  have blank := List.rdropWhile_eq_self_iff.mp kept some_
  have solid := List.rdropWhile_eq_self_iff.mp trimmed some_
  rw [Bool.not_eq_true, Bool.not_eq_false'] at blank
  exact solid blank

theorem looksLikeFolder_shown (given : e.shown ≠ []) :
    looksLikeFolder e.shown = true ↔ e.shown.all Char.isUpper ∧ 'D' ∈ e.shown := by
  have short : e.shown.length ≤ 15 := by
    rw [shown, List.length_take]
    exact (min_le_left _ _).trans (by decide)
  rw [looksLikeFolder, List.take_of_length_le short, List.drop_of_length_le short,
    List.isEmpty_eq_false_iff.mpr given]
  simp

theorem folder?_of_directory (directory : e.isDirectory = true) (dot : e.name ≠ ['.'])
    (dots : e.name ≠ ['.', '.']) : e.folder? = some e.name := if_pos ⟨directory, dot, dots⟩

theorem readLine_directory (directory : e.isDirectory = true) :
    readLine e.line = e.folder? ↔ e.Readable := by
  have inside : 'D' ∈ e.attr := of_decide_eq_true directory
  have given : e.shown ≠ [] := by
    rw [shown, ne_eq, List.take_eq_nil_iff]
    rintro (none_ | empty)
    · omega
    · exact absurd (empty ▸ inside) List.not_mem_nil
  rw [Readable, if_pos directory]
  by_cases special : e.name = ['.'] ∨ e.name = ['.', '.']
  · have small : e.name.length < 30 := by rcases special with dot | dots <;> simp [*]
    have unnamed : nameOf e.name = none := by
      rcases special with dot | dots
      · rw [dot]
        rfl
      · rw [dots]
        rfl
    have none_ : e.folder? = none := by
      rw [folder?, if_neg]
      rintro ⟨-, dot, dots⟩
      exact special.elim dot dots
    rw [none_, e.readLine_apart given (Or.inl small), unnamed, ite_self]
    simp only [true_iff]
    tauto
  · obtain ⟨dot, dots⟩ := not_or.mp special
    rw [e.folder?_of_directory directory dot dots]
    simp only [dot, dots, false_or]
    by_cases apart : e.Apart
    · rw [e.readLine_apart given apart]
      have looks := e.looksLikeFolder_shown given
      split_ifs with looked
      · rw [nameOf_eq_self_iff dot dots]
        have attrs := looks.mp looked
        tauto
      · simp only [false_iff]
        tauto
    · rw [e.readLine_touching given apart]
      have long : e.name ≠ [] := by
        intro empty
        exact apart (Or.inl (by rw [empty]; decide))
      have wrong := nameOf_front_ne long
      split_ifs
      · tauto
      · simp only [false_iff]
        tauto

/-- A file is read right where nothing of it passes for a folder's attributes. -/
theorem readLine_file (file : e.isDirectory = false) :
    readLine e.line = e.folder? ↔ e.Readable := by
  have outside : 'D' ∉ e.attr := of_decide_eq_false file
  have none_ : e.folder? = none := by
    rw [folder?, if_neg]
    rintro ⟨directory, -⟩
    exact Bool.noConfusion (file.symm.trans directory)
  rw [none_, Readable, if_neg (by rw [file]; exact Bool.false_ne_true)]
  have misread (word left : List Char) :
      (if looksLikeFolder word then nameOf left else none) = none ↔
        ¬(looksLikeFolder word ∧ Names left) := by
    split_ifs with looked
    · rw [nameOf_eq_none_iff]
      tauto
    · simp only [true_iff]
      tauto
  by_cases bare : e.shown = []
  · rw [if_pos bare, e.readLine_bare bare, misread]
  · rw [if_neg bare]
    by_cases apart : e.Apart
    · have plain : looksLikeFolder e.shown = false := by
        rw [Bool.eq_false_iff, ne_eq, e.looksLikeFolder_shown bare]
        rintro ⟨-, inside⟩
        exact outside (List.mem_of_mem_take inside)
      rw [e.readLine_apart bare apart, plain]
      simp [apart]
    · rw [e.readLine_touching bare apart, misread]
      simp [apart]

theorem readLine_iff : readLine e.line = e.folder? ↔ e.Readable := by
  cases kind : e.isDirectory with
  | true => exact e.readLine_directory kind
  | false => exact e.readLine_file kind

theorem date_solid {c : Char} (inside : c ∈ e.date) (space : isSpace c = true) :
    isBlank c = true := by
  have word (word : DateWord) (letter : c ∈ word.letters) : isBlank c = true := by
    rw [word.solid c letter] at space
    exact Bool.noConfusion space
  have one (blank : c ∈ [' ']) : isBlank c = true := by
    rw [List.mem_singleton.mp blank]
    rfl
  simp only [date, padLeft, List.mem_append] at inside
  rcases inside with ((((((wday | blank) | mon) | more | mday) | blank) | time) | blank) | year
  · exact word _ wday
  · exact one blank
  · exact word _ mon
  · exact isBlank_replicate _ c more
  · exact word _ mday
  · exact one blank
  · exact word _ time
  · exact one blank
  · exact word _ year

theorem line_single : '\n' ∉ e.line := by
  intro inside
  have blank : isBlank '\n' = true := by
    simp only [line, padLeft, List.mem_append] at inside
    rcases inside with (((head | one) | more | digit) | two) | date
    · exact e.head_solid head rfl
    · exact absurd one (by decide)
    · exact isBlank_replicate _ _ more
    · exact absurd (e.digits_solid digit) (by decide)
    · exact absurd two (by decide)
    · exact e.date_solid date rfl
  exact absurd blank (by decide)

end Entry

/-! ## The folders of a listing -/

theorem Row.line_single (row : Row) : '\n' ∉ row.line := by
  cases row with
  | entry e => exact e.line_single
  | remark text _ single => exact single

theorem parseSmbLs_listing (rows : List Row) (max : ℕ) :
    parseSmbLs (listing rows) max = (rows.filterMap fun row => readLine row.line).take max := by
  have spread : listing rows = (rows.map Row.line).flatMap (· ++ ['\n']) := by
    rw [List.flatMap_map]
    rfl
  have plain : ∀ line ∈ rows.map Row.line, '\n' ∉ line := by
    intro line inside
    obtain ⟨row, -, rfl⟩ := List.mem_map.mp inside
    exact row.line_single
  rw [parseSmbLs, spread, pieces_terminated plain, List.filterMap_filter, List.filterMap_map]
  congr 2
  funext row
  cases empty : row.line with
  | nil => simp [empty, readLine]
  | cons c line => simp [empty]

theorem Row.readLine_line {row : Row} (readable : ∀ e, row = .entry e → e.Readable) :
    readLine row.line = row.folder? := by
  cases row with
  | entry e => exact e.readLine_iff.mpr (readable e rfl)
  | remark text apart _ => exact if_neg apart

/-- Every listing of entries of some kind gives its folders, in their order and as many as
there is room for, exactly where every entry of the kind is readable. -/
theorem folders_read_iff (kind : Entry → Prop) :
    (∀ rows : List Row, (∀ e, .entry e ∈ rows → kind e) → ∀ max,
      parseSmbLs (listing rows) max = (rows.filterMap Row.folder?).take max) ↔
        ∀ e, kind e → e.Readable := by
  constructor
  · intro right e some_
    have alone := right [.entry e] (fun f inside => by
      obtain rfl : f = e := by simpa using inside
      exact some_) 1
    rw [parseSmbLs_listing] at alone
    apply e.readLine_iff.mp
    cases read : readLine e.line <;> cases folder : e.folder? <;>
      simp_all [Row.line, Row.folder?]
  · intro readable rows kinds max
    rw [parseSmbLs_listing]
    congr 1
    apply List.filterMap_congr
    intro row inside
    apply Row.readLine_line
    rintro e rfl
    exact readable e (kinds e inside)

theorem solid_of_all {text : List Char} (all : (text.all fun c => !isSpace c) = true) :
    ∀ c ∈ text, isSpace c = false := by
  simpa using all

theorem printable_of_all {text : List Char}
    (all : (text.all fun c => !isSpace c || isBlank c) = true) :
    ∀ c ∈ text, isSpace c = true → isBlank c = true := by
  intro c inside spaced
  simpa [spaced] using List.all_eq_true.mp all c inside

/-- A file without attributes whose name ends in a capital D. -/
def vitaminD : Entry :=
  { name := "Vitamin D".toList, attr := [], size := 1234
    wday := ⟨"Fri".toList, by decide, solid_of_all rfl⟩
    mon := ⟨"Sep".toList, by decide, solid_of_all rfl⟩
    mday := ⟨"26".toList, by decide, solid_of_all rfl⟩
    time := ⟨"12:00:00".toList, by decide, solid_of_all rfl⟩
    year := ⟨"2026".toList, by decide, solid_of_all rfl⟩
    printable := printable_of_all rfl
    letters := solid_of_all rfl
    short := by decide }

theorem vitaminD_is_listed :
    ¬∀ (rows : List Row) (max : ℕ),
      parseSmbLs (listing rows) max = (rows.filterMap Row.folder?).take max := by
  intro right
  exact absurd (right [.entry vitaminD] 16) (by decide)

end PiFire.Backup
