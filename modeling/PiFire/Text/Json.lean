import PiFire.Control.Json
import PiFire.Parsing.Reader
import Mathlib.Tactic.IntervalCases

/-!
# JSON as text

How a tree is printed without spaces and how a text is parsed, as the vendored
parser does both. The characters of a text stand for its bytes. How a number is
written and read is the library's, and is taken as a parameter.
-/

namespace PiFire

open Parsing

/-- How numbers are written and read: the digits of a number, and the number at
the start of a run of characters with how many of them it takes. -/
structure NumberFormat where
  digits : ℚ → List Char
  read : List Char → Option (ℚ × ℕ)

/-- The characters of a number. -/
def isNumberChar (c : Char) : Bool := c.isDigit || c ∈ ['+', '-', 'e', 'E', '.']

/-- What a number may begin with. -/
def startsNumber (c : Char) : Bool := c = '-' || c.isDigit

/-- What the library promises of its numbers: one is written in the characters
of numbers and read to its end with the sign it had, and reading takes no more
than there is. -/
structure NumberFormat.Lawful (format : NumberFormat) : Prop where
  starts : ∀ x, ∃ first rest, format.digits x = first :: rest ∧ startsNumber first = true
  chars : ∀ x, ∀ c ∈ format.digits x, isNumberChar c = true
  reads : ∀ x, ∃ kept, format.read (format.digits x) = some (kept, (format.digits x).length)
  within : ∀ text x used, format.read text = some (x, used) → used ≤ text.length
  signed : ∀ x kept used, format.read (format.digits x) = some (kept, used) →
    (0 < kept ↔ 0 < x) ∧ (kept = 0 ↔ x = 0)

/-- The number a printed number is read as. -/
def NumberFormat.kept (format : NumberFormat) (x : ℚ) : ℚ :=
  ((format.read (format.digits x)).map Prod.fst).getD x

/-- A hexadecimal digit. -/
def hexDigit (n : ℕ) : Char := Char.ofNat (if n < 10 then '0'.toNat + n else 'a'.toNat + (n - 10))

/-- A character as it stands in a printed string. -/
def escape (c : Char) : List Char :=
  if 31 < c.toNat ∧ c ≠ '"' ∧ c ≠ '\\' then [c]
  else if c = '\\' then ['\\', '\\']
  else if c = '"' then ['\\', '"']
  else if c.toNat = 8 then ['\\', 'b']
  else if c.toNat = 12 then ['\\', 'f']
  else if c = '\n' then ['\\', 'n']
  else if c = '\r' then ['\\', 'r']
  else if c = '\t' then ['\\', 't']
  else ['\\', 'u', '0', '0', hexDigit (c.toNat / 16), hexDigit (c.toNat % 16)]

def printString (s : String) : List Char := '"' :: s.toList.flatMap escape ++ ['"']

mutual

/-- A tree as text, without spaces. -/
def printUnformatted (format : NumberFormat) : Json → List Char
  | .null => "null".toList
  | .bool false => "false".toList
  | .bool true => "true".toList
  | .num x => format.digits x
  | .str s => printString s
  | .arr items => '[' :: List.intercalate [','] (printItems format items) ++ [']']
  | .obj members => '{' :: List.intercalate [','] (printMembers format members) ++ ['}']

def printItems (format : NumberFormat) : List Json → List (List Char)
  | [] => []
  | item :: rest => printUnformatted format item :: printItems format rest

def printMembers (format : NumberFormat) : List (String × Json) → List (List Char)
  | [] => []
  | (name, value) :: rest =>
      (printString name ++ ':' :: printUnformatted format value) :: printMembers format rest

end

/-- The inside of a string up to the quote that closes it. -/
def scanString : List Char → Option (List Char × List Char)
  | [] => none
  | '"' :: rest => some ([], rest)
  | '\\' :: c :: rest => (scanString rest).map fun found => ('\\' :: c :: found.1, found.2)
  | c :: rest => (scanString rest).map fun found => (c :: found.1, found.2)

/-- The value of a hexadecimal digit. -/
def hexValue (c : Char) : Option ℕ :=
  if '0' ≤ c ∧ c ≤ '9' then some (c.toNat - '0'.toNat)
  else if 'A' ≤ c ∧ c ≤ 'F' then some (10 + (c.toNat - 'A'.toNat))
  else if 'a' ≤ c ∧ c ≤ 'f' then some (10 + (c.toNat - 'a'.toNat))
  else none

/-- Four hexadecimal digits; anything else counts as zero. -/
def parseHex4 (a b c d : Char) : ℕ :=
  match hexValue a, hexValue b, hexValue c, hexValue d with
  | some a, some b, some c, some d => ((a * 16 + b) * 16 + c) * 16 + d
  | _, _, _, _ => 0

/-- A code point as the bytes that encode it. -/
def utf8Bytes (codepoint : ℕ) : List Char :=
  let tail := fun shift : ℕ => Char.ofNat (128 + codepoint / shift % 64)
  if codepoint < 0x80 then [Char.ofNat codepoint]
  else if codepoint < 0x800 then [Char.ofNat (0xC0 + codepoint / 64), tail 1]
  else if codepoint < 0x10000 then [Char.ofNat (0xE0 + codepoint / 4096), tail 64, tail 1]
  else [Char.ofNat (0xF0 + codepoint / 262144), tail 4096, tail 64, tail 1]

/-- The characters the inside of a string stands for. -/
def unescape : List Char → Option (List Char)
  | [] => some []
  | '\\' :: 'b' :: rest => (unescape rest).map (Char.ofNat 8 :: ·)
  | '\\' :: 'f' :: rest => (unescape rest).map (Char.ofNat 12 :: ·)
  | '\\' :: 'n' :: rest => (unescape rest).map ('\n' :: ·)
  | '\\' :: 'r' :: rest => (unescape rest).map ('\r' :: ·)
  | '\\' :: 't' :: rest => (unescape rest).map ('\t' :: ·)
  | '\\' :: '"' :: rest => (unescape rest).map ('"' :: ·)
  | '\\' :: '\\' :: rest => (unescape rest).map ('\\' :: ·)
  | '\\' :: '/' :: rest => (unescape rest).map ('/' :: ·)
  | '\\' :: 'u' :: a :: b :: c :: d :: rest =>
      let first := parseHex4 a b c d
      if 0xDC00 ≤ first ∧ first ≤ 0xDFFF then none
      else if 0xD800 ≤ first ∧ first ≤ 0xDBFF then
        match rest with
        | '\\' :: 'u' :: a :: b :: c :: d :: rest =>
            let second := parseHex4 a b c d
            if second < 0xDC00 ∨ 0xDFFF < second then none
            else (unescape rest).map
              (utf8Bytes (0x10000 + (first % 1024 * 1024 + second % 1024)) ++ ·)
        | _ => none
      else (unescape rest).map (utf8Bytes first ++ ·)
  | '\\' :: _ => none
  | c :: rest => (unescape rest).map (c :: ·)

/-- The characters of a C string, which ends at its first zero. -/
def cString (text : List Char) : String := String.ofList (text.takeWhile (·.toNat ≠ 0))

/-- A string in quotes. -/
def parseString : Reader Char String
  | '"' :: rest =>
      match scanString rest with
      | some (inside, left) => (unescape inside).map fun text => (cString text, left)
      | none => none
  | _ => none

/-- The characters skipped between the parts of a text. -/
def isBlank (c : Char) : Bool := c.toNat ≤ 32

def skipBlank (text : List Char) : List Char := text.dropWhile isBlank

def parseNumber (format : NumberFormat) : Reader Char Json := fun text =>
  match format.read (text.takeWhile isNumberChar) with
  | some (x, used) => if used = 0 then none else some (.num x, text.drop used)
  | none => none

/-- A value that has no values inside. -/
def parseScalar (format : NumberFormat) : Reader Char Json
  | 'n' :: 'u' :: 'l' :: 'l' :: rest => some (.null, rest)
  | 'f' :: 'a' :: 'l' :: 's' :: 'e' :: rest => some (.bool false, rest)
  | 't' :: 'r' :: 'u' :: 'e' :: rest => some (.bool true, rest)
  | '"' :: rest => (parseString ('"' :: rest)).map fun found => (.str found.1, found.2)
  | c :: rest => if startsNumber c then parseNumber format (c :: rest) else none
  | [] => none

/-- A member of an object: its name and its value. -/
def parseMember (value : Reader Char Json) : Reader Char (String × Json) := fun text =>
  match parseString text with
  | none => none
  | some (name, left) =>
      match skipBlank left with
      | ':' :: rest => (value (skipBlank rest)).map fun found => ((name, found.1), found.2)
      | _ => none

/-- The items after an opening bracket, if there are any. -/
def parseItems {α : Type} (item : Reader Char α) (close : Char) : Reader Char (List α) := fun text =>
  match skipBlank text with
  | [] => none
  | c :: rest =>
      if c = close then some ([], rest)
      else readSeparated isBlank item ',' close text.length text

/-- A value with at most `limit` arrays and objects inside each other. -/
def parseValue (format : NumberFormat) : ℕ → Reader Char Json
  | 0, text => parseScalar format text
  | limit + 1, '[' :: rest =>
      (parseItems (parseValue format limit) ']' rest).map fun found => (.arr found.1, found.2)
  | limit + 1, '{' :: rest =>
      (parseItems (parseMember (parseValue format limit)) '}' rest).map fun found =>
        (.obj found.1, found.2)
  | _ + 1, text => parseScalar format text

/-- How deep the arrays and objects of a text may nest. -/
def nestingLimit : ℕ := 1000

/-- The byte order mark at the start of a text is skipped. -/
def skipMark (text : List Char) : List Char :=
  if 4 ≤ text.length ∧ text.take 3 = [Char.ofNat 0xEF, Char.ofNat 0xBB, Char.ofNat 0xBF] then
    text.drop 3
  else text

/-- The tree a text holds; what comes after it is not looked at. -/
def parse (format : NumberFormat) (text : List Char) : Option Json :=
  (parseValue format nestingLimit (skipBlank (skipMark text))).map Prod.fst

end PiFire

/-!
# Numbers of one digit

A number library that is small enough to look into, and keeps what is promised.
-/

namespace PiFire

/-- A library for numbers of one digit: every other positive number is written as
one, and every negative one as minus one. -/
def digitFormat : NumberFormat where
  digits x :=
    if x < 0 then ['-', '1']
    else if x.den = 1 ∧ x.num.toNat < 10 then [Char.ofNat ('0'.toNat + x.num.toNat)]
    else ['1']
  read
    | '-' :: d :: _ => if d.isDigit then some (-(d.toNat - '0'.toNat : ℕ), 2) else none
    | d :: _ => if d.isDigit then some ((d.toNat - '0'.toNat : ℕ), 1) else none
    | [] => none

theorem digits_cases (x : ℚ) :
    (x < 0 ∧ digitFormat.digits x = ['-', '1']) ∨
      (∃ n < 10, x = (n : ℕ) ∧ digitFormat.digits x = [Char.ofNat ('0'.toNat + n)]) ∨
        (0 < x ∧ digitFormat.digits x = ['1']) := by
  simp only [digitFormat]
  split_ifs with neg whole
  · exact Or.inl ⟨neg, rfl⟩
  · refine Or.inr (Or.inl ⟨x.num.toNat, whole.2, ?_, rfl⟩)
    have nonneg : 0 ≤ x.num := Rat.num_nonneg.mpr (not_lt.mp neg)
    conv_lhs => rw [← Rat.num_div_den x, whole.1]
    rw [Nat.cast_one, div_one]
    exact_mod_cast (Int.toNat_of_nonneg nonneg).symm
  · refine Or.inr (Or.inr ⟨lt_of_le_of_ne (not_lt.mp neg) ?_, rfl⟩)
    rintro rfl
    exact whole (by decide)

theorem digit_read : ∀ n < 10, startsNumber (Char.ofNat ('0'.toNat + n)) = true ∧
    isNumberChar (Char.ofNat ('0'.toNat + n)) = true ∧
      digitFormat.read [Char.ofNat ('0'.toNat + n)] = some ((n : ℚ), 1) := by
  intro n small
  interval_cases n <;> exact ⟨by decide, by decide, rfl⟩

theorem digitFormat_lawful : digitFormat.Lawful where
  starts x := by
    rcases digits_cases x with ⟨-, same⟩ | ⟨n, small, -, same⟩ | ⟨-, same⟩
    · exact ⟨_, _, same, by decide⟩
    · exact ⟨_, _, same, (digit_read n small).1⟩
    · exact ⟨_, _, same, by decide⟩
  chars x := by
    rcases digits_cases x with ⟨-, same⟩ | ⟨n, small, -, same⟩ | ⟨-, same⟩
    · rw [same]
      exact List.all_eq_true.mp (by decide)
    · rw [same]
      exact List.forall_mem_singleton.mpr (digit_read n small).2.1
    · rw [same]
      exact List.all_eq_true.mp (by decide)
  reads x := by
    rcases digits_cases x with ⟨-, same⟩ | ⟨n, small, -, same⟩ | ⟨-, same⟩
    · rw [same]
      exact ⟨-(1 : ℕ), rfl⟩
    · rw [same]
      exact ⟨n, (digit_read n small).2.2⟩
    · rw [same]
      exact ⟨(1 : ℕ), rfl⟩
  within text x used read := by
    simp only [digitFormat] at read
    split at read
    · split_ifs at read
      simp only [Option.some.injEq, Prod.mk.injEq] at read
      simp [← read.2]
    · split_ifs at read
      simp only [Option.some.injEq, Prod.mk.injEq] at read
      simp [← read.2]
    · cases read
  signed x kept used read := by
    rcases digits_cases x with ⟨neg, same⟩ | ⟨n, small, rfl, same⟩ | ⟨pos, same⟩
    · rw [same] at read
      obtain rfl : (-(1 : ℕ) : ℚ) = kept := congrArg Prod.fst (Option.some_inj.mp read)
      constructor
      · exact iff_of_false (by decide) neg.not_gt
      · exact iff_of_false (by decide) neg.ne
    · rw [same, (digit_read n small).2.2] at read
      obtain rfl : ((n : ℕ) : ℚ) = kept := congrArg Prod.fst (Option.some_inj.mp read)
      exact ⟨Iff.rfl, Iff.rfl⟩
    · rw [same] at read
      obtain rfl : ((1 : ℕ) : ℚ) = kept := congrArg Prod.fst (Option.some_inj.mp read)
      exact ⟨by simp [pos], by simp [pos.ne']⟩

end PiFire
