import PiFire.Text.Json
import Mathlib.Data.List.TakeWhile
import Mathlib.Tactic.SplitIfs

/-!
# Strings as text

A printed string is read back as it was, as long as it holds no zero character,
which would end it; and what a string reader makes of a text does not depend on
what follows the closing quote.
-/

namespace PiFire

open Parsing

/-! ## Escapes -/

/-- The escapes of two characters, and what they stand for. -/
def shortEscapes : List (Char × Char) :=
  [('\\', '\\'), ('"', '"'), ('b', Char.ofNat 8), ('f', Char.ofNat 12), ('n', '\n'), ('r', '\r'),
    ('t', '\t')]

/-- How a character may be printed: as it is, by a letter, or by its code. -/
def IsEscape (c : Char) (e : List Char) : Prop :=
  (e = [c] ∧ c ≠ '"' ∧ c ≠ '\\') ∨
    (∃ letter, e = ['\\', letter] ∧ (letter, c) ∈ shortEscapes) ∨
      (c.toNat < 32 ∧ e = ['\\', 'u', '0', '0', hexDigit (c.toNat / 16), hexDigit (c.toNat % 16)])

theorem isEscape_escape (c : Char) : IsEscape c (escape c) := by
  unfold escape IsEscape
  split_ifs with plain back quote bell feed line ret tab
  · exact Or.inl ⟨rfl, plain.2⟩
  · exact Or.inr (Or.inl ⟨_, rfl, by rw [back]; decide⟩)
  · exact Or.inr (Or.inl ⟨_, rfl, by rw [quote]; decide⟩)
  · exact Or.inr (Or.inl ⟨_, rfl, by rw [← Char.ofNat_toNat c, bell]; decide⟩)
  · exact Or.inr (Or.inl ⟨_, rfl, by rw [← Char.ofNat_toNat c, feed]; decide⟩)
  · exact Or.inr (Or.inl ⟨_, rfl, by rw [line]; decide⟩)
  · exact Or.inr (Or.inl ⟨_, rfl, by rw [ret]; decide⟩)
  · exact Or.inr (Or.inl ⟨_, rfl, by rw [tab]; decide⟩)
  · refine Or.inr (Or.inr ⟨?_, rfl⟩)
    by_contra high
    exact plain ⟨by omega, quote, back⟩

theorem parseHex4_low {n : ℕ} (low : n < 32) :
    parseHex4 '0' '0' (hexDigit (n / 16)) (hexDigit (n % 16)) = n := by
  interval_cases n <;> decide

theorem hexDigit_plain {n : ℕ} (low : n < 32) :
    (hexDigit (n / 16) ≠ '"' ∧ hexDigit (n / 16) ≠ '\\') ∧
      (hexDigit (n % 16) ≠ '"' ∧ hexDigit (n % 16) ≠ '\\') := by
  interval_cases n <;> decide

theorem scanString_plain {c : Char} (quote : c ≠ '"') (back : c ≠ '\\') (tail : List Char) :
    scanString (c :: tail) = (scanString tail).map fun found => (c :: found.1, found.2) := by
  rw [scanString.eq_def]
  split
  · next empty => cases empty
  · next same => exact absurd (List.cons.inj same).1 quote
  · next same => exact absurd (List.cons.inj same).1 back
  · next same =>
      obtain ⟨rfl, rfl⟩ := List.cons.inj same
      rfl

theorem scanString_escape {c : Char} {e : List Char} (is : IsEscape c e) (tail : List Char) :
    scanString (e ++ tail) = (scanString tail).map fun found => (e ++ found.1, found.2) := by
  rcases is with ⟨same, quote, back⟩ | ⟨letter, same, -⟩ | ⟨low, same⟩
  · rw [same]
    exact scanString_plain quote back tail
  · rw [same]
    rfl
  · obtain ⟨⟨highQuote, highBack⟩, lowQuote, lowBack⟩ := hexDigit_plain low
    rw [same]
    simp only [List.cons_append, List.nil_append, scanString]
    rw [scanString_plain (by decide) (by decide), scanString_plain (by decide) (by decide),
      scanString_plain highQuote highBack, scanString_plain lowQuote lowBack]
    cases scanString tail <;> rfl

theorem unescape_plain {c : Char} (back : c ≠ '\\') (tail : List Char) :
    unescape (c :: tail) = (unescape tail).map (c :: ·) := by
  rw [unescape]
  all_goals
    intros
    simp_all

theorem unescape_short {letter c : Char} (pair : (letter, c) ∈ shortEscapes) (tail : List Char) :
    unescape ('\\' :: letter :: tail) = (unescape tail).map (c :: ·) := by
  simp only [shortEscapes, List.mem_cons, Prod.mk.injEq, List.not_mem_nil, or_false] at pair
  rcases pair with ⟨rfl, rfl⟩ | ⟨rfl, rfl⟩ | ⟨rfl, rfl⟩ | ⟨rfl, rfl⟩ | ⟨rfl, rfl⟩ | ⟨rfl, rfl⟩ |
    ⟨rfl, rfl⟩ <;> rw [unescape]

theorem unescape_code {a b c d : Char} (low : parseHex4 a b c d < 0x80) (tail : List Char) :
    unescape ('\\' :: 'u' :: a :: b :: c :: d :: tail) =
      (unescape tail).map (Char.ofNat (parseHex4 a b c d) :: ·) := by
  have bytes : utf8Bytes (parseHex4 a b c d) = [Char.ofNat (parseHex4 a b c d)] := if_pos low
  have apart : ¬ (0xDC00 ≤ parseHex4 a b c d ∧ parseHex4 a b c d ≤ 0xDFFF) := by omega
  have single : ¬ (0xD800 ≤ parseHex4 a b c d ∧ parseHex4 a b c d ≤ 0xDBFF) := by omega
  rw [unescape.eq_def]
  simp only [apart, single, if_false, bytes]
  rfl

theorem unescape_escape {c : Char} {e : List Char} (is : IsEscape c e) (tail : List Char) :
    unescape (e ++ tail) = (unescape tail).map (c :: ·) := by
  rcases is with ⟨same, -, back⟩ | ⟨letter, same, pair⟩ | ⟨low, same⟩
  · rw [same]
    exact unescape_plain back tail
  · rw [same]
    exact unescape_short pair tail
  · rw [same]
    simp only [List.cons_append, List.nil_append]
    rw [unescape_code (by rw [parseHex4_low low]; omega), parseHex4_low low, Char.ofNat_toNat]

/-! ## A printed string -/

section Printed

variable {e : Char → List Char} (are : ∀ c, IsEscape c (e c))
include are

theorem scanString_printed (text rest : List Char) :
    scanString (text.flatMap e ++ '"' :: rest) = some (text.flatMap e, rest) := by
  induction text with
  | nil => rfl
  | cons c text ih =>
      rw [List.flatMap_cons, List.append_assoc, scanString_escape (are c), ih]
      rfl

theorem unescape_printed (text : List Char) : unescape (text.flatMap e) = some text := by
  induction text with
  | nil => rfl
  | cons c text ih =>
      rw [List.flatMap_cons, unescape_escape (are c), ih]
      rfl

end Printed

/-- Whether a string has no character that would end it. -/
def unbroken (s : String) : Bool := s.toList.all fun c => c.toNat ≠ 0

theorem cString_of_unbroken {s : String} (whole : unbroken s = true) : cString s.toList = s := by
  have all : s.toList.takeWhile (fun c => c.toNat ≠ 0) = s.toList := by
    rw [List.takeWhile_eq_self_iff]
    simpa [unbroken] using whole
  rw [cString, all, String.ofList_toList]

theorem unbroken_cString (text : List Char) : unbroken (cString text) = true := by
  rw [unbroken, cString, String.toList_ofList, List.all_eq_true]
  intro c inside
  exact List.mem_takeWhile_imp (p := fun c : Char => decide (c.toNat ≠ 0)) inside

theorem parseString_escaped {e : Char → List Char} (are : ∀ c, IsEscape c (e c)) {s : String}
    (whole : unbroken s = true) (rest : List Char) :
    parseString ('"' :: (s.toList.flatMap e ++ '"' :: rest)) = some (s, rest) := by
  simp only [parseString, scanString_printed are, unescape_printed are, Option.map_some,
    cString_of_unbroken whole]

theorem parseString_printed {s : String} (whole : unbroken s = true) (rest : List Char) :
    parseString (printString s ++ rest) = some (s, rest) := by
  rw [printString, List.cons_append, List.cons_append, List.append_assoc]
  exact parseString_escaped isEscape_escape whole rest

/-! ## What follows the quote -/

theorem scanString_closed : Closed scanString := by
  intro text left value found more
  induction text using scanString.induct generalizing value with
  | case1 => cases found
  | case2 rest =>
      obtain ⟨rfl, rfl⟩ := Prod.mk.inj (Option.some_inj.mp found)
      rfl
  | case3 c rest ih =>
      rw [scanString] at found
      obtain ⟨inner, scanned, same⟩ := Option.map_eq_some_iff.mp found
      obtain ⟨rfl, rfl⟩ := Prod.mk.inj same
      rw [List.cons_append, List.cons_append, scanString, ih scanned]
      rfl
  | case4 c rest quote back ih =>
      rw [scanString] at found
      · obtain ⟨inner, scanned, same⟩ := Option.map_eq_some_iff.mp found
        obtain ⟨rfl, rfl⟩ := Prod.mk.inj same
        -- a backslash at the very end would not have been scanned
        have plain : c ≠ '\\' := by
          rintro rfl
          cases rest with
          | nil => cases scanned
          | cons next rest => exact back next rest rfl rfl
        rw [List.cons_append, scanString_plain quote plain, ih scanned]
        rfl
      · exact quote
      · exact back

theorem parseString_closed : Closed parseString := by
  intro text left value found more
  unfold parseString at found
  split at found
  · next rest =>
      split at found
      · next inside after scanned =>
          obtain ⟨plain, read, same⟩ := Option.map_eq_some_iff.mp found
          obtain ⟨rfl, rfl⟩ := Prod.mk.inj same
          rw [List.cons_append, parseString, scanString_closed scanned more]
          simp only [read, Option.map_some]
      · cases found
  · cases found

end PiFire

/-!
# The numbers in a tree

A tree as a shape with numbers in it: changing the numbers keeps the shape, two
trees of one shape are the same when their numbers are, and whether a tree can
be printed and parsed at all depends on its shape alone.
-/

namespace PiFire

namespace Json

/-! ## Definitions -/

mutual

/-- A tree with every number in it changed. -/
def mapNumbers (f : ℚ → ℚ) : Json → Json
  | .num x => .num (f x)
  | .arr items => .arr (mapNumbersItems f items)
  | .obj members => .obj (mapNumbersMembers f members)
  | node => node

def mapNumbersItems (f : ℚ → ℚ) : List Json → List Json
  | [] => []
  | item :: rest => mapNumbers f item :: mapNumbersItems f rest

def mapNumbersMembers (f : ℚ → ℚ) : List (String × Json) → List (String × Json)
  | [] => []
  | (name, value) :: rest => (name, mapNumbers f value) :: mapNumbersMembers f rest

end

mutual

/-- The numbers in a tree, in the order they are printed. -/
def numbers : Json → List ℚ
  | .num x => [x]
  | .arr items => numbersItems items
  | .obj members => numbersMembers members
  | _ => []

def numbersItems : List Json → List ℚ
  | [] => []
  | item :: rest => numbers item ++ numbersItems rest

def numbersMembers : List (String × Json) → List ℚ
  | [] => []
  | (_, value) :: rest => numbers value ++ numbersMembers rest

end

mutual

/-- Whether a tree can stand in a text: its strings are unbroken, and at most
`limit` arrays and objects are inside each other. -/
def fits : Json → ℕ → Bool
  | .str s, _ => unbroken s
  | .arr _, 0 => false
  | .obj _, 0 => false
  | .arr items, limit + 1 => fitsItems items limit
  | .obj members, limit + 1 => fitsMembers members limit
  | _, _ => true

def fitsItems : List Json → ℕ → Bool
  | [], _ => true
  | item :: rest, limit => fits item limit && fitsItems rest limit

def fitsMembers : List (String × Json) → ℕ → Bool
  | [], _ => true
  | (name, value) :: rest, limit => unbroken name && fits value limit && fitsMembers rest limit

end

/-- A tree without its numbers. -/
def shape (node : Json) : Json := node.mapNumbers fun _ => 0

/-! ## Lists of trees -/

theorem mapNumbersItems_eq (f : ℚ → ℚ) (items : List Json) :
    mapNumbersItems f items = items.map (mapNumbers f) := by
  induction items with
  | nil => rfl
  | cons item rest ih => rw [mapNumbersItems, ih, List.map_cons]

theorem mapNumbersMembers_eq (f : ℚ → ℚ) (members : List (String × Json)) :
    mapNumbersMembers f members = members.map fun entry => (entry.1, mapNumbers f entry.2) := by
  induction members with
  | nil => rfl
  | cons entry rest ih => rw [mapNumbersMembers, ih, List.map_cons]

theorem fitsItems_iff {items : List Json} {limit : ℕ} :
    fitsItems items limit = true ↔ ∀ item ∈ items, fits item limit = true := by
  induction items with
  | nil => simp [fitsItems]
  | cons item rest ih => simp [fitsItems, ih]

theorem fitsMembers_iff {members : List (String × Json)} {limit : ℕ} :
    fitsMembers members limit = true ↔
      ∀ entry ∈ members, unbroken entry.1 = true ∧ fits entry.2 limit = true := by
  induction members with
  | nil => simp [fitsMembers]
  | cons entry rest ih =>
      obtain ⟨name, value⟩ := entry
      simp [fitsMembers, ih]

/-! ## Changing the numbers -/

mutual

theorem mapNumbers_mapNumbers (f g : ℚ → ℚ) (node : Json) :
    (node.mapNumbers f).mapNumbers g = node.mapNumbers (g ∘ f) := by
  cases node with
  | arr items => exact congrArg Json.arr (mapNumbersItems_mapNumbersItems f g items)
  | obj members => exact congrArg Json.obj (mapNumbersMembers_mapNumbersMembers f g members)
  | _ => rfl

theorem mapNumbersItems_mapNumbersItems (f g : ℚ → ℚ) (items : List Json) :
    mapNumbersItems g (mapNumbersItems f items) = mapNumbersItems (g ∘ f) items := by
  cases items with
  | nil => rfl
  | cons item rest =>
      simp only [mapNumbersItems, mapNumbers_mapNumbers f g item,
        mapNumbersItems_mapNumbersItems f g rest]

theorem mapNumbersMembers_mapNumbersMembers (f g : ℚ → ℚ) (members : List (String × Json)) :
    mapNumbersMembers g (mapNumbersMembers f members) = mapNumbersMembers (g ∘ f) members := by
  cases members with
  | nil => rfl
  | cons entry rest =>
      obtain ⟨name, value⟩ := entry
      simp only [mapNumbersMembers, mapNumbers_mapNumbers f g value,
        mapNumbersMembers_mapNumbersMembers f g rest]

end

mutual

theorem numbers_mapNumbers (f : ℚ → ℚ) (node : Json) :
    (node.mapNumbers f).numbers = node.numbers.map f := by
  cases node with
  | arr items => exact numbersItems_mapNumbersItems f items
  | obj members => exact numbersMembers_mapNumbersMembers f members
  | _ => rfl

theorem numbersItems_mapNumbersItems (f : ℚ → ℚ) (items : List Json) :
    numbersItems (mapNumbersItems f items) = (numbersItems items).map f := by
  cases items with
  | nil => rfl
  | cons item rest =>
      simp only [mapNumbersItems, numbersItems, List.map_append, numbers_mapNumbers f item,
        numbersItems_mapNumbersItems f rest]

theorem numbersMembers_mapNumbersMembers (f : ℚ → ℚ) (members : List (String × Json)) :
    numbersMembers (mapNumbersMembers f members) = (numbersMembers members).map f := by
  cases members with
  | nil => rfl
  | cons entry rest =>
      obtain ⟨name, value⟩ := entry
      simp only [mapNumbersMembers, numbersMembers, List.map_append, numbers_mapNumbers f value,
        numbersMembers_mapNumbersMembers f rest]

end

@[simp] theorem shape_mapNumbers (f : ℚ → ℚ) (node : Json) :
    (node.mapNumbers f).shape = node.shape := by
  rw [shape, shape, mapNumbers_mapNumbers]
  rfl

/-! ## Trees of one shape -/

mutual

theorem eq_of_shape {j k : Json} (same : j.shape = k.shape) {xs ys : List ℚ}
    (values : j.numbers ++ xs = k.numbers ++ ys) : j = k ∧ xs = ys := by
  cases j with
  | null =>
      cases k with
      | null => exact ⟨rfl, values⟩
      | _ => cases same
  | bool b =>
      cases k with
      | bool c =>
          cases same
          exact ⟨rfl, values⟩
      | _ => cases same
  | str s =>
      cases k with
      | str t =>
          cases same
          exact ⟨rfl, values⟩
      | _ => cases same
  | num x =>
      cases k with
      | num y =>
          obtain ⟨rfl, rest⟩ := List.cons.inj values
          exact ⟨rfl, rest⟩
      | _ => cases same
  | arr items =>
      cases k with
      | arr others =>
          obtain ⟨rfl, rest⟩ := eq_of_shapeItems (Json.arr.inj same) values
          exact ⟨rfl, rest⟩
      | _ => cases same
  | obj members =>
      cases k with
      | obj others =>
          obtain ⟨rfl, rest⟩ := eq_of_shapeMembers (Json.obj.inj same) values
          exact ⟨rfl, rest⟩
      | _ => cases same

theorem eq_of_shapeItems {items others : List Json}
    (same : mapNumbersItems (fun _ => 0) items = mapNumbersItems (fun _ => 0) others)
    {xs ys : List ℚ} (values : numbersItems items ++ xs = numbersItems others ++ ys) :
    items = others ∧ xs = ys := by
  cases items with
  | nil =>
      cases others with
      | nil => exact ⟨rfl, values⟩
      | cons _ _ => cases same
  | cons item rest =>
      cases others with
      | nil => cases same
      | cons other others =>
          obtain ⟨first, later⟩ := List.cons.inj same
          simp only [numbersItems, List.append_assoc] at values
          obtain ⟨rfl, tail⟩ := eq_of_shape first values
          obtain ⟨rfl, left⟩ := eq_of_shapeItems later tail
          exact ⟨rfl, left⟩

theorem eq_of_shapeMembers {members others : List (String × Json)}
    (same : mapNumbersMembers (fun _ => 0) members = mapNumbersMembers (fun _ => 0) others)
    {xs ys : List ℚ} (values : numbersMembers members ++ xs = numbersMembers others ++ ys) :
    members = others ∧ xs = ys := by
  cases members with
  | nil =>
      cases others with
      | nil => exact ⟨rfl, values⟩
      | cons _ _ => cases same
  | cons entry rest =>
      cases others with
      | nil => cases same
      | cons other others =>
          obtain ⟨name, value⟩ := entry
          obtain ⟨_, _⟩ := other
          obtain ⟨first, later⟩ := List.cons.inj same
          obtain ⟨rfl, alike⟩ := Prod.mk.inj first
          simp only [numbersMembers, List.append_assoc] at values
          obtain ⟨rfl, tail⟩ := eq_of_shape alike values
          obtain ⟨rfl, left⟩ := eq_of_shapeMembers later tail
          exact ⟨rfl, left⟩

end

/-- Trees of one shape are the same when their numbers are. -/
theorem eq_iff_numbers {j k : Json} (same : j.shape = k.shape) :
    j = k ↔ j.numbers = k.numbers := by
  constructor
  · rintro rfl
    rfl
  · intro values
    have ended : j.numbers ++ [] = k.numbers ++ [] := by rw [values]
    exact (eq_of_shape same ended).1

/-! ## What fits -/

mutual

theorem fits_mapNumbers (f : ℚ → ℚ) (node : Json) (limit : ℕ) :
    (node.mapNumbers f).fits limit = node.fits limit := by
  cases node with
  | arr items =>
      cases limit with
      | zero => rfl
      | succ limit => exact fitsItems_mapNumbersItems f items limit
  | obj members =>
      cases limit with
      | zero => rfl
      | succ limit => exact fitsMembers_mapNumbersMembers f members limit
  | _ => rfl

theorem fitsItems_mapNumbersItems (f : ℚ → ℚ) (items : List Json) (limit : ℕ) :
    fitsItems (mapNumbersItems f items) limit = fitsItems items limit := by
  cases items with
  | nil => rfl
  | cons item rest =>
      simp only [mapNumbersItems, fitsItems, fits_mapNumbers f item,
        fitsItems_mapNumbersItems f rest]

theorem fitsMembers_mapNumbersMembers (f : ℚ → ℚ) (members : List (String × Json))
    (limit : ℕ) : fitsMembers (mapNumbersMembers f members) limit = fitsMembers members limit := by
  cases members with
  | nil => rfl
  | cons entry rest =>
      obtain ⟨name, value⟩ := entry
      simp only [mapNumbersMembers, fitsMembers, fits_mapNumbers f value,
        fitsMembers_mapNumbersMembers f rest]

end

theorem fits_of_shape {j k : Json} (same : j.shape = k.shape) (limit : ℕ) :
    j.fits limit = k.fits limit := by
  rw [← fits_mapNumbers (fun _ => 0) j, ← fits_mapNumbers (fun _ => 0) k]
  exact congrArg (fits · limit) same

end Json

end PiFire
