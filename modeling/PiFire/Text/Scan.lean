import Mathlib.Algebra.Group.Int.Defs
import Mathlib.Data.Int.Order.Basic
import Mathlib.Data.List.Basic
import Mathlib.Data.List.TakeWhile
import Mathlib.Order.Lattice
import Mathlib.Data.List.DropRight

/-!
# Numbers at the start of a text

`strtol` to base ten on characters that stand for bytes: blanks, a sign, digits, and where
they end. A `long` has 64 bits; a number outside it is its nearest.
-/

namespace PiFire

/-- `isspace` in the C locale. -/
def isSpace (c : Char) : Bool := c = ' ' || ('\t' ≤ c && c ≤ '\r')

def longMax : ℤ := 2 ^ 63 - 1

/-- A whole number as a `long`. -/
def toLong (n : ℤ) : ℤ := max (-longMax - 1) (min longMax n)

/-- The number a text starts with, and what follows it; without digits, zero and the text. -/
def strtol (text : List Char) : ℤ × List Char :=
  let begun := text.dropWhile isSpace
  let negative := begun.head? = some '-'
  let unsigned := if negative ∨ begun.head? = some '+' then begun.tail else begun
  let digits := unsigned.takeWhile Char.isDigit
  if digits.isEmpty then (0, text)
  else
    let size : ℤ := Nat.ofDigitChars 10 digits 0
    (toLong (if negative then -size else size), unsigned.dropWhile Char.isDigit)

theorem toLong_of_le {n : ℕ} (fits : (n : ℤ) ≤ longMax) : toLong n = n := by
  rw [toLong, min_eq_right fits, max_eq_right]
  have positive : 0 ≤ longMax := by decide
  omega

theorem isDigit_not_space {c : Char} (digit : c.isDigit = true) : isSpace c = false := by
  have least : '0' ≤ c := by
    simp only [Char.isDigit, Bool.and_eq_true, decide_eq_true_eq, ge_iff_le] at digit
    exact digit.1
  rw [isSpace, Bool.or_eq_false_iff]
  constructor
  · rw [decide_eq_false_iff_not]
    rintro rfl
    exact absurd least (by decide)
  · rw [Bool.and_eq_false_iff]
    refine Or.inr (decide_eq_false ?_)
    intro below
    exact absurd (Char.le_trans least below) (by decide)

theorem toDigits_isDigit {n : ℕ} : ∀ c ∈ Nat.toDigits 10 n, c.isDigit = true :=
  fun _ inside => Nat.isDigit_of_mem_toDigits (by decide) (by decide) inside

theorem strtol_toDigits {n : ℕ} (fits : (n : ℤ) ≤ longMax) {rest : List Char}
    (stops : ∀ c ∈ rest.head?, c.isDigit = false) :
    strtol (Nat.toDigits 10 n ++ rest) = ((n : ℤ), rest) := by
  obtain ⟨c, digits, printed⟩ := List.exists_cons_of_ne_nil (Nat.toDigits_ne_nil (b := 10) (n := n))
  have digit : c.isDigit = true := toDigits_isDigit c (printed ▸ List.mem_cons_self)
  have begun : (Nat.toDigits 10 n ++ rest).dropWhile isSpace = Nat.toDigits 10 n ++ rest := by
    rw [printed, List.cons_append, List.dropWhile_cons_of_neg]
    rw [isDigit_not_space digit]
    exact Bool.false_ne_true
  have first : (Nat.toDigits 10 n ++ rest).head? = some c := by rw [printed]; rfl
  have plain (sign : Char) (none_ : sign.isDigit = false) : c ≠ sign := by
    rintro rfl
    exact Bool.noConfusion (none_.symm.trans digit)
  have taken : (Nat.toDigits 10 n ++ rest).takeWhile Char.isDigit = Nat.toDigits 10 n := by
    rw [List.takeWhile_append_of_pos toDigits_isDigit]
    cases rest with
    | nil => simp
    | cons d rest =>
        rw [List.takeWhile_cons_of_neg, List.append_nil]
        rw [stops d rfl]
        exact Bool.false_ne_true
  have left : (Nat.toDigits 10 n ++ rest).dropWhile Char.isDigit = rest := by
    rw [List.dropWhile_append_of_pos toDigits_isDigit]
    cases rest with
    | nil => rfl
    | cons d rest =>
        rw [List.dropWhile_cons_of_neg]
        rw [stops d rfl]
        exact Bool.false_ne_true
  have unsigned : ¬(some c = some '-' ∨ some c = some '+') := by
    rintro (minus | plus)
    · exact plain '-' (by decide) (Option.some_inj.mp minus)
    · exact plain '+' (by decide) (Option.some_inj.mp plus)
  have positive : ¬some c = some '-' := fun minus => unsigned (Or.inl minus)
  rw [strtol]
  dsimp only
  rw [begun, first, if_neg unsigned, taken, left, if_neg, if_neg positive,
    Nat.ofDigitChars_toDigits (by decide) (by decide), toLong_of_le fits]
  rw [List.isEmpty_iff]
  exact Nat.toDigits_ne_nil

theorem strtol_dash {text : List Char} (plain : ∀ c ∈ text.head?, c.isDigit = false) :
    strtol ('-' :: text) = (0, '-' :: text) := by
  have begun : ('-' :: text).dropWhile isSpace = '-' :: text := by
    rw [List.dropWhile_cons_of_neg]
    decide
  have digits : text.takeWhile Char.isDigit = [] := by
    cases text with
    | nil => rfl
    | cons c text =>
        rw [List.takeWhile_cons_of_neg]
        rw [plain c rfl]
        exact Bool.false_ne_true
  rw [strtol]
  dsimp only
  have sign : ('-' :: text).head? = some '-' ∨ ('-' :: text).head? = some '+' := Or.inl rfl
  rw [begun, if_pos sign, List.tail_cons, digits]
  rfl

/-- Where nothing follows the number, the text is digits behind blanks and a sign. -/
theorem digits_of_strtol {text : List Char} (given : text ≠ []) (whole : (strtol text).2 = []) :
    ∃ sign digits, text.dropWhile isSpace = sign ++ digits ∧
      (sign = [] ∨ sign = ['-'] ∨ sign = ['+']) ∧ digits ≠ [] ∧ ∀ c ∈ digits, c.isDigit = true := by
  have spread : ∃ sign, text.dropWhile isSpace = sign ++
      (if (text.dropWhile isSpace).head? = some '-' ∨ (text.dropWhile isSpace).head? = some '+'
        then (text.dropWhile isSpace).tail else text.dropWhile isSpace) ∧
          (sign = [] ∨ sign = ['-'] ∨ sign = ['+']) := by
    cases text.dropWhile isSpace with
    | nil => exact ⟨[], rfl, Or.inl rfl⟩
    | cons c begun =>
        split
        · next signed =>
            rcases signed with minus | plus
            · exact ⟨['-'], by rw [Option.some_inj.mp minus]; rfl, Or.inr (Or.inl rfl)⟩
            · exact ⟨['+'], by rw [Option.some_inj.mp plus]; rfl, Or.inr (Or.inr rfl)⟩
        · exact ⟨[], rfl, Or.inl rfl⟩
  obtain ⟨sign, spread, signs⟩ := spread
  refine ⟨sign, _, spread, signs, ?_⟩
  rw [strtol] at whole
  dsimp only at whole
  generalize (if (text.dropWhile isSpace).head? = some '-' ∨
    (text.dropWhile isSpace).head? = some '+' then (text.dropWhile isSpace).tail
      else text.dropWhile isSpace) = unsigned at whole ⊢
  by_cases empty : (unsigned.takeWhile Char.isDigit).isEmpty = true
  · rw [if_pos empty] at whole
    exact absurd whole given
  · rw [if_neg empty] at whole
    constructor
    · rintro rfl
      exact empty rfl
    · exact List.dropWhile_eq_nil_iff.mp whole

end PiFire

/-!
# Words from the right

A text is taken apart at its blanks from the right, a word at a time. This file says what is
left after so many words, what the last word is, and what is left of a text without the
blanks around it.
-/

namespace Text

universe u

variable {α : Type u} (blank : α → Bool)

/-- The last word of a text. -/
def lastWord (text : List α) : List α :=
  (text.rdropWhile blank).rtakeWhile fun c => !blank c

/-- A text without its last word and the blanks after it. -/
def chop (text : List α) : List α :=
  (text.rdropWhile blank).rdropWhile fun c => !blank c

/-- A text without so many words at its end; nothing when it runs out of them. -/
def chops : ℕ → List α → Option (List α)
  | 0, text => some text
  | n + 1, text => if text.length = 0 then none else chops n (chop blank text)

/-- A text without the blanks around it. -/
def strip (text : List α) : List α :=
  (text.rdropWhile blank).dropWhile blank

variable {blank}

theorem rdropWhile_append_of_all {p : α → Bool} (text : List α) {end_ : List α}
    (all : ∀ c ∈ end_, p c = true) : (text ++ end_).rdropWhile p = text.rdropWhile p := by
  induction end_ using List.reverseRecOn with
  | nil => rw [List.append_nil]
  | append_singleton end_ c ih =>
      rw [← List.append_assoc, List.rdropWhile_concat_pos _ _ _ (all c (by simp))]
      exact ih fun d inside => all d (List.mem_append_left _ inside)

theorem rdropWhile_append {p : α → Bool} {begin_ : List α} (stops : begin_.rdropWhile p = begin_)
    (text : List α) : (begin_ ++ text).rdropWhile p = begin_ ++ text.rdropWhile p := by
  induction text using List.reverseRecOn with
  | nil => rw [List.append_nil, List.rdropWhile_nil, List.append_nil, stops]
  | append_singleton text c ih =>
      by_cases drops : p c = true
      · rw [← List.append_assoc, List.rdropWhile_concat_pos _ _ _ drops,
          List.rdropWhile_concat_pos _ _ _ drops, ih]
      · rw [← List.append_assoc, List.rdropWhile_concat_neg _ _ _ drops,
          List.rdropWhile_concat_neg _ _ _ drops, List.append_assoc]

theorem rdropWhile_concat_eq {p : α → Bool} {begin_ : List α} {c : α} (stops : p c = false) :
    (begin_ ++ [c]).rdropWhile p = begin_ ++ [c] := by
  apply List.rdropWhile_concat_neg
  rw [stops]
  exact Bool.false_ne_true

theorem length_rdropWhile_le (p : α → Bool) (text : List α) :
    (text.rdropWhile p).length ≤ text.length :=
  (List.rdropWhile_prefix p text).length_le

/-- A text is what is left of it, its last word and the blanks after that. -/
theorem chop_append_lastWord (text : List α) :
    chop blank text ++ lastWord blank text = text.rdropWhile blank :=
  List.rdropWhile_append_rtakeWhile

theorem lastWord_solid {text : List α} {c : α} (inside : c ∈ lastWord blank text) :
    blank c = false := by
  have solid := List.mem_rtakeWhile_imp inside
  simpa using solid

theorem lastWord_subset {text : List α} {c : α} (inside : c ∈ lastWord blank text) : c ∈ text := by
  apply (List.rdropWhile_prefix blank text).subset
  rw [← chop_append_lastWord]
  exact List.mem_append_right _ inside

theorem lastWord_eq_nil_iff {text : List α} :
    lastWord blank text = [] ↔ ∀ c ∈ text, blank c = true := by
  rw [lastWord, List.rtakeWhile_eq_nil_iff, ← List.rdropWhile_eq_nil_iff (p := blank)]
  constructor
  · intro blanks
    by_contra some_
    have solid := List.rdropWhile_last_not blank text some_
    apply blanks some_
    simpa using solid
  · intro empty given
    exact absurd empty given

/-- A word after a text that is empty or ends with a blank is chopped off. -/
theorem chop_word {text word gap : List α} (ends : text.rdropWhile (fun c => !blank c) = text)
    (given : word ≠ []) (solid : ∀ c ∈ word, blank c = false)
    (blanks : ∀ c ∈ gap, blank c = true) :
    chop blank (text ++ word ++ gap) = text := by
  obtain ⟨word, c, rfl⟩ := List.eq_nil_or_concat word |>.resolve_left given
  rw [chop, rdropWhile_append_of_all _ blanks]
  have last : blank c = false := solid c (by simp)
  rw [List.concat_eq_append, ← List.append_assoc, rdropWhile_concat_eq last, List.append_assoc]
  rw [rdropWhile_append_of_all, ends]
  intro d inside
  rw [solid d (by simpa using inside)]
  rfl

theorem lastWord_word {text word gap : List α} (ends : text.rdropWhile (fun c => !blank c) = text)
    (given : word ≠ []) (solid : ∀ c ∈ word, blank c = false)
    (blanks : ∀ c ∈ gap, blank c = true) :
    lastWord blank (text ++ word ++ gap) = word := by
  have whole : chop blank (text ++ word ++ gap) ++ lastWord blank (text ++ word ++ gap) =
      (text ++ word ++ gap).rdropWhile blank := chop_append_lastWord _
  rw [chop_word ends given solid blanks, rdropWhile_append_of_all _ blanks] at whole
  obtain ⟨word, c, rfl⟩ := List.eq_nil_or_concat word |>.resolve_left given
  have last : blank c = false := solid c (by simp)
  rw [List.concat_eq_append] at whole ⊢
  rw [← List.append_assoc text word [c], rdropWhile_concat_eq last, List.append_assoc text word]
    at whole
  exact List.append_cancel_left whole

theorem chops_succ {n : ℕ} {text : List α} (given : text ≠ []) :
    chops blank (n + 1) text = chops blank n (chop blank text) := by
  rw [chops, if_neg fun empty => given (List.length_eq_zero_iff.mp empty)]

/-- A word at the end is one of those that are left out. -/
theorem chops_word {n : ℕ} {text word gap : List α}
    (ends : text.rdropWhile (fun c => !blank c) = text) (given : word ≠ [])
    (solid : ∀ c ∈ word, blank c = false) (blanks : ∀ c ∈ gap, blank c = true) :
    chops blank (n + 1) (text ++ word ++ gap) = chops blank n text := by
  rw [chops_succ, chop_word ends given solid blanks]
  intro empty
  exact given (List.append_eq_nil_iff.mp (List.append_eq_nil_iff.mp empty).1).2

theorem strip_append_blanks (text : List α) {gap : List α} (blanks : ∀ c ∈ gap, blank c = true) :
    strip blank (text ++ gap) = strip blank text := by
  rw [strip, rdropWhile_append_of_all _ blanks, strip]

theorem strip_blanks_append {gap : List α} (blanks : ∀ c ∈ gap, blank c = true) (text : List α) :
    strip blank (gap ++ text) = strip blank text := by
  induction text using List.reverseRecOn with
  | nil =>
      rw [List.append_nil, ← List.nil_append gap]
      exact strip_append_blanks [] blanks
  | append_singleton text c ih =>
      by_cases blank_ : blank c = true
      · have one : ∀ d ∈ [c], blank d = true := by simpa using blank_
        rw [← List.append_assoc, strip_append_blanks _ one, strip_append_blanks _ one]
        exact ih
      · rw [← List.append_assoc, strip, strip, List.rdropWhile_concat_neg _ _ _ blank_,
          List.rdropWhile_concat_neg _ _ _ blank_, List.append_assoc]
        exact List.dropWhile_append_of_pos blanks

theorem length_strip_le (text : List α) : (strip blank text).length ≤ text.length :=
  (List.dropWhile_suffix _).length_le.trans (length_rdropWhile_le _ _)

end Text
