import Mathlib
import PiFire.Text.Listed
import PiFire.Update.Version

/-!
# Versions and their precedence

A version as Semantic Versioning has it, with any number of parts, its text, and which of two
comes first. The code reads the text; where both are of a size it holds, its order is the
precedence, unless the identifiers of one are those of the other and a number is next.
-/

namespace PiFire.Update

open Ranking Text

/-- What an identifier may consist of. -/
def idChar (c : Char) : Bool := c.isAlphanum || c = '-'

/-- A pre-release identifier. -/
inductive Identifier where
  | number (n : ℕ)
  | letters (text : List Char) (chars : ∀ c ∈ text, idChar c = true)
      (other : ∃ c ∈ text, c.isDigit = false)

/-- An identifier of what was built, which precedence does not look at. -/
abbrev BuildId := { text : List Char // text ≠ [] ∧ ∀ c ∈ text, idChar c = true }

structure Version where
  /-- Whether the letter `v` is before it. -/
  lead : Bool
  parts : List ℕ
  begun : parts ≠ []
  pre : List Identifier
  build : List BuildId

namespace Identifier

def text : Identifier → List Char
  | number n => Nat.toDigits 10 n
  | letters text _ _ => text

/-- Numbers by their size, before texts, which are in the order of their characters. -/
def precedence : Identifier → Identifier → Ordering
  | number n, number m => compare n m
  | number _, letters _ _ _ => .lt
  | letters _ _ _, number _ => .gt
  | letters a _ _, letters b _ _ => strcmp a b

/-- Identifiers in order; where all that one has are the same, the longer is higher. -/
def precedences : List Identifier → List Identifier → Ordering
  | [], [] => .eq
  | [], _ :: _ => .lt
  | _ :: _, [] => .gt
  | x :: xs, y :: ys => (x.precedence y).then (precedences xs ys)

/-- What the code holds of an identifier: no more than fits, and what starts with a dash has
more than digits behind it. -/
inductive Tame : Identifier → Prop
  | number {n : ℕ} (fits : (n : ℤ) ≤ longMax) : Tame (number n)
  | letters {text : List Char} {chars : ∀ c ∈ text, idChar c = true}
      {other : ∃ c ∈ text, c.isDigit = false} (fits : text.length ≤ idRoom)
      (apart : ∀ digits, text = '-' :: digits → ∃ c ∈ digits, c.isDigit = false) :
      Tame (letters text chars other)

end Identifier

namespace Version

open Identifier

/-- What is behind the parts. -/
def suffix (v : Version) : List Char :=
  if v.pre.isEmpty then [] else '-' :: joined '.' (v.pre.map Identifier.text)

def text (v : Version) : List Char :=
  (if v.lead then ['v'] else []) ++ joined '.' (v.parts.map (Nat.toDigits 10)) ++ v.suffix ++
    if v.build.isEmpty then [] else '+' :: joined '.' (v.build.map Subtype.val)

/-- The parts decide, missing ones being zero; then a version that is no pre-release is
higher; then the identifiers decide. -/
def precedence (v w : Version) : Ordering :=
  (padded compare 0 v.parts w.parts).then
    ((compare v.pre.isEmpty w.pre.isEmpty).then (precedences v.pre w.pre))

/-- What the code holds of a version. -/
structure Tame (v : Version) : Prop where
  short : v.parts.length ≤ 4
  small : ∀ n ∈ v.parts, (n : ℤ) ≤ longMax
  held : ∀ id ∈ v.pre, id.Tame
  unbuilt : v.build = []

/-- With fewer parts than the other, no digit is where the next could be. -/
def Aligned (v w : Version) : Prop :=
  v.parts.length < w.parts.length →
    ∀ id ∈ v.pre.head?, ∀ c ∈ id.text.head?, c.isDigit = false

/-- The same as the other up to where the other goes on with a number. -/
def Outnumbered (v w : Version) : Prop :=
  padded compare 0 v.parts w.parts = .eq ∧ v.pre ≠ [] ∧
    ∃ n more, w.pre = v.pre ++ .number n :: more

end Version

/-! ## Identifiers as they are read -/

/-- Whatever an identifier consists of comes after the dash. -/
theorem dash_le {c : Char} (fine : idChar c = true) : '-' ≤ c := by
  have after (least : Char) (later : '-' ≤ least) (reached : least ≤ c) : '-' ≤ c :=
    Char.le_trans later reached
  simp only [idChar, Char.isAlphanum, Char.isAlpha, Char.isUpper, Char.isLower, Char.isDigit,
    Bool.or_eq_true, Bool.and_eq_true, decide_eq_true_eq, ge_iff_le] at fine
  rcases fine with ((upper | lower) | digit) | dash
  · exact after 'A' (by decide) upper.1
  · exact after 'a' (by decide) lower.1
  · exact after '0' (by decide) digit.1
  · exact dash ▸ Char.le_refl '-'

theorem not_space {c : Char} (fine : idChar c = true) : isSpace c = false := by
  have least := dash_le fine
  rw [isSpace, Bool.or_eq_false_iff]
  constructor
  · rw [decide_eq_false_iff_not]
    rintro rfl
    exact absurd least (by decide)
  · rw [Bool.and_eq_false_iff]
    right
    rw [decide_eq_false_iff_not]
    intro below
    exact absurd (Char.le_trans least below) (by decide)

theorem not_point {c : Char} (fine : idChar c = true) : c ≠ '.' := by
  rintro rfl
  exact absurd fine (by decide)

namespace Identifier

theorem text_ne_nil (id : Identifier) : id.text ≠ [] := by
  cases id with
  | number n => exact Nat.toDigits_ne_nil
  | letters text chars other =>
      obtain ⟨c, inside, _⟩ := other
      exact List.ne_nil_of_mem inside

theorem idChar_of_mem (id : Identifier) : ∀ c ∈ id.text, idChar c = true := by
  cases id with
  | number n =>
      intro c inside
      have digit := toDigits_isDigit c inside
      simp [idChar, Char.isAlphanum, digit]
  | letters text chars other => exact chars

theorem length_le {id : Identifier} (tame : id.Tame) : id.text.length ≤ idRoom := by
  cases tame with
  | number fits =>
      refine (Nat.toDigits_length 10 _ 31 (by decide) ?_).trans le_rfl
      have room : longMax < (10 : ℤ) ^ 31 := by decide
      have below := lt_of_le_of_lt fits room
      exact_mod_cast below
  | letters fits apart => exact fits

theorem strtol_number {n : ℕ} (fits : (n : ℤ) ≤ longMax) :
    strtol (number n).text = ((n : ℤ), []) := by
  have read : strtol (Nat.toDigits 10 n ++ []) = ((n : ℤ), []) := strtol_toDigits fits (by simp)
  rwa [List.append_nil] at read

theorem isNumeric_number {n : ℕ} (fits : (n : ℤ) ≤ longMax) :
    isNumeric (number n).text = true := by
  rw [isNumeric, strtol_number fits, Bool.and_eq_true, Bool.not_eq_true', List.isEmpty_eq_false_iff]
  exact ⟨text_ne_nil _, rfl⟩

theorem isNumeric_letters {text : List Char} (chars : ∀ c ∈ text, idChar c = true)
    (other : ∃ c ∈ text, c.isDigit = false)
    (apart : ∀ digits, text = '-' :: digits → ∃ c ∈ digits, c.isDigit = false) :
    isNumeric (letters text chars other).text = false := by
  change isNumeric text = false
  have given : text ≠ [] := by
    obtain ⟨c, inside, _⟩ := other
    exact List.ne_nil_of_mem inside
  have solid : text.dropWhile isSpace = text := by
    cases text with
    | nil => rfl
    | cons c text =>
        rw [List.dropWhile_cons_of_neg]
        rw [not_space (chars c List.mem_cons_self)]
        exact Bool.false_ne_true
  rw [isNumeric, Bool.and_eq_false_iff]
  right
  rw [Bool.eq_false_iff]
  intro whole
  obtain ⟨sign, digits, spread, signs, _, all⟩ :=
    digits_of_strtol given (List.isEmpty_iff.mp whole)
  rw [solid] at spread
  rcases signs with rfl | rfl | rfl
  · obtain ⟨c, inside, plain⟩ := other
    rw [spread] at inside
    exact Bool.noConfusion (plain.symm.trans (all c inside))
  · obtain ⟨c, inside, plain⟩ := apart digits spread
    exact Bool.noConfusion (plain.symm.trans (all c inside))
  · have plus := chars '+' (spread ▸ List.mem_cons_self)
    exact absurd plus (by decide)

theorem compare_cast (a b : ℕ) : compare (a : ℤ) b = compare a b := by
  rcases lt_trichotomy a b with less | rfl | more
  · rw [compare_lt_iff_lt.mpr less, compare_lt_iff_lt.mpr (Int.ofNat_lt.mpr less)]
  · rw [compare_eq_iff_eq.mpr rfl, compare_eq_iff_eq.mpr rfl]
  · rw [compare_gt_iff_gt.mpr more, compare_gt_iff_gt.mpr (Int.ofNat_lt.mpr more)]

/-- Two identifiers the code holds are in the order of precedence. -/
theorem cmpId_text {x y : Identifier} (tameX : x.Tame) (tameY : y.Tame) :
    cmpId x.text y.text = x.precedence y := by
  rw [cmpId_eq]
  cases tameX with
  | number fitsX =>
      rw [isNumeric_number fitsX]
      cases tameY with
      | number fitsY =>
          rw [isNumeric_number fitsY, strtol_number fitsX, strtol_number fitsY]
          exact compare_cast _ _
      | @letters text chars other fits apart =>
          rw [isNumeric_letters chars other apart]
          rfl
  | @letters text chars other fits apart =>
      rw [isNumeric_letters chars other apart]
      cases tameY with
      | number fitsY =>
          rw [isNumeric_number fitsY]
          rfl
      | @letters textY charsY otherY fitsY apartY =>
          rw [isNumeric_letters charsY otherY apartY]
          rfl

theorem cmpId_nil {x : Identifier} (tame : x.Tame) :
    cmpId [] x.text = match x with | number _ => .gt | letters _ _ _ => .lt := by
  rw [cmpId_eq]
  cases tame with
  | number fits =>
      rw [isNumeric_number fits]
      rfl
  | @letters text chars other fits apart =>
      rw [isNumeric_letters chars other apart]
      cases text with
      | nil => exact absurd rfl (text_ne_nil (letters [] chars other))
      | cons c text => rfl

/-! ## The identifiers of a text -/

theorem nextId_text {x : Identifier} (tame : x.Tame) (rest : List Char)
    (stops : rest = [] ∨ rest.head? = some '.') :
    nextId (x.text ++ rest) = (x.text, rest.tail) := by
  have solid : ∀ c ∈ x.text, (decide (c ≠ '.')) = true := by
    intro c inside
    rw [decide_eq_true_eq]
    exact not_point (x.idChar_of_mem c inside)
  have taken : (x.text ++ rest).takeWhile (· ≠ '.') = x.text := by
    rw [List.takeWhile_append_of_pos solid]
    rcases stops with rfl | point
    · rw [List.takeWhile_nil, List.append_nil]
    · obtain ⟨more, rfl⟩ := List.head?_eq_some_iff.mp point
      rw [List.takeWhile_cons_of_neg (by simp), List.append_nil]
  have whole : ((x.text ++ rest).takeWhile (· ≠ '.')).take idRoom = x.text := by
    rw [taken]
    exact List.take_of_length_le (length_le tame)
  rw [nextId, whole, List.drop_left]
  rcases stops with rfl | point
  · rfl
  · rw [if_pos point]

theorem idsOf_joined {xs : List Identifier} (tame : ∀ x ∈ xs, x.Tame) {m : ℕ}
    (enough : xs.length ≤ m) : idsOf m (joined '.' (xs.map text)) = xs.map text := by
  induction xs generalizing m with
  | nil => exact idsOf_nil m
  | cons x xs ih =>
      obtain ⟨m, rfl⟩ : ∃ k, m = k + 1 := ⟨m - 1, by simp at enough; omega⟩
      have later : ∀ y ∈ xs, y.Tame := fun y inside => tame y (List.mem_cons_of_mem _ inside)
      have behind : (following '.' (xs.map text)).tail = joined '.' (xs.map text) := by
        cases xs with
        | nil => rfl
        | cons y ys =>
            rw [List.map_cons, joined_cons]
            simp [following]
      have stops : following '.' (xs.map text) = [] ∨
          (following '.' (xs.map text)).head? = some '.' := by
        cases xs with
        | nil => exact Or.inl rfl
        | cons y ys => exact Or.inr (by simp [following])
      have given : (joined '.' ((x :: xs).map text)).isEmpty = false := by
        rw [List.map_cons, joined_cons, List.isEmpty_eq_false_iff]
        intro empty
        exact text_ne_nil x (List.append_eq_nil_iff.mp empty).1
      rw [idsOf, given, List.map_cons, joined_cons,
        nextId_text (tame x List.mem_cons_self) _ stops, behind]
      rw [if_neg Bool.false_ne_true, ih later (by simpa using enough)]

theorem length_joined {xs : List Identifier} :
    xs.length ≤ (joined '.' (xs.map text)).length := by
  cases xs with
  | nil => rfl
  | cons x xs =>
      have one := List.length_pos_iff.mpr x.text_ne_nil
      have others : xs.length ≤ (following '.' (xs.map text)).length := by
        induction xs with
        | nil => rfl
        | cons y ys ih =>
            simp only [following, List.map_cons, List.flatMap_cons, List.length_append,
              List.length_cons] at *
            omega
      rw [List.map_cons, joined_cons, List.length_append, List.length_cons]
      omega

theorem ids_joined {xs : List Identifier} (tame : ∀ x ∈ xs, x.Tame) :
    ids (joined '.' (xs.map text)) = xs.map text := idsOf_joined tame length_joined

/-! ## Where the two orders agree -/

theorem precedence_eq_iff {x y : Identifier} : x.precedence y = .eq ↔ x = y := by
  cases x with
  | number n => cases y <;> simp [precedence]
  | letters a _ _ => cases y <;> simp [precedence, strcmp_eq_iff]

/-- The loop has the precedence of the identifiers, unless one list is the other and a number
is next. -/
theorem padded_texts {xs ys : List Identifier} (tameX : ∀ x ∈ xs, x.Tame)
    (tameY : ∀ y ∈ ys, y.Tame) :
    padded cmpId [] (xs.map text) (ys.map text) = precedences xs ys ↔
      ¬(∃ n more, ys = xs ++ number n :: more) ∧ ¬∃ n more, xs = ys ++ number n :: more := by
  induction xs generalizing ys with
  | nil =>
      cases ys with
      | nil => simp [padded, fillings, precedences]
      | cons y ys =>
          rw [List.map_nil, List.map_cons, padded, fillings,
            cmpId_nil (tameY y List.mem_cons_self)]
          cases y <;> simp [precedences]
  | cons x xs ih =>
      have tame := tameX x List.mem_cons_self
      cases ys with
      | nil =>
          have swapped : cmpId x.text [] = (cmpId [] x.text).swap := Std.OrientedCmp.eq_swap
          rw [List.map_nil, List.map_cons, padded, List.headD_nil, swapped, cmpId_nil tame]
          cases x <;> simp [precedences]
      | cons y ys =>
          rw [List.map_cons, List.map_cons, padded, List.headD_cons, List.tail_cons,
            cmpId_text tame (tameY y List.mem_cons_self), precedences]
          by_cases same : x = y
          · subst same
            rw [precedence_eq_iff.mpr rfl, Ordering.eq_then, Ordering.eq_then]
            rw [ih (fun z inside => tameX z (List.mem_cons_of_mem _ inside))
              (fun z inside => tameY z (List.mem_cons_of_mem _ inside))]
            simp
          · have decides : x.precedence y ≠ .eq := fun eq => same (precedence_eq_iff.mp eq)
            have apart : ∀ n more, y :: ys ≠ x :: xs ++ number n :: more := by
              rintro n more equal
              exact same (List.cons_eq_cons.mp equal).1.symm
            have apart' : ∀ n more, x :: xs ≠ y :: ys ++ number n :: more := by
              rintro n more equal
              exact same (List.cons_eq_cons.mp equal).1
            constructor
            · intro _
              constructor
              · rintro ⟨n, more, equal⟩
                exact apart n more equal
              · rintro ⟨n, more, equal⟩
                exact apart' n more equal
            · intro _
              cases order : x.precedence y with
              | eq => exact absurd order decides
              | lt => rfl
              | gt => rfl

end Identifier

/-! ## The parts as they are read -/

namespace Version

open Identifier

/-- The parts of a version, and what is behind them. -/
def partsText (parts : List ℕ) (behind : List Char) : List Char :=
  joined '.' (parts.map (Nat.toDigits 10)) ++ behind

/-- What can be behind the parts. -/
def Behind (text : List Char) : Prop := ∀ c ∈ text.head?, c.isDigit = false ∧ c ≠ '.'

theorem strtol_parts {parts : List ℕ} {behind : List Char}
    (small : ∀ n ∈ parts, (n : ℤ) ≤ longMax) (behind_ : Behind behind)
    (plain : parts = [] → strtol behind = (0, behind)) :
    strtol (partsText parts behind) = (((parts.headD 0 : ℕ) : ℤ),
      if parts.tail = [] then behind else '.' :: partsText parts.tail behind) := by
  cases parts with
  | nil => exact plain rfl
  | cons n parts =>
      have fits := small n List.mem_cons_self
      have spread : partsText (n :: parts) behind = Nat.toDigits 10 n ++
          (if parts = [] then behind else '.' :: partsText parts behind) := by
        cases parts with
        | nil => simp [partsText, joined]
        | cons m parts => simp [partsText, joined]
      rw [spread, strtol_toDigits fits]
      · rfl
      · intro c first
        by_cases none_ : parts = []
        · rw [if_pos none_] at first
          exact (behind_ c first).1
        · rw [if_neg none_] at first
          obtain rfl : '.' = c := Option.some_inj.mp first
          decide

/-- The loop has the order of the parts, missing ones being zero, and then of what is behind
them, if what is behind the fewer parts is no number. -/
theorem cmpParts_eq {n : ℕ} {ps qs : List ℕ} {s t : List Char}
    (smallP : ∀ p ∈ ps, (p : ℤ) ≤ longMax) (smallQ : ∀ q ∈ qs, (q : ℤ) ≤ longMax)
    (behindS : Behind s) (behindT : Behind t) (roomP : ps.length ≤ n) (roomQ : qs.length ≤ n)
    (plainS : ps.length < qs.length → strtol s = (0, s))
    (plainT : qs.length < ps.length → strtol t = (0, t))
    (given : n = 0 ∨ ps ≠ [] ∨ qs ≠ []) :
    cmpParts n (partsText ps s) (partsText qs t) =
      (padded compare 0 ps qs).then (cmpPrerelease (suffixOf s) (suffixOf t)) := by
  induction n generalizing ps qs with
  | zero =>
      obtain rfl : ps = [] := List.length_eq_zero_iff.mp (by omega)
      obtain rfl : qs = [] := List.length_eq_zero_iff.mp (by omega)
      rfl
  | succ n ih =>
      have some_ : ps ≠ [] ∨ qs ≠ [] := given.resolve_left (by omega)
      have plainS' : ps = [] → strtol s = (0, s) := by
        rintro rfl
        exact plainS (List.length_pos_iff.mpr (some_.resolve_left (not_not.mpr rfl)))
      have plainT' : qs = [] → strtol t = (0, t) := by
        rintro rfl
        exact plainT (List.length_pos_iff.mpr (some_.resolve_right (not_not.mpr rfl)))
      have further : ps.tail ≠ [] ∨ qs.tail ≠ [] →
          cmpParts n (partsText ps.tail s) (partsText qs.tail t) =
            (padded compare 0 ps.tail qs.tail).then
              (cmpPrerelease (suffixOf s) (suffixOf t)) := by
        intro more
        apply ih
        · exact fun p inside => smallP p (List.mem_of_mem_tail inside)
        · exact fun q inside => smallQ q (List.mem_of_mem_tail inside)
        · rw [List.length_tail]
          omega
        · rw [List.length_tail]
          omega
        · intro shorter
          exact plainS (by simp only [List.length_tail] at shorter; omega)
        · intro shorter
          exact plainT (by simp only [List.length_tail] at shorter; omega)
        · exact Or.inr more
      rw [cmpParts, strtol_parts smallP behindS plainS', strtol_parts smallQ behindT plainT',
        padded_eq ps qs]
      dsimp only
      by_cases same : ps.headD 0 = qs.headD 0
      · rw [same, if_neg (not_not.mpr rfl), compare_eq_iff_eq.mpr rfl, Ordering.eq_then]
        have noneS : ¬s.head? = some '.' := fun point => (behindS '.' point).2 rfl
        have noneT : ¬t.head? = some '.' := fun point => (behindT '.' point).2 rfl
        by_cases lastP : ps.tail = [] <;> by_cases lastQ : qs.tail = []
        · rw [if_pos lastP, if_pos lastQ, if_neg (not_and_of_not_left _ noneS), if_neg noneS,
            if_neg noneT, lastP, lastQ]
          rfl
        · rw [if_pos lastP, if_neg lastQ, if_neg (not_and_of_not_left _ noneS), if_neg noneS,
            List.head?_cons, if_pos rfl, ← further (Or.inr lastQ), lastP]
          rfl
        · rw [if_neg lastP, if_pos lastQ, if_neg (not_and_of_not_right _ noneT),
            List.head?_cons, if_pos rfl, ← further (Or.inl lastP), lastQ]
          rfl
        · rw [if_neg lastP, if_neg lastQ, if_pos ⟨rfl, rfl⟩]
          exact further (Or.inl lastP)
      · rw [if_pos (by exact_mod_cast same), compare_cast, Ordering.then_assoc]
        cases order : compare (ps.headD 0) (qs.headD 0) with
        | eq => exact absurd (compare_eq_iff_eq.mp order) same
        | lt => rfl
        | gt => rfl

theorem behind_suffix (v : Version) : Behind v.suffix := by
  intro c first
  rw [suffix] at first
  split at first
  · exact absurd first (by simp)
  · obtain rfl : '-' = c := Option.some_inj.mp first
    exact ⟨by decide, by decide⟩

theorem suffixOf_suffix (v : Version) :
    suffixOf v.suffix = joined '.' (v.pre.map Identifier.text) := by
  rw [suffix]
  split
  · next none_ =>
      rw [List.isEmpty_iff.mp none_]
      rfl
  · rfl

theorem head?_joined {id : Identifier} (more : List Identifier) :
    (joined '.' ((id :: more).map Identifier.text)).head? = id.text.head? := by
  rw [List.map_cons, joined_cons]
  obtain ⟨c, text, same⟩ := List.exists_cons_of_ne_nil id.text_ne_nil
  rw [same]
  rfl

theorem isEmpty_joined (xs : List Identifier) :
    (joined '.' (xs.map Identifier.text)).isEmpty = xs.isEmpty := by
  cases xs with
  | nil => rfl
  | cons x xs =>
      rw [List.isEmpty_cons, List.isEmpty_eq_false_iff, ne_eq, ← List.head?_eq_none_iff,
        head?_joined, List.head?_eq_none_iff]
      exact x.text_ne_nil

theorem strtol_suffix {v : Version}
    (plain : ∀ id ∈ v.pre.head?, ∀ c ∈ id.text.head?, c.isDigit = false) :
    strtol v.suffix = (0, v.suffix) := by
  rw [suffix]
  cases first : v.pre with
  | nil => rfl
  | cons id more =>
      rw [if_neg (by simp)]
      apply strtol_dash
      intro c inside
      rw [head?_joined] at inside
      exact plain id (by rw [first]; rfl) c inside

theorem text_of_tame {v : Version} (tame : v.Tame) :
    bareOf v.text = partsText v.parts v.suffix := by
  have bare : v.text = (if v.lead then ['v'] else []) ++ partsText v.parts v.suffix := by
    rw [text, tame.unbuilt, partsText]
    simp
  rw [bare]
  cases lead : v.lead with
  | true => rfl
  | false =>
      obtain ⟨n, parts, same⟩ := List.exists_cons_of_ne_nil v.begun
      obtain ⟨c, digits, printed⟩ :=
        List.exists_cons_of_ne_nil (Nat.toDigits_ne_nil (b := 10) (n := n))
      have digit : c.isDigit = true := toDigits_isDigit c (printed ▸ List.mem_cons_self)
      have first : (partsText v.parts v.suffix).head? = some c := by
        rw [partsText, same, List.map_cons, joined_cons, printed]
        rfl
      rw [if_neg Bool.false_ne_true, List.nil_append, bareOf, first, if_neg]
      rintro (small | large)
      · obtain rfl : c = 'v' := Option.some_inj.mp small
        exact absurd digit (by decide)
      · obtain rfl : c = 'V' := Option.some_inj.mp large
        exact absurd digit (by decide)

/-- Tame versions that are aligned compare by their parts and then by their identifiers. -/
theorem versionCompare_text {v w : Version} (tameV : v.Tame) (tameW : w.Tame)
    (alignedV : v.Aligned w) (alignedW : w.Aligned v) :
    versionCompare v.text w.text = (padded compare 0 v.parts w.parts).then
      (cmpPrerelease (joined '.' (v.pre.map Identifier.text))
        (joined '.' (w.pre.map Identifier.text))) := by
  rw [versionCompare, text_of_tame tameV, text_of_tame tameW, ← suffixOf_suffix,
    ← suffixOf_suffix]
  apply cmpParts_eq tameV.small tameW.small v.behind_suffix w.behind_suffix tameV.short tameW.short
  · exact fun fewer => strtol_suffix (alignedV fewer)
  · exact fun fewer => strtol_suffix (alignedW fewer)
  · exact Or.inr (Or.inl v.begun)

/-- Their order is the precedence, unless one is outnumbered by the other. -/
theorem versionCompare_text_iff {v w : Version} (tameV : v.Tame) (tameW : w.Tame)
    (alignedV : v.Aligned w) (alignedW : w.Aligned v) :
    versionCompare v.text w.text = v.precedence w ↔ ¬v.Outnumbered w ∧ ¬w.Outnumbered v := by
  have unless_ := padded_texts tameV.held tameW.held
  rw [versionCompare_text tameV tameW alignedV alignedW, cmpPrerelease_eq, precedence,
    ids_joined tameV.held, ids_joined tameW.held, isEmpty_joined, isEmpty_joined]
  have back : padded compare 0 w.parts v.parts = (padded compare 0 v.parts w.parts).swap :=
    padded_swap _ _
  rw [Outnumbered, Outnumbered, back]
  cases order : padded compare 0 v.parts w.parts with
  | lt => simp
  | gt => simp
  | eq =>
      rw [Ordering.eq_then, Ordering.eq_then]
      generalize v.pre = xs at unless_ ⊢
      generalize w.pre = ys at unless_ ⊢
      cases xs with
      | nil =>
          have release : compare true false = .gt := rfl
          cases ys <;> simp [padded, fillings, precedences, release]
      | cons x xs =>
          cases ys with
          | nil =>
              have release : compare false true = .lt := rfl
              simp [release]
          | cons y ys => simpa using unless_

/-- Two versions the code can hold side by side. -/
structure Paired (v w : Version) : Prop where
  left : v.Tame
  right : w.Tame
  leftAligned : v.Aligned w
  rightAligned : w.Aligned v

theorem versionCompare_isLE_trans {u v w : Version} (uv : u.Paired v) (vw : v.Paired w)
    (uw : u.Paired w) (first : (versionCompare u.text v.text).isLE)
    (second : (versionCompare v.text w.text).isLE) : (versionCompare u.text w.text).isLE := by
  rw [versionCompare_text uv.left uv.right uv.leftAligned uv.rightAligned] at first
  rw [versionCompare_text vw.left vw.right vw.leftAligned vw.rightAligned] at second
  rw [versionCompare_text uw.left uw.right uw.leftAligned uw.rightAligned]
  exact @then_isLE_trans _ (padded compare 0) _ _ _ _ _ _ _ Std.TransCmp.isLE_trans first second

end Version

open Version

/-- A version of three parts with these identifiers. -/
def threeParts (pre : List Identifier) : Version where
  lead := false
  parts := [1, 0, 0]
  begun := by decide
  pre := pre
  build := []

def alpha : Identifier :=
  .letters "alpha".toList (List.all_eq_true.mp rfl) ⟨'a', List.mem_cons_self, rfl⟩

theorem threeParts_paired {pre pre' : List Identifier} (held : ∀ id ∈ pre, id.Tame)
    (held' : ∀ id ∈ pre', id.Tame) : (threeParts pre).Paired (threeParts pre') := by
  have small : ∀ n ∈ [1, 0, 0], ((n : ℕ) : ℤ) ≤ longMax := by decide
  have short : 3 ≤ 4 := by decide
  exact {
    left := ⟨short, small, held, rfl⟩
    right := ⟨short, small, held', rfl⟩
    leftAligned := fun fewer => absurd fewer (lt_irrefl 3)
    rightAligned := fun fewer => absurd fewer (lt_irrefl 3) }

theorem alpha_tame : alpha.Tame := by
  constructor
  · decide
  · intro digits dashed
    exact absurd (List.cons_eq_cons.mp dashed).1 (by decide)

end PiFire.Update
