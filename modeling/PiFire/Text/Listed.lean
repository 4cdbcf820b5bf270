import Mathlib.Data.List.Basic

/-!
# Lists of texts in a bounded buffer

Texts are carried as one text, with a separator between them, in a buffer that holds
so many characters and keeps what fits. This file has the writing of the buffer, its
reading back piece by piece, and when the reading gives back what was written.
-/

namespace Text

universe u

variable {α : Type u} (separator : α)

/-- What is written for one more text: a separator goes before it, unless it is the
first thing in the buffer. -/
def entry (buffer item : List α) : List α :=
  if buffer = [] then item else separator :: item

/-- One more text in a buffer with room for so many characters. -/
def append (room : ℕ) (buffer item : List α) : List α :=
  (buffer ++ entry separator buffer item).take room

/-- The buffer after all the texts. -/
def listed (room : ℕ) (items : List (List α)) : List α :=
  items.foldl (append separator room) []

/-- The texts with separators between them. -/
def joined : List (List α) → List α
  | [] => []
  | [item] => item
  | item :: next :: items => item ++ separator :: joined (next :: items)

/-- The texts that follow others, each with its separator. -/
def following (items : List (List α)) : List α :=
  items.flatMap (separator :: ·)

theorem joined_cons (item : List α) (items : List (List α)) :
    joined separator (item :: items) = item ++ following separator items := by
  induction items generalizing item with
  | nil => simp [joined, following]
  | cons next items ih =>
      rw [joined, ih]
      simp [following]

theorem foldl_append_of_fits {room : ℕ} {items : List (List α)} {buffer : List α}
    (begun : buffer ≠ []) (fits : (buffer ++ following separator items).length ≤ room) :
    items.foldl (append separator room) buffer = buffer ++ following separator items := by
  induction items generalizing buffer with
  | nil => simp [following]
  | cons item items ih =>
      have spread : buffer ++ following separator (item :: items) =
          (buffer ++ separator :: item) ++ following separator items := by simp [following]
      rw [spread] at fits ⊢
      have whole : append separator room buffer item = buffer ++ separator :: item := by
        rw [append, entry, if_neg begun]
        apply List.take_of_length_le
        rw [List.length_append] at fits
        omega
      rw [List.foldl_cons, whole]
      exact ih (by simp) fits

/-- Texts that are not empty and fit are all in the buffer. -/
theorem listed_of_fits {room : ℕ} {items : List (List α)} (given : ∀ item ∈ items, item ≠ [])
    (fits : (joined separator items).length ≤ room) :
    listed separator room items = joined separator items := by
  cases items with
  | nil => rfl
  | cons item items =>
      rw [joined_cons] at fits ⊢
      have whole : append separator room [] item = item := by
        rw [append, entry, if_pos rfl, List.nil_append]
        apply List.take_of_length_le
        rw [List.length_append] at fits
        omega
      rw [listed, List.foldl_cons, whole]
      exact foldl_append_of_fits separator (given item List.mem_cons_self) fits

variable [DecidableEq α]

/-- The pieces of a text, the first of them begun already; there is no empty piece at
the end. -/
def piecesFrom (begun : List α) : List α → List (List α)
  | [] => if begun = [] then [] else [begun]
  | c :: text =>
      if c = separator then begun :: piecesFrom [] text else piecesFrom (begun ++ [c]) text

/-- The pieces of a text between its separators. -/
def pieces (text : List α) : List (List α) :=
  piecesFrom separator [] text

variable {separator}

theorem piecesFrom_append {begun item : List α} (plain : separator ∉ item) (text : List α) :
    piecesFrom separator begun (item ++ text) = piecesFrom separator (begun ++ item) text := by
  induction item generalizing begun with
  | nil => simp
  | cons c item ih =>
      rw [List.mem_cons, not_or] at plain
      rw [List.cons_append, piecesFrom, if_neg (Ne.symm plain.1), ih plain.2]
      simp

theorem piecesFrom_following {begun : List α} (started : begun ≠ []) {items : List (List α)}
    (given : ∀ item ∈ items, item ≠ []) (plain : ∀ item ∈ items, separator ∉ item) :
    piecesFrom separator begun (following separator items) = begun :: items := by
  induction items generalizing begun with
  | nil => simp [following, piecesFrom, started]
  | cons item items ih =>
      have spread : following separator (item :: items) =
          separator :: (item ++ following separator items) := by simp [following]
      rw [spread, piecesFrom, if_pos rfl, piecesFrom_append (plain item List.mem_cons_self),
        List.nil_append]
      rw [ih (given item List.mem_cons_self)
        (fun other inside => given other (List.mem_cons_of_mem item inside))
        (fun other inside => plain other (List.mem_cons_of_mem item inside))]

/-- Joined texts are read back, where none is empty and none has the separator. -/
theorem pieces_joined {items : List (List α)} (given : ∀ item ∈ items, item ≠ [])
    (plain : ∀ item ∈ items, separator ∉ item) :
    pieces separator (joined separator items) = items := by
  cases items with
  | nil => rfl
  | cons item items =>
      rw [joined_cons, pieces, piecesFrom_append (plain item List.mem_cons_self), List.nil_append]
      exact piecesFrom_following (given item List.mem_cons_self)
        (fun other inside => given other (List.mem_cons_of_mem item inside))
        (fun other inside => plain other (List.mem_cons_of_mem item inside))

theorem pieces_listed {room : ℕ} {items : List (List α)} (given : ∀ item ∈ items, item ≠ [])
    (plain : ∀ item ∈ items, separator ∉ item)
    (fits : (joined separator items).length ≤ room) :
    pieces separator (listed separator room items) = items := by
  rw [listed_of_fits separator given fits, pieces_joined given plain]

/-- In a short buffer the last text loses its end, or is lost. -/
example : pieces ',' (listed ',' 5 [['a', 'b'], ['c', 'd', 'e']]) = [['a', 'b'], ['c', 'd']] := by
  decide

/-- Texts that each end with a separator are read back, empty ones included. -/
theorem pieces_terminated {items : List (List α)} (plain : ∀ item ∈ items, separator ∉ item) :
    pieces separator (items.flatMap (· ++ [separator])) = items := by
  rw [pieces]
  induction items with
  | nil => rfl
  | cons item items ih =>
      rw [List.flatMap_cons, List.append_assoc, piecesFrom_append (plain item List.mem_cons_self),
        List.nil_append, List.singleton_append, piecesFrom, if_pos rfl]
      exact congrArg (item :: ·) (ih fun other inside =>
        plain other (List.mem_cons_of_mem item inside))

end Text
