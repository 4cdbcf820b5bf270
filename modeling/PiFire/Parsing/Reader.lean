import Mathlib.Data.List.Infix
import Mathlib.Algebra.Order.Ring.Int

/-!
# Readers

A reader takes a value off the front of a list of symbols and gives back what is
left. This file says when the outcome of a reader no longer depends on what
follows, and when a reader takes back what was written for it; both are carried
through a list of items between separators.
-/

namespace Parsing

universe u v

variable {σ : Type u} {α : Type v}

/-- From a text, a value and what is left of the text. -/
abbrev Reader (σ : Type u) (α : Type v) := List σ → Option (α × List σ)

/-- What the reader makes of a text stays, whatever is written after it. -/
def Closed (read : Reader σ α) : Prop :=
  ∀ {text left : List σ} {value : α}, read text = some (value, left) →
    ∀ more, read (text ++ more) = some (value, left ++ more)

/-- It stays where the reader was stopped by a symbol. -/
def Stopped (stop : σ → Prop) (read : Reader σ α) : Prop :=
  ∀ {text left : List σ} {value : α} {symbol : σ},
    read text = some (value, symbol :: left) → stop symbol →
      ∀ more, read (text ++ more) = some (value, symbol :: left ++ more)

theorem Closed.eq_none_of_prefix {read : Reader σ α} (closed : Closed read)
    {text short : List σ} {value : α} (whole : read text = some (value, []))
    (begins : short <+: text) (shorter : short ≠ text) : read short = none := by
  obtain ⟨more, rfl⟩ := begins
  cases found : read short with
  | none => rfl
  | some outcome =>
      obtain ⟨other, left⟩ := outcome
      have longer := closed found more
      rw [whole, Option.some_inj, Prod.mk.injEq] at longer
      have none : more = [] := (List.append_eq_nil_iff.mp longer.2.symm).2
      exact absurd (by rw [none, List.append_nil]) shorter

/-- The reader takes the value back from the text, up to a stop or the end. -/
def Reads (stop : σ → Prop) (read : Reader σ α) (text : List σ) (value : α) : Prop :=
  ∀ rest, (∀ symbol, rest.head? = some symbol → stop symbol) →
    read (text ++ rest) = some (value, rest)

theorem Reads.whole {stop : σ → Prop} {read : Reader σ α} {text : List σ} {value : α}
    (reads : Reads stop read text value) : read text = some (value, []) := by
  have alone := reads [] fun symbol none => nomatch none
  rwa [List.append_nil] at alone

section Blanks

variable {blank : σ → Bool}

theorem dropWhile_append {text left : List σ} {symbol : σ}
    (found : text.dropWhile blank = symbol :: left) (more : List σ) :
    (text ++ more).dropWhile blank = symbol :: left ++ more := by
  induction text with
  | nil => simp at found
  | cons first text ih =>
      rw [List.cons_append, List.dropWhile_cons] at *
      split
      · next skipped =>
          rw [if_pos skipped] at found
          exact ih found
      · next kept =>
          rw [if_neg kept] at found
          rw [← List.cons_append, found]

theorem head_of_dropWhile {text left : List σ} {symbol : σ}
    (found : text.dropWhile blank = symbol :: left) :
    ∃ first rest, text = first :: rest ∧ (first = symbol ∨ blank first = true) := by
  cases text with
  | nil => simp at found
  | cons first rest =>
      refine ⟨first, rest, rfl, ?_⟩
      rw [List.dropWhile_cons] at found
      split at found
      · next skipped => exact Or.inr skipped
      · exact Or.inl (List.cons.inj found).1

end Blanks

section Separated

variable [DecidableEq σ]

/-- Items with a separator between them and an end after the last, with blanks
around each; `fuel` bounds how many. -/
def readSeparated (blank : σ → Bool) (item : Reader σ α) (comma close : σ) :
    ℕ → Reader σ (List α)
  | 0, _ => none
  | fuel + 1, text =>
      match item (text.dropWhile blank) with
      | none => none
      | some (value, left) =>
          match left.dropWhile blank with
          | [] => none
          | symbol :: rest =>
              if symbol = comma then
                (readSeparated blank item comma close fuel rest).map fun found =>
                  (value :: found.1, found.2)
              else if symbol = close then some ([value], rest)
              else none

variable {blank : σ → Bool} {item : Reader σ α} {comma close : σ}

theorem readSeparated_succ {fuel : ℕ} {text left : List σ} {values : List α} :
    readSeparated blank item comma close (fuel + 1) text = some (values, left) ↔
      ∃ value after symbol rest, item (text.dropWhile blank) = some (value, after) ∧
        after.dropWhile blank = symbol :: rest ∧
        ((symbol = comma ∧ ∃ others, readSeparated blank item comma close fuel rest =
            some (others, left) ∧ values = value :: others) ∨
          (symbol ≠ comma ∧ symbol = close ∧ values = [value] ∧ left = rest)) := by
  constructor
  · intro found
    rw [readSeparated] at found
    split at found
    · cases found
    · next value after first =>
        split at found
        · cases found
        · next symbol rest next =>
            refine ⟨value, after, symbol, rest, first, next, ?_⟩
            split_ifs at found with more done
            · obtain ⟨⟨others, tail⟩, later, same⟩ := Option.map_eq_some_iff.mp found
              simp only [Prod.mk.injEq] at same
              obtain ⟨rfl, rfl⟩ := same
              exact Or.inl ⟨more, others, later, rfl⟩
            · simp only [Option.some.injEq, Prod.mk.injEq] at found
              exact Or.inr ⟨more, done, found.1.symm, found.2.symm⟩
  · rintro ⟨value, after, symbol, rest, first, next,
      ⟨rfl, others, later, rfl⟩ | ⟨apart, rfl, rfl, rfl⟩⟩
    · rw [readSeparated, first]
      simp only [next, if_true, later, Option.map_some]
    · rw [readSeparated, first]
      simp only [next, if_neg apart, if_true]

theorem readSeparated_mono {fuel more : ℕ} (enough : fuel ≤ more) {text left : List σ}
    {values : List α}
    (found : readSeparated blank item comma close fuel text = some (values, left)) :
    readSeparated blank item comma close more text = some (values, left) := by
  induction fuel generalizing more text values with
  | zero => cases found
  | succ fuel ih =>
      obtain ⟨more, rfl⟩ : ∃ less, more = less + 1 := ⟨more - 1, by omega⟩
      obtain ⟨value, after, symbol, rest, first, next, outcome⟩ := readSeparated_succ.mp found
      refine readSeparated_succ.mpr ⟨value, after, symbol, rest, first, next, ?_⟩
      refine outcome.imp_left ?_
      rintro ⟨same, others, later, all⟩
      exact ⟨same, others, ih (by omega) later, all⟩

theorem readSeparated_forall {P : α → Prop}
    (holds : ∀ {text left : List σ} {value : α}, item text = some (value, left) → P value)
    {fuel : ℕ} {text left : List σ} {values : List α}
    (found : readSeparated blank item comma close fuel text = some (values, left)) :
    ∀ value ∈ values, P value := by
  induction fuel generalizing text values with
  | zero => cases found
  | succ fuel ih =>
      obtain ⟨value, after, symbol, rest, first, -, outcome⟩ := readSeparated_succ.mp found
      rcases outcome with ⟨-, others, later, rfl⟩ | ⟨-, -, rfl, -⟩
      · exact List.forall_mem_cons.mpr ⟨holds first, ih later⟩
      · exact List.forall_mem_singleton.mpr (holds first)

theorem readSeparated_append {stop : σ → Prop} (stopped : Stopped stop item)
    (wants : item [] = none) (blanks : ∀ symbol, blank symbol = true → stop symbol)
    (separates : stop comma) (ends : stop close) {fuel : ℕ} {text left : List σ} {values : List α}
    (found : readSeparated blank item comma close fuel text = some (values, left))
    (more : List σ) :
    readSeparated blank item comma close fuel (text ++ more) = some (values, left ++ more) := by
  induction fuel generalizing text values with
  | zero => cases found
  | succ fuel ih =>
      obtain ⟨value, after, symbol, rest, first, next, outcome⟩ := readSeparated_succ.mp found
      obtain ⟨head, tail, rfl, kind⟩ := head_of_dropWhile next
      have stops : stop head := by
        rcases kind with rfl | skipped
        · rcases outcome with ⟨rfl, -⟩ | ⟨-, rfl, -⟩
          · exact separates
          · exact ends
        · exact blanks head skipped
      refine readSeparated_succ.mpr ⟨value, head :: tail ++ more, symbol, rest ++ more, ?_,
        dropWhile_append next more, ?_⟩
      · cases begins : text.dropWhile blank with
        | nil =>
            rw [begins, wants] at first
            cases first
        | cons symbol text =>
            rw [dropWhile_append begins, ← begins]
            exact stopped first stops more
      · rcases outcome with ⟨rfl, others, later, rfl⟩ | ⟨apart, rfl, rfl, rfl⟩
        · exact Or.inl ⟨rfl, others, ih later, rfl⟩
        · exact Or.inr ⟨apart, rfl, rfl, rfl⟩

/-- What is written between the separators is read back, each item by the reader
of items. -/
theorem readSeparated_written {stop : σ → Prop} (separates : stop comma) (ends : stop close)
    (apart : comma ≠ close) (shown : blank comma = false ∧ blank close = false)
    {written : List (List σ × α)} (some_ : written ≠ [])
    (reads : ∀ entry ∈ written, Reads stop item entry.1 entry.2)
    (solid : ∀ entry ∈ written, ∃ first rest, entry.1 = first :: rest ∧ blank first = false)
    {fuel : ℕ} (enough : written.length ≤ fuel) (left : List σ) :
    readSeparated blank item comma close fuel
        (List.intercalate [comma] (written.map Prod.fst) ++ close :: left) =
      some (written.map Prod.snd, left) := by
  induction written generalizing fuel with
  | nil => exact absurd rfl some_
  | cons entry others ih =>
      obtain ⟨text, value⟩ := entry
      obtain ⟨fuel, rfl⟩ : ∃ less, fuel = less + 1 := ⟨fuel - 1, by
        simp only [List.length_cons] at enough
        omega⟩
      obtain ⟨first, rest, rfl, plain⟩ := solid _ List.mem_cons_self
      have read := reads _ List.mem_cons_self
      refine readSeparated_succ.mpr ?_
      cases others with
      | nil =>
          refine ⟨value, close :: left, close, left, ?_, ?_, Or.inr ⟨apart.symm, rfl, rfl, rfl⟩⟩
          · rw [List.map_singleton, List.intercalate_singleton, List.cons_append,
              List.dropWhile_cons_of_neg (by simp [plain]), ← List.cons_append]
            exact read _ fun symbol same => by
              obtain rfl := Option.some_inj.mp same
              exact ends
          · rw [List.dropWhile_cons_of_neg (by simp [shown.2])]
      | cons next others =>
          have room : (next :: others).length ≤ fuel := by
            simp only [List.length_cons] at enough ⊢
            omega
          have later := ih (by simp) (fun e inside => reads e (List.mem_cons_of_mem _ inside))
            (fun e inside => solid e (List.mem_cons_of_mem _ inside)) room
          refine ⟨value, comma :: (List.intercalate [comma] ((next :: others).map Prod.fst) ++
              close :: left), comma, _, ?_, ?_, Or.inl ⟨rfl, _, later, rfl⟩⟩
          · rw [List.map_cons, List.map_cons, List.intercalate_cons_cons, List.append_assoc,
              List.append_assoc, List.cons_append,
              List.dropWhile_cons_of_neg (by simp [plain]), ← List.cons_append]
            exact read _ fun symbol same => by
              obtain rfl := Option.some_inj.mp same
              exact separates
          · rw [List.dropWhile_cons_of_neg (by simp [shown.1])]

end Separated

end Parsing

/-!
# Words of two bytes

A signed number of sixteen bits is sent low byte first, and a byte may hold two numbers
of four bits. This file has the bytes of such numbers and reads the numbers back.
-/

namespace Parsing

/-- The number that two bytes stand for. -/
def signed16 (lo hi : UInt8) : ℤ :=
  let v : ℤ := (lo.toNat ||| hi.toNat <<< 8 : ℕ)
  if 0x8000 ≤ v then v - 0x10000 else v

/-- The low byte of a number. -/
def lowByte (v : ℤ) : UInt8 := UInt8.ofNat (v % 0x100).toNat

/-- The byte above it. -/
def highByte (v : ℤ) : UInt8 := UInt8.ofNat (v / 0x100 % 0x100).toNat

theorem toNat_lowByte (v : ℤ) : ((lowByte v).toNat : ℤ) = v % 0x100 := by
  have small : (v % 0x100).toNat < 256 := by omega
  rw [lowByte, UInt8.toNat_ofNat_of_lt' small]
  omega

theorem toNat_highByte (v : ℤ) : ((highByte v).toNat : ℤ) = v / 0x100 % 0x100 := by
  have small : (v / 0x100 % 0x100).toNat < 256 := by omega
  rw [highByte, UInt8.toNat_ofNat_of_lt' small]
  omega

theorem or_shift (lo hi : UInt8) : lo.toNat ||| hi.toNat <<< 8 = hi.toNat * 256 + lo.toNat := by
  rw [Nat.or_comm, ← Nat.shiftLeft_add_eq_or_of_lt lo.toNat_lt, Nat.shiftLeft_eq]

theorem signed16_bytes {v : ℤ} (low : -0x8000 ≤ v) (high : v < 0x8000) :
    signed16 (lowByte v) (highByte v) = v := by
  have lo := toNat_lowByte v
  have hi := toNat_highByte v
  simp only [signed16, or_shift]
  split <;> omega

/-- The byte of two numbers of four bits, the first in the upper half. -/
def nibbles (upper lower : ℕ) : UInt8 := UInt8.ofNat (upper * 16 + lower)

variable {upper lower : ℕ}

theorem toNat_nibbles (first : upper < 16) (second : lower < 16) :
    (nibbles upper lower).toNat = upper * 16 + lower :=
  UInt8.toNat_ofNat_of_lt' (by omega : upper * 16 + lower < 256)

theorem nibbles_shift (first : upper < 16) (second : lower < 16) :
    (nibbles upper lower).toNat >>> 4 = upper := by
  rw [toNat_nibbles first second, Nat.shiftRight_eq_div_pow]
  omega

theorem nibbles_and (first : upper < 16) (second : lower < 16) :
    (nibbles upper lower).toNat &&& 0x0F = lower := by
  have mask := Nat.and_two_pow_sub_one_eq_mod (upper * 16 + lower) 4
  rw [toNat_nibbles first second]
  exact mask.trans (by omega)

end Parsing
