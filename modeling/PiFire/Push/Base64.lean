import Mathlib.Algebra.Group.Nat.Defs
import Mathlib.Data.List.Basic

/-!
# Keys as text

The keys of a subscription are bytes, and come and are kept as base64 text. Encoding
writes six bits a character and no padding. Decoding takes either alphabet, skips what
is no character of it, and stops writing where its buffer is full.
-/

namespace PiFire.Push

/-- `B64`. -/
def base64Alphabet : List Char :=
  ['A', 'B', 'C', 'D', 'E', 'F', 'G', 'H', 'I', 'J', 'K', 'L', 'M', 'N', 'O', 'P', 'Q', 'R', 'S',
    'T', 'U', 'V', 'W', 'X', 'Y', 'Z', 'a', 'b', 'c', 'd', 'e', 'f', 'g', 'h', 'i', 'j', 'k', 'l',
    'm', 'n', 'o', 'p', 'q', 'r', 's', 't', 'u', 'v', 'w', 'x', 'y', 'z', '0', '1', '2', '3', '4',
    '5', '6', '7', '8', '9', '-', '_']

/-- The character for six bits. -/
def base64Digit (d : ℕ) : Char := base64Alphabet.getD (d % 64) 'A'

/-- The characters of bytes, three bytes at a time. -/
def base64Digits : List UInt8 → List Char
  | [] => []
  | [a] =>
    let v := a.toNat * 65536
    [base64Digit (v / 262144), base64Digit (v / 4096)]
  | [a, b] =>
    let v := a.toNat * 65536 + b.toNat * 256
    [base64Digit (v / 262144), base64Digit (v / 4096), base64Digit (v / 64)]
  | a :: b :: c :: rest =>
    let v := a.toNat * 65536 + b.toNat * 256 + c.toNat
    base64Digit (v / 262144) :: base64Digit (v / 4096) :: base64Digit (v / 64) ::
      base64Digit v :: base64Digits rest

/-- `b64url_encode`, into a buffer of this size, which keeps a place for the zero. -/
def b64urlEncode (bytes : List UInt8) (cap : ℕ) : List Char := (base64Digits bytes).take (cap - 1)

/-- `b64_val`. -/
def b64Val (c : Char) : Option ℕ :=
  if 'A' ≤ c ∧ c ≤ 'Z' then some (c.toNat - 'A'.toNat)
  else if 'a' ≤ c ∧ c ≤ 'z' then some (c.toNat - 'a'.toNat + 26)
  else if '0' ≤ c ∧ c ≤ '9' then some (c.toNat - '0'.toNat + 52)
  else if c = '-' ∨ c = '+' then some 62
  else if c = '_' ∨ c = '/' then some 63
  else none

/-- The bytes a text decodes to. `v` has the bits read so far, of which `bits` are not
yet part of a byte. -/
def decodedFrom (v bits : ℕ) : List Char → List UInt8
  | [] => []
  | c :: text =>
    match b64Val c with
    | none => decodedFrom v bits text
    | some d =>
      let v := (v * 64 + d) % 2 ^ 32
      if 8 ≤ bits + 6 then
        UInt8.ofNat (v / 2 ^ (bits + 6 - 8)) :: decodedFrom v (bits + 6 - 8) text
      else decodedFrom v (bits + 6) text

def decoded (text : List Char) : List UInt8 := decodedFrom 0 0 text

/-- `b64url_decode`, into a buffer of this size: what comes after is not counted. -/
def b64urlDecode (text : List Char) (cap : ℕ) : List UInt8 := (decoded text).take cap

theorem b64Val_base64Digit (d : ℕ) : b64Val (base64Digit d) = some (d % 64) := by
  have all : ∀ d < 64, b64Val (base64Alphabet.getD d 'A') = some d := by decide
  exact all (d % 64) (Nat.mod_lt d (by omega))

theorem base64Digit_ne_zero (d : ℕ) : (base64Digit d).toNat ≠ 0 := by
  have all : ∀ d < 64, (base64Alphabet.getD d 'A').toNat ≠ 0 := by decide
  exact all (d % 64) (Nat.mod_lt d (by omega))

theorem decodedFrom_base64Digit (v bits d : ℕ) (text : List Char) :
    decodedFrom v bits (base64Digit d :: text) =
      if 8 ≤ bits + 6 then
        UInt8.ofNat ((v * 64 + d % 64) % 2 ^ 32 / 2 ^ (bits + 6 - 8)) ::
          decodedFrom ((v * 64 + d % 64) % 2 ^ 32) (bits + 6 - 8) text
      else decodedFrom ((v * 64 + d % 64) % 2 ^ 32) (bits + 6) text := by
  rw [decodedFrom, b64Val_base64Digit]

theorem ofNat_eq {n : ℕ} {b : UInt8} (same : n % 256 = b.toNat) : UInt8.ofNat n = b := by
  apply UInt8.toNat_inj.mp
  rw [UInt8.toNat_ofNat']
  exact same

theorem decodedFrom_first {n : ℕ} {a : UInt8} (top : n / 65536 = a.toNat) (v : ℕ)
    (text : List Char) :
    ∃ v', v' % 16 = n / 4096 % 16 ∧
      decodedFrom v 0 (base64Digit (n / 262144) :: base64Digit (n / 4096) :: text) =
        a :: decodedFrom v' 4 text := by
  have small := a.toNat_lt
  refine ⟨((v * 64 + n / 262144 % 64) % 2 ^ 32 * 64 + n / 4096 % 64) % 2 ^ 32, by omega, ?_⟩
  rw [decodedFrom_base64Digit, if_neg (by omega), decodedFrom_base64Digit, if_pos (by omega)]
  congr 1
  apply ofNat_eq
  omega

theorem decodedFrom_second {n v : ℕ} {b : UInt8} (here : v % 16 = n / 4096 % 16)
    (middle : n / 256 % 256 = b.toNat) (text : List Char) :
    ∃ v', v' % 4 = n / 64 % 4 ∧
      decodedFrom v 4 (base64Digit (n / 64) :: text) = b :: decodedFrom v' 2 text := by
  refine ⟨(v * 64 + n / 64 % 64) % 2 ^ 32, by omega, ?_⟩
  rw [decodedFrom_base64Digit, if_pos (by omega)]
  congr 1
  apply ofNat_eq
  omega

theorem decodedFrom_third {n v : ℕ} {c : UInt8} (here : v % 4 = n / 64 % 4)
    (low : n % 256 = c.toNat) (text : List Char) :
    ∃ v', decodedFrom v 2 (base64Digit n :: text) = c :: decodedFrom v' 0 text := by
  refine ⟨(v * 64 + n % 64) % 2 ^ 32, ?_⟩
  rw [decodedFrom_base64Digit, if_pos (by omega)]
  congr 1
  apply ofNat_eq
  omega

theorem decodedFrom_base64Digits (bytes : List UInt8) (v : ℕ) :
    decodedFrom v 0 (base64Digits bytes) = bytes := by
  induction bytes using base64Digits.induct generalizing v with
  | case1 => rfl
  | case2 a =>
    obtain ⟨v', _, first⟩ := decodedFrom_first (n := a.toNat * 65536) (a := a) (by omega) v []
    rw [base64Digits, first]
    rfl
  | case3 a b =>
    have small := b.toNat_lt
    obtain ⟨v₁, here, first⟩ := decodedFrom_first
      (n := a.toNat * 65536 + b.toNat * 256) (a := a) (by omega) v
      [base64Digit ((a.toNat * 65536 + b.toNat * 256) / 64)]
    obtain ⟨v₂, _, second⟩ := decodedFrom_second (b := b) here (by omega) []
    rw [base64Digits, first, second]
    rfl
  | case4 a b c rest ih =>
    have small := b.toNat_lt
    have small' := c.toNat_lt
    obtain ⟨v₁, here, first⟩ := decodedFrom_first
      (n := a.toNat * 65536 + b.toNat * 256 + c.toNat) (a := a) (by omega) v
      (base64Digit ((a.toNat * 65536 + b.toNat * 256 + c.toNat) / 64) ::
        base64Digit (a.toNat * 65536 + b.toNat * 256 + c.toNat) :: base64Digits rest)
    obtain ⟨v₂, here', second⟩ := decodedFrom_second (b := b) here (by omega)
      (base64Digit (a.toNat * 65536 + b.toNat * 256 + c.toNat) :: base64Digits rest)
    obtain ⟨v₃, third⟩ := decodedFrom_third (c := c) here' (by omega) (base64Digits rest)
    rw [base64Digits, first, second, third, ih v₃]

theorem decoded_base64Digits (bytes : List UInt8) : decoded (base64Digits bytes) = bytes :=
  decodedFrom_base64Digits bytes 0

theorem length_base64Digits (bytes : List UInt8) :
    (base64Digits bytes).length = (4 * bytes.length + 2) / 3 := by
  induction bytes using base64Digits.induct with
  | case1 => rfl
  | case2 a => simp [base64Digits]
  | case3 a b => simp [base64Digits]
  | case4 a b c rest ih =>
    simp only [base64Digits, List.length_cons, ih]
    omega

theorem b64urlDecode_encode {bytes : List UInt8} {cap : ℕ}
    (room : (4 * bytes.length + 2) / 3 < cap) :
    b64urlDecode (b64urlEncode bytes cap) bytes.length = bytes := by
  rw [b64urlEncode, List.take_of_length_le, b64urlDecode, decoded_base64Digits,
    List.take_length]
  rw [length_base64Digits]
  omega

theorem base64Digits_unbroken (bytes : List UInt8) : ∀ c ∈ base64Digits bytes, c.toNat ≠ 0 := by
  induction bytes using base64Digits.induct with
  | case1 => exact List.forall_mem_nil _
  | case2 a | case3 a b => simp [base64Digits, base64Digit_ne_zero]
  | case4 a b c rest ih =>
    simp only [base64Digits, List.forall_mem_cons]
    exact ⟨base64Digit_ne_zero _, base64Digit_ne_zero _, base64Digit_ne_zero _,
      base64Digit_ne_zero _, ih⟩

end PiFire.Push
