import Mathlib.Algebra.Group.Nat.Defs
import Mathlib.Data.Nat.NthRoot.Defs
import Mathlib.Data.Nat.Notation

/-!
# SHA-256

The digest of a message as FIPS 180-4 has it: the functions of words, the schedule and the
rounds of a block, the padding, and the blocks in turn. The constants are what the standard
takes them from, the first bits of the roots of primes.
-/

namespace Hash

abbrev Byte := BitVec 8
abbrev Word := BitVec 32

/-- The eight words of a hash value, or of a round. -/
structure Vars where
  a : Word
  b : Word
  c : Word
  d : Word
  e : Word
  f : Word
  g : Word
  h : Word
  deriving DecidableEq

namespace Vars

def add (x y : Vars) : Vars :=
  ⟨x.a + y.a, x.b + y.b, x.c + y.c, x.d + y.d, x.e + y.e, x.f + y.f, x.g + y.g, x.h + y.h⟩

def words (x : Vars) : List Word := [x.a, x.b, x.c, x.d, x.e, x.f, x.g, x.h]

end Vars

def Ch (x y z : Word) : Word := (x &&& y) ^^^ (~~~x &&& z)
def Maj (x y z : Word) : Word := (x &&& y) ^^^ (x &&& z) ^^^ (y &&& z)
def bigSigma0 (x : Word) : Word := x.rotateRight 2 ^^^ x.rotateRight 13 ^^^ x.rotateRight 22
def bigSigma1 (x : Word) : Word := x.rotateRight 6 ^^^ x.rotateRight 11 ^^^ x.rotateRight 25
def sigma0 (x : Word) : Word := x.rotateRight 7 ^^^ x.rotateRight 18 ^^^ x >>> 3
def sigma1 (x : Word) : Word := x.rotateRight 17 ^^^ x.rotateRight 19 ^^^ x >>> 10

/-- The first sixty-four primes. -/
def primes : List ℕ :=
  (List.range 312).filter fun p => 2 ≤ p && (List.range p).all fun d => d < 2 || p % d != 0

/-- The first thirty-two bits of the fractional part of a root of a prime. -/
def rootBits (degree t : ℕ) : Word :=
  BitVec.ofNat 32 (Nat.nthRoot degree (primes.getD t 0 * 2 ^ (32 * degree)))

def K (t : ℕ) : Word := rootBits 3 t

def H0 : Vars :=
  ⟨rootBits 2 0, rootBits 2 1, rootBits 2 2, rootBits 2 3, rootBits 2 4, rootBits 2 5, rootBits 2 6,
    rootBits 2 7⟩

/-- A word of a block, its bytes from the first. -/
def wordAt (block : List Byte) (t : ℕ) : Word :=
  block.getD (4 * t) 0 ++ block.getD (4 * t + 1) 0 ++ block.getD (4 * t + 2) 0 ++
    block.getD (4 * t + 3) 0

/-- The message schedule. -/
def W (block : List Byte) (t : ℕ) : Word :=
  if t < 16 then wordAt block t
  else sigma1 (W block (t - 2)) + W block (t - 7) + sigma0 (W block (t - 15)) + W block (t - 16)

def round (k w : Word) (v : Vars) : Vars :=
  let T1 := v.h + bigSigma1 v.e + Ch v.e v.f v.g + k + w
  let T2 := bigSigma0 v.a + Maj v.a v.b v.c
  ⟨T1 + T2, v.a, v.b, v.c, v.d + T1, v.e, v.f, v.g⟩

def compress (H : Vars) (block : List Byte) : Vars :=
  ((List.range 64).foldl (fun v t => round (K t) (W block t) v) H).add H

/-- The bytes of a word from the first. -/
def bytes (n : ℕ) (x : BitVec (8 * n)) : List Byte :=
  (List.range n).map fun i => x.extractLsb' (8 * (n - 1 - i)) 8

/-- How many bytes of zeros come after the first byte of the padding: as few as leave room for
the length in the last block. -/
def zeros (length : ℕ) : ℕ := (119 - length % 64) % 64

/-- What is appended to a message of so many bytes: a one, zeros, and its length in bits. -/
def padding (length : ℕ) : List Byte :=
  0x80 :: (List.replicate (zeros length) 0 ++ bytes 8 (BitVec.ofNat 64 (8 * length)))

/-- The whole blocks of a text, in turn. -/
def blocks (H : Vars) (text : List Byte) : Vars :=
  if text.length < 64 then H else blocks (compress H (text.take 64)) (text.drop 64)
termination_by text.length
decreasing_by simp only [List.length_drop]; omega

def sha256 (message : List Byte) : List Byte :=
  (blocks H0 (message ++ padding message.length)).words.flatMap (bytes 4)

theorem padded_whole (message : List Byte) :
    (message ++ padding message.length).length % 64 = 0 := by
  simp only [padding, zeros, bytes, List.length_append, List.length_cons, List.length_replicate,
    List.length_map, List.length_range]
  omega

variable {H : Vars} {text : List Byte}

theorem blocks_short (short : text.length < 64) : blocks H text = H := by
  rw [blocks, if_pos short]

theorem blocks_append {block : List Byte} (full : block.length = 64) (H : Vars) (text : List Byte) :
    blocks H (block ++ text) = blocks (compress H block) text := by
  rw [blocks, if_neg (by rw [List.length_append]; omega), List.take_left' full,
    List.drop_left' full]

end Hash
