import Mathlib.Analysis.SpecialFunctions.Pow.NthRootLemmas
import Mathlib.Data.List.Basic
import Mathlib.Logic.Function.Iterate
import PiFire.Hash.Sha256

/-!
# The hash of a download

The pieces of a download are hashed as they come: a block is compressed as soon as its buffer
is full. Whatever the pieces are, the digest is that of the whole.
-/

namespace PiFire.Update

open Hash

/-- `K` -/
def sha256K : List Word :=
  [0x428a2f98, 0x71374491, 0xb5c0fbcf, 0xe9b5dba5, 0x3956c25b, 0x59f111f1, 0x923f82a4, 0xab1c5ed5,
    0xd807aa98, 0x12835b01, 0x243185be, 0x550c7dc3, 0x72be5d74, 0x80deb1fe, 0x9bdc06a7, 0xc19bf174,
    0xe49b69c1, 0xefbe4786, 0x0fc19dc6, 0x240ca1cc, 0x2de92c6f, 0x4a7484aa, 0x5cb0a9dc, 0x76f988da,
    0x983e5152, 0xa831c66d, 0xb00327c8, 0xbf597fc7, 0xc6e00bf3, 0xd5a79147, 0x06ca6351, 0x14292967,
    0x27b70a85, 0x2e1b2138, 0x4d2c6dfc, 0x53380d13, 0x650a7354, 0x766a0abb, 0x81c2c92e, 0x92722c85,
    0xa2bfe8a1, 0xa81a664b, 0xc24b8b70, 0xc76c51a3, 0xd192e819, 0xd6990624, 0xf40e3585, 0x106aa070,
    0x19a4c116, 0x1e376c08, 0x2748774c, 0x34b0bcb5, 0x391c0cb3, 0x4ed8aa4a, 0x5b9cca4f, 0x682e6ff3,
    0x748f82ee, 0x78a5636f, 0x84c87814, 0x8cc70208, 0x90befffa, 0xa4506ceb, 0xbef9a3f7, 0xc67178f2]

/-- `ROTR` -/
def rotr (x : Word) (n : ℕ) : Word := (x >>> n) ||| (x <<< (32 - n))

def byteAt (p : List Byte) (i : ℕ) : Word := (p.getD i 0).setWidth 32

/-- The words `w[0]` to `w[15]`. -/
def firstWords (p : List Byte) : List Word :=
  (List.range 16).map fun i =>
    byteAt p (i * 4) <<< 24 ||| byteAt p (i * 4 + 1) <<< 16 ||| byteAt p (i * 4 + 2) <<< 8 |||
      byteAt p (i * 4 + 3)

/-- `w[i]` from the words before it. -/
def nextWord (w : List Word) : Word :=
  let at_ (back : ℕ) : Word := w.getD (w.length - back) 0
  let s0 := rotr (at_ 15) 7 ^^^ rotr (at_ 15) 18 ^^^ (at_ 15 >>> 3)
  let s1 := rotr (at_ 2) 17 ^^^ rotr (at_ 2) 19 ^^^ (at_ 2 >>> 10)
  at_ 16 + s0 + at_ 7 + s1

def allWords (p : List Byte) : List Word :=
  Nat.iterate (fun w => w ++ [nextWord w]) 48 (firstWords p)

def oneRound (k w : Word) (v : Vars) : Vars :=
  let S1 := rotr v.e 6 ^^^ rotr v.e 11 ^^^ rotr v.e 25
  let ch := (v.e &&& v.f) ^^^ (~~~v.e &&& v.g)
  let t1 := v.h + S1 + ch + k + w
  let S0 := rotr v.a 2 ^^^ rotr v.a 13 ^^^ rotr v.a 22
  let maj := (v.a &&& v.b) ^^^ (v.a &&& v.c) ^^^ (v.b &&& v.c)
  let t2 := S0 + maj
  { h := v.g, g := v.f, f := v.e, e := v.d + t1, d := v.c, c := v.b, b := v.a, a := t1 + t2 }

/-- `block` -/
def block (h : Vars) (p : List Byte) : Vars :=
  h.add ((List.range 64).foldl
    (fun v i => oneRound (sha256K.getD i 0) ((allWords p).getD i 0) v) h)

/-- `pf_sha256`: the hash, the length so far, and the filled part of the buffer. -/
structure Sha256 where
  h : Vars
  len : BitVec 64
  buf : List Byte
  small : buf.length < 64

namespace Sha256

/-- `pf_sha256_init` -/
def init : Sha256 where
  h := ⟨0x6a09e667, 0xbb67ae85, 0x3c6ef372, 0xa54ff53a, 0x510e527f, 0x9b05688c, 0x1f83d9ab,
    0x5be0cd19⟩
  len := 0
  buf := []
  small := by decide

/-- The loop of `pf_sha256_update`. -/
def fill (s : Sha256) (p : List Byte) : Sha256 :=
  if p = [] then s
  else
    let take := min (64 - s.buf.length) p.length
    let buf := s.buf ++ p.take take
    if full : buf.length = 64 then
      fill ⟨block s.h buf, s.len, [], by decide⟩ (p.drop take)
    else
      fill ⟨s.h, s.len, buf, by
        have small := s.small
        simp only [buf, take, List.length_append, List.length_take] at full ⊢
        omega⟩ (p.drop take)
termination_by p.length
decreasing_by
  all_goals
    have small := s.small
    have some_ : 0 < p.length := List.length_pos_iff.mpr ‹_›
    rw [List.length_drop]
    omega

/-- `pf_sha256_update` -/
def update (s : Sha256) (p : List Byte) : Sha256 :=
  fill { s with len := s.len + BitVec.ofNat 64 p.length } p

theorem update_one_buf (s : Sha256) (b : Byte) :
    (s.update [b]).buf.length = (s.buf.length + 1) % 64 := by
  have small := s.small
  have one : min (64 - s.buf.length) 1 = 1 := by omega
  unfold update
  rw [fill]
  simp only [List.cons_ne_nil, ↓reduceIte, List.length_singleton, one, List.take_succ_cons,
    List.take_zero, List.length_append, List.drop_succ_cons, List.drop_zero]
  split <;> rename_i full <;> rw [fill]
  · simp [full]
  · simp only [↓reduceIte, List.length_append, List.length_singleton]
    omega

/-- The loop of `pf_sha256_final`: a zero after another until the length is next. -/
def zeroFill (s : Sha256) : Sha256 :=
  if s.buf.length = 56 then s else zeroFill (s.update [0])
termination_by (120 - s.buf.length) % 64
decreasing_by
  have small := s.small
  rw [update_one_buf]
  omega

/-- `pf_sha256_final` -/
def final (s : Sha256) : List Byte :=
  let bits := s.len * 8
  let lenb := (List.range 8).map fun i => (bits >>> (56 - 8 * i)).setWidth 8
  let s := (zeroFill (s.update [0x80])).update lenb
  s.h.words.flatMap fun x : Word =>
    [(x >>> 24).setWidth 8, (x >>> 16).setWidth 8, (x >>> 8).setWidth 8, x.setWidth 8]

end Sha256

theorem rotr_eq {n : ℕ} (small : n < 32) (x : Word) : rotr x n = x.rotateRight n := by
  rw [rotr, BitVec.rotateRight_def, Nat.mod_eq_of_lt small]

theorem oneRound_eq : oneRound = round := by
  funext k w v
  simp (disch := omega) only [oneRound, rotr_eq]
  rfl

theorem word_of_bytes (a b c d : Byte) :
    a.setWidth 32 <<< 24 ||| b.setWidth 32 <<< 16 ||| c.setWidth 32 <<< 8 ||| d.setWidth 32 =
      (a ++ b ++ c ++ d : Word) := by
  have past (x : Byte) {j : ℕ} (high : 8 ≤ j) : x.getLsbD j = false := BitVec.getLsbD_of_ge x j high
  refine BitVec.eq_of_getLsbD_eq fun j small => ?_
  simp only [BitVec.getLsbD_or, BitVec.getLsbD_shiftLeft, BitVec.getLsbD_append,
    BitVec.getLsbD_setWidth]
  grind

theorem firstWords_eq (p : List Byte) : firstWords p = (List.range 16).map (W p) := by
  refine List.map_congr_left fun i early => ?_
  rw [W, if_pos (List.mem_range.mp early), wordAt, Nat.mul_comm i 4]
  exact word_of_bytes _ _ _ _

theorem nextWord_eq (p : List Byte) {n : ℕ} (late : 16 ≤ n) :
    nextWord ((List.range n).map (W p)) = W p n := by
  have before {back : ℕ} (some : 0 < back) (few : back ≤ 16) :
      ((List.range n).map (W p)).getD (((List.range n).map (W p)).length - back) 0 =
        W p (n - back) := by
    have there : n - back < n := by omega
    simp [List.getD_eq_getElem?_getD, there]
  rw [W, if_neg (by omega)]
  simp (disch := omega) only [nextWord, before, rotr_eq]
  simp only [sigma0, sigma1]
  ac_rfl

theorem allWords_eq (p : List Byte) : allWords p = (List.range 64).map (W p) := by
  have grown (n : ℕ) : Nat.iterate (fun w => w ++ [nextWord w]) n (firstWords p) =
      (List.range (16 + n)).map (W p) := by
    induction n with
    | zero => exact firstWords_eq p
    | succ n ih =>
      rw [Function.iterate_succ_apply', ih, nextWord_eq p (by omega), ← Nat.add_assoc,
        List.range_succ, List.map_append, List.map_singleton]
  exact grown 48

/-- A number under 18² that has a divisor has one under 18. -/
theorem isPrime_small {p : ℕ} (small : p < 324) :
    (2 ≤ p && (List.range p).all fun d => d < 2 || p % d != 0) =
      (2 ≤ p && (List.range 18).all fun d => d < 2 || p ≤ d || p % d != 0) := by
  rw [Bool.eq_iff_iff]
  simp only [Bool.and_eq_true, decide_eq_true_eq, List.all_eq_true, List.mem_range, Bool.or_eq_true,
    bne_iff_ne, ne_eq]
  refine and_congr_right fun _ => ⟨fun none_ d _ => ?_, fun none_ d below => ?_⟩
  · by_cases below : d < p
    · exact (none_ d below).imp_left Or.inl
    · exact Or.inl (Or.inr (not_lt.mp below))
  · by_contra! divides
    obtain ⟨large, divided⟩ := divides
    obtain ⟨e, rfl⟩ := Nat.dvd_of_mod_eq_zero divided
    have both : 2 ≤ e ∧ e < d * e ∧ (d < 18 ∨ e < 18) := by
      refine ⟨by nlinarith, by nlinarith, ?_⟩
      by_contra! far
      nlinarith
    rcases both.2.2 with near | near
    · have kept := none_ d near
      simp only [Nat.mul_mod_right, not_true_eq_false, or_false] at kept
      omega
    · have kept := none_ e near
      simp only [Nat.mul_mod_left, not_true_eq_false, or_false] at kept
      omega

theorem primes_eq : primes =
    [2, 3, 5, 7, 11, 13, 17, 19, 23, 29, 31, 37, 41, 43, 47, 53, 59, 61, 67, 71, 73, 79, 83, 89, 97,
      101, 103, 107, 109, 113, 127, 131, 137, 139, 149, 151, 157, 163, 167, 173, 179, 181, 191, 193,
      197, 199] ++
    [211, 223, 227, 229, 233, 239, 241, 251, 257, 263, 269, 271, 277, 281, 283, 293, 307, 311] := by
  rw [primes, List.filter_congr fun p inside =>
    isPrime_small (Nat.lt_trans (List.mem_range.mp inside) (by decide))]
  decide +kernel

/-- The bits of a root are known by the powers of two neighbours. -/
theorem rootBits_eq {degree t x : ℕ}
    (near : x ^ degree ≤ primes.getD t 0 * 2 ^ (32 * degree) ∧
      primes.getD t 0 * 2 ^ (32 * degree) < (x + 1) ^ degree) :
    rootBits degree t = BitVec.ofNat 32 x :=
  congrArg (BitVec.ofNat 32) (Nat.nthRoot_eq_of_le_of_lt near.1 near.2)

/-- A cube root, its whole part and the bits of the constant behind it. -/
def cubeRoot (t : ℕ) : ℕ :=
  ((List.range 7).findIdx fun d => primes.getD t 0 < (d + 1) ^ 3) * 2 ^ 32 +
    (sha256K.getD t 0).toNat

theorem sha256K_eq : sha256K = (List.range 64).map K := by
  have near : ∀ t < 64, cubeRoot t ^ 3 ≤ primes.getD t 0 * 2 ^ (32 * 3) ∧
      primes.getD t 0 * 2 ^ (32 * 3) < (cubeRoot t + 1) ^ 3 := by
    unfold cubeRoot
    rw [primes_eq]
    decide +kernel
  have bits : sha256K = (List.range 64).map fun t => BitVec.ofNat 32 (cubeRoot t) := by
    unfold cubeRoot
    rw [primes_eq]
    decide +kernel
  rw [bits]
  exact List.map_congr_left fun t inside => (rootBits_eq (near t (List.mem_range.mp inside))).symm

theorem init_h : Sha256.init.h = H0 := by
  decide +kernel

theorem block_eq (h : Vars) (p : List Byte) : block h p = compress h p := by
  have rounds : (List.range 64).foldl
      (fun v i => oneRound (sha256K.getD i 0) ((allWords p).getD i 0) v) h =
        (List.range 64).foldl (fun v t => round (K t) (W p t) v) h := by
    rw [oneRound_eq, sha256K_eq, allWords_eq]
    refine List.foldl_ext _ _ _ fun v i early => ?_
    have early := List.mem_range.mp early
    simp only [List.getD_eq_getElem?_getD, List.getElem?_map, List.getElem?_range early,
      Option.map_some, Option.getD_some]
  rw [block, compress, rounds]
  simp only [Vars.add, BitVec.add_comm]

namespace Sha256

/-- What the hash stands for: its text so far is in the compressed blocks and in the buffer. -/
structure Reads (s : Sha256) (text : List Byte) : Prop where
  hash : ∀ rest, blocks H0 (text ++ rest) = blocks s.h (s.buf ++ rest)
  held : s.buf.length = text.length % 64
  counted : s.len = BitVec.ofNat 64 text.length

variable {s : Sha256} {text : List Byte}

theorem init_reads : Reads init [] where
  hash := by
    intro rest
    rw [init_h]
    rfl
  held := rfl
  counted := rfl

theorem fill_len (s : Sha256) (p : List Byte) : (fill s p).len = s.len := by
  induction s, p using fill.induct with
  | case1 s => rw [fill, if_pos rfl]
  | case2 s p some take buf full ih => rw [fill, if_neg some, dif_pos full, ih]
  | case3 s p some take buf full ih => rw [fill, if_neg some, dif_neg full, ih]

theorem fill_hash (s : Sha256) (p rest : List Byte) :
    blocks s.h (s.buf ++ p ++ rest) = blocks (fill s p).h ((fill s p).buf ++ rest) := by
  have joined (buf p : List Byte) (take : ℕ) :
      buf ++ p ++ rest = buf ++ p.take take ++ p.drop take ++ rest := by
    rw [List.append_assoc buf (p.take take), List.take_append_drop]
  induction s, p using fill.induct with
  | case1 s => rw [fill, if_pos rfl, List.append_nil]
  | case2 s p some take buf full ih =>
    rw [fill, if_neg some, dif_pos full, ← ih, block_eq, List.nil_append, ← blocks_append full,
      ← List.append_assoc, joined]
  | case3 s p some take buf full ih =>
    rw [fill, if_neg some, dif_neg full, ← ih, joined s.buf p take]

theorem fill_held (s : Sha256) (p : List Byte) :
    (fill s p).buf.length = (s.buf.length + p.length) % 64 := by
  induction s, p using fill.induct with
  | case1 s => rw [fill, if_pos rfl]; exact (Nat.mod_eq_of_lt s.small).symm
  | case2 s p some take buf full ih =>
    rw [fill, if_neg some, dif_pos full, ih]
    simp only [buf, List.length_append, List.length_take, List.length_drop, List.length_nil] at full ⊢
    omega
  | case3 s p some take buf full ih =>
    rw [fill, if_neg some, dif_neg full, ih]
    simp only [buf, take, List.length_append, List.length_take, List.length_drop] at full ⊢
    omega

theorem Reads.update (h : Reads s text) (p : List Byte) : Reads (s.update p) (text ++ p) where
  hash rest := by
    rw [List.append_assoc, h.hash, ← List.append_assoc]
    exact fill_hash { s with len := s.len + BitVec.ofNat 64 p.length } p rest
  held := by
    rw [Sha256.update, fill_held, h.held, List.length_append, Nat.mod_add_mod]
  counted := by
    rw [Sha256.update, fill_len, h.counted, List.length_append, BitVec.ofNat_add]

theorem Reads.foldl_update (h : Reads s text) (pieces : List (List Byte)) :
    Reads (pieces.foldl Sha256.update s) (text ++ pieces.flatten) := by
  induction pieces generalizing s text with
  | nil => simpa using h
  | cons p pieces ih => simpa using ih (h.update p)

theorem Reads.zeroFill (h : Reads s text) :
    Reads s.zeroFill (text ++ List.replicate ((120 - text.length % 64) % 64) 0) := by
  rw [← h.held]
  induction s using zeroFill.induct generalizing text with
  | case1 s there => rw [Sha256.zeroFill, if_pos there, there]; simpa using h
  | case2 s there ih =>
    have small := s.small
    have one_more : (120 - s.buf.length) % 64 =
        (120 - (s.buf.length + 1) % 64) % 64 + 1 := by omega
    rw [Sha256.zeroFill, if_neg there, one_more, List.replicate_succ]
    have := ih (h.update [0])
    rw [update_one_buf] at this
    simpa using this

theorem Reads.whole_blocks (h : Reads s text) (whole : text.length % 64 = 0) :
    blocks H0 text = s.h := by
  have nothing_held : s.buf = [] := by
    rw [← List.length_eq_zero_iff, h.held, whole]
  have none_left : ([] : List Byte).length < 64 := by decide
  have run := h.hash []
  rwa [List.append_nil, nothing_held, List.append_nil, blocks_short none_left] at run

end Sha256

theorem length_bytes (bits : BitVec 64) :
    (List.range 8).map (fun i => (bits >>> (56 - 8 * i)).setWidth 8) = bytes 8 bits := by
  refine List.map_congr_left fun i early => ?_
  have early := List.mem_range.mp early
  rw [BitVec.setWidth_ushiftRight_eq_extractLsb, show 56 - 8 * i = 8 * (8 - 1 - i) by omega]

theorem word_bytes (x : Word) :
    [(x >>> 24).setWidth 8, (x >>> 16).setWidth 8, (x >>> 8).setWidth 8, x.setWidth 8] =
      bytes 4 x := by
  rw [← BitVec.ushiftRight_zero (x := x)]
  simp only [BitVec.setWidth_ushiftRight_eq_extractLsb]
  rfl

/-- Whatever pieces a text comes in, the digest is that of the text. -/
theorem digest_of_pieces (pieces : List (List Byte)) :
    (pieces.foldl Sha256.update Sha256.init).final = sha256 pieces.flatten := by
  have read := Sha256.init_reads.foldl_update pieces
  rw [List.nil_append] at read
  generalize pieces.foldl Sha256.update Sha256.init = s at read ⊢
  generalize pieces.flatten = text at read ⊢
  have bits : s.len * 8 = BitVec.ofNat 64 (8 * text.length) := by
    rw [read.counted, Nat.mul_comm, BitVec.ofNat_mul]
    rfl
  have room : (120 - (text ++ [0x80]).length % 64) % 64 = zeros text.length := by
    rw [List.length_append, List.length_singleton, zeros]
    omega
  have padded := (read.update [0x80]).zeroFill.update (bytes 8 (s.len * 8))
  rw [room, bits, List.append_assoc, List.append_assoc, List.singleton_append, ← padding] at padded
  have hashed := padded.whole_blocks (padded_whole text)
  simp only [Sha256.final, sha256, hashed, length_bytes, word_bytes, bits]

end PiFire.Update
