import Mathlib.Algebra.Order.Field.Basic
import Mathlib.Algebra.Order.Group.Abs

/-!
# Numbers with infinities and NaN

What a double can hold, with exact numbers for the finite ones: sums, products, quotients, and
the smaller and the larger of two, where a NaN gives way to the other.
-/

namespace Doubles

universe u

/-- A number, an infinity that is up or down, or none of these. -/
inductive Value (K : Type u) where
  | fin (x : K)
  | inf (up : Bool)
  | nan
  deriving DecidableEq

namespace Value

variable {K : Type u}

def isFinite : Value K → Bool
  | fin _ => true
  | _ => false

/-- The number, if it is one. -/
def toFin : Value K → Option K
  | fin x => some x
  | _ => none

section Arithmetic

variable [Field K]

def add : Value K → Value K → Value K
  | fin x, fin y => fin (x + y)
  | fin _, inf up => inf up
  | inf up, fin _ => inf up
  | inf up, inf up' => if up = up' then inf up else nan
  | nan, _ => nan
  | _, nan => nan

def neg : Value K → Value K
  | fin x => fin (-x)
  | inf up => inf (!up)
  | nan => nan

def sub (a b : Value K) : Value K := add a (neg b)

@[simp]
theorem add_fin (x y : K) : add (fin x) (fin y) = fin (x + y) := rfl

@[simp]
theorem add_nan (a : Value K) : add a nan = nan := by cases a <;> rfl

@[simp]
theorem nan_add (a : Value K) : add nan a = nan := rfl

@[simp]
theorem sub_fin (x y : K) : sub (fin x) (fin y) = fin (x - y) := by
  rw [sub, neg, add_fin, sub_eq_add_neg]

@[simp]
theorem sub_nan (a : Value K) : sub a nan = nan := add_nan a

@[simp]
theorem nan_sub (a : Value K) : sub nan a = nan := rfl

@[simp]
theorem inf_sub_fin (up : Bool) (x : K) : sub (inf up) (fin x) = inf up := rfl

@[simp]
theorem fin_sub_inf (x : K) (up : Bool) : sub (fin x) (inf up) = inf (!up) := rfl

@[simp]
theorem inf_sub_self (up : Bool) : sub (inf up : Value K) (inf up) = nan := by
  cases up <;> rfl

@[simp]
theorem inf_add_fin (up : Bool) (x : K) : add (inf up) (fin x) = inf up := rfl

theorem inf_sub_cases (up : Bool) (a : Value K) :
    sub (inf up) a = nan ∨ sub (inf up) a = inf up := by
  cases a with
  | fin x => exact Or.inr rfl
  | nan => exact Or.inl rfl
  | inf up' => cases up <;> cases up' <;> simp [sub, add, neg]

/-- Which way an infinity lies. -/
def sign (up : Bool) : K := if up then 1 else -1

theorem sign_mul_sign (up : Bool) : (sign up : K) * sign up = 1 := by
  cases up <;> simp [sign]

variable [LinearOrder K]

/-- A number times a value; nothing times an infinity is no number. -/
def scale (c : K) : Value K → Value K
  | fin x => fin (c * x)
  | inf up => if c = 0 then nan else if 0 < c then inf up else inf (!up)
  | nan => nan

/-- A value divided by a number that is not zero. -/
def divide (a : Value K) (c : K) : Value K := scale c⁻¹ a

@[simp]
theorem scale_fin (c x : K) : scale c (fin x) = fin (c * x) := rfl

@[simp]
theorem scale_nan (c : K) : scale c (nan : Value K) = nan := rfl

@[simp]
theorem divide_fin (x c : K) : divide (fin x) c = fin (x / c) := by
  rw [divide, scale_fin, inv_mul_eq_div]

@[simp]
theorem divide_nan (c : K) : divide (nan : Value K) c = nan := rfl

theorem scale_inf_cases (c : K) (up : Bool) :
    scale c (inf up) = nan ∨ ∃ up', scale c (inf up) = inf up' := by
  simp only [scale]
  split_ifs
  · exact Or.inl rfl
  · exact Or.inr ⟨up, rfl⟩
  · exact Or.inr ⟨!up, rfl⟩

theorem scale_not_of_down {c : K} {up : Bool} (down : scale c (inf up) = inf false) :
    scale c (inf (!up)) = inf true := by
  rcases lt_trichotomy c 0 with below | rfl | above
  · cases up with
    | true => simp [scale, below.ne, below.le]
    | false => simp [scale, below.ne, below.le] at down
  · simp [scale] at down
  · cases up with
    | true => simp [scale, above, above.ne'] at down
    | false => simp [scale, above, above.ne']

theorem sign_mul_le_abs (up : Bool) (x : K) : sign up * x ≤ |x| := by
  cases up with
  | true => simpa [sign] using le_abs_self x
  | false => simpa [sign] using neg_le_abs x

/-- The product of two values. -/
def mul : Value K → Value K → Value K
  | fin x, b => scale x b
  | inf up, fin y => scale y (inf up)
  | inf up, inf up' => inf (up == up')
  | _, _ => nan

/-- The quotient of two values: a number over nothing is an infinity, and nothing over nothing
is no number. -/
def quot : Value K → Value K → Value K
  | fin x, fin y => if y = 0 then if x = 0 then nan else inf (0 < x) else fin (x / y)
  | fin _, inf _ => fin 0
  | inf up, fin y => if y = 0 then inf up else scale y⁻¹ (inf up)
  | _, _ => nan

@[simp]
theorem mul_fin (x y : K) : mul (fin x) (fin y) = fin (x * y) := rfl

@[simp]
theorem mul_nan (a : Value K) : mul a nan = nan := by cases a <;> rfl

@[simp]
theorem nan_mul (a : Value K) : mul nan a = nan := by cases a <;> rfl

theorem quot_fin {x y : K} (divides : y ≠ 0) : quot (fin x) (fin y) = fin (x / y) := if_neg divides

theorem quot_zero (x : K) : quot (fin x) (fin 0) = nan ∨ ∃ up, quot (fin x) (fin 0) = inf up := by
  by_cases nothing : x = 0
  · exact Or.inl (by simp [quot, nothing])
  · exact Or.inr ⟨decide (0 < x), by simp [quot, nothing]⟩

variable [IsStrictOrderedRing K]

theorem divide_inf {c : K} (positive : 0 < c) (up : Bool) :
    divide (inf up : Value K) c = inf up := by
  rw [divide, scale, if_neg (inv_ne_zero positive.ne'), if_pos (inv_pos.mpr positive)]

theorem scale_inf_eq_down {c : K} {up : Bool} :
    scale c (inf up) = inf false ↔ c * sign up < 0 := by
  rcases lt_trichotomy c 0 with below | rfl | above
  · cases up with
    | true => simp [scale, sign, below, below.ne, below.le]
    | false => simp [scale, sign, below.ne, below.le]
  · simp [scale]
  · cases up with
    | true => simp [scale, sign, above, above.ne', above.le]
    | false => simp [scale, sign, above, above.ne']

end Arithmetic

section Bounds

variable [LinearOrder K]

/-- No value is below NaN or above it. -/
def lt : Value K → Value K → Bool
  | fin x, fin y => x < y
  | fin _, inf up => up
  | inf up, fin _ => !up
  | inf up, inf up' => !up && up'
  | _, _ => false

@[simp]
theorem lt_fin (x y : K) : lt (fin x) (fin y) = decide (x < y) := rfl

def fmin : Value K → Value K → Value K
  | nan, y => y
  | x, nan => x
  | fin x, fin y => fin (min x y)
  | inf up, y => if up then y else inf false
  | x, inf up => if up then x else inf false

def fmax : Value K → Value K → Value K
  | nan, y => y
  | x, nan => x
  | fin x, fin y => fin (max x y)
  | inf up, y => if up then inf true else y
  | x, inf up => if up then inf true else x

/-- A value held between two numbers, as the larger of one and the smaller of the other. -/
def held (lo hi : K) (a : Value K) : Value K := fmax (fin lo) (fmin (fin hi) a)

variable {lo hi : K}

@[simp]
theorem held_fin (x : K) : held lo hi (fin x) = fin (max lo (min hi x)) := rfl

@[simp]
theorem held_nan : held lo hi (nan : Value K) = fin (max lo hi) := rfl

@[simp]
theorem held_up : held lo hi (inf true : Value K) = fin (max lo hi) := rfl

@[simp]
theorem held_down : held lo hi (inf false : Value K) = fin lo := rfl

end Bounds

end Value

end Doubles
