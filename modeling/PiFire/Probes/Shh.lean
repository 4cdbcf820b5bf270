import PiFire.Doubles.Extended
import Mathlib.Tactic.FieldSimp
import Mathlib.Tactic.Linarith
import Mathlib.Tactic.NormNum
import Mathlib.Tactic.Ring

/-!
# The curve of a thermistor

Three measured points give the coefficients of a Steinhart-Hart curve. The numbers are those of
a double without rounding, infinities and NaN included, and the logarithm is any function: the
curve that is accepted passes through its points, since a divisor that vanishes leaves NaN.
-/

namespace PiFire.Probes

open Doubles Doubles.Value

universe u

variable {K : Type u} [Field K] [LinearOrder K]

/-- `pf_shh`: the coefficients of a curve. -/
structure Shh (K : Type u) where
  A : Value K
  B : Value K
  C : Value K
  deriving DecidableEq

/-- `inv_t`: what the curve has for a logarithm. -/
def invT (L : Value K) (p : Shh K) : Value K :=
  (p.A.add (p.B.mul L)).add (((p.C.mul L).mul L).mul L)

/-- `pf_c_to_f` -/
def valueToF (c : Value K) : Value K := ((c.mul (fin 9)).quot (fin 5)).add (fin 32)

/-- `pf_shh_ohms_to_c` -/
def shhOhmsToC (log : K → K) (ohms : K) (p : Shh K) : Value K :=
  if ¬0 < ohms then nan
  else
    let invT := invT (fin (log ohms)) p
    if invT = fin 0 then nan
    else
      let c := ((fin 1).quot invT).sub (fin (27315 / 100))
      let f := valueToF c
      if f.lt (fin (-58)) ∨ (fin 750 : Value K).lt f then nan else c

/-- A temperature and a resistance measured at it. -/
structure Point (K : Type u) where
  t : K
  r : K

namespace Point

def kelvin (x : Point K) : K := x.t + 27315 / 100

/-- The point is at a temperature that a probe can sensibly report. -/
def Sensible (x : Point K) : Prop := -58 ≤ x.t * 9 / 5 + 32 ∧ x.t * 9 / 5 + 32 ≤ 750

instance (x : Point K) : Decidable x.Sensible := inferInstanceAs (Decidable (_ ∧ _))

end Point

/-- `pf_shh_solve` -/
def shhSolve (log : K → K) (x₁ x₂ x₃ : Point K) : Option (Shh K) :=
  if ¬(0 < x₁.r ∧ 0 < x₂.r ∧ 0 < x₃.r) then none
  else
    let L₁ := log x₁.r
    let L₂ := log x₂.r
    let L₃ := log x₃.r
    let Y₁ := (fin 1).quot (fin x₁.kelvin)
    let Y₂ := (fin 1).quot (fin x₂.kelvin)
    let Y₃ := (fin 1).quot (fin x₃.kelvin)
    if L₁ = L₂ ∨ L₁ = L₃ ∨ L₂ = L₃ then none
    else
      let g₂ := (Y₂.sub Y₁).quot (fin (L₂ - L₁))
      let g₃ := (Y₃.sub Y₁).quot (fin (L₃ - L₁))
      let C := ((g₃.sub g₂).quot (fin (L₃ - L₂))).quot (fin (L₁ + L₂ + L₃))
      let B := g₂.sub (C.mul (fin (L₁ * L₁ + L₁ * L₂ + L₂ * L₂)))
      let A := Y₁.sub ((B.add ((fin (L₁ * L₁)).mul C)).mul (fin L₁))
      if A = nan ∨ B = nan ∨ C = nan then none else some ⟨A, B, C⟩

/-- What is divided by on the way to the coefficients. -/
def divisors (log : K → K) (x₁ x₂ x₃ : Point K) : List K :=
  [x₁.kelvin, x₂.kelvin, x₃.kelvin, log x₂.r - log x₁.r, log x₃.r - log x₁.r, log x₃.r - log x₂.r,
    log x₁.r + log x₂.r + log x₃.r]

/-- A curve passes through a point: it has the point's temperature for the point's resistance,
and the probe reports it where it is a sensible one. -/
structure Passes (log : K → K) (p : Shh K) (x : Point K) : Prop where
  curve : invT (fin (log x.r)) p = fin (1 / x.kelvin)
  reported : shhOhmsToC log x.r p = if x.Sensible then fin x.t else nan

variable [IsStrictOrderedRing K]

theorem unfit_of_infinite {C : Value K} (Y g L P : K) (positive : 0 < P)
    (unfit : C = nan ∨ ∃ up, C = inf up) :
    (fin Y).sub ((((fin g).sub (C.mul (fin P))).add ((fin (L * L)).mul C)).mul (fin L)) = nan := by
  rcases unfit with rfl | ⟨up, rfl⟩
  · simp
  · have product : (inf up : Value K).mul (fin P) = inf up := by
      simp [mul, scale, positive, positive.ne']
    rw [product, fin_sub_inf]
    by_cases flat : L * L = 0
    · simp [mul, scale, flat]
    · have square : 0 < L * L := lt_of_le_of_ne (mul_self_nonneg L) (Ne.symm flat)
      have cancels : (inf (!up) : Value K).add ((fin (L * L)).mul (inf up)) = nan := by
        simp [mul, scale, flat, square, add]
      rw [cancels, nan_mul, sub_nan]

theorem curvature_pos {L₁ L₂ : K} (different : L₁ ≠ L₂) :
    0 < L₁ * L₁ + L₁ * L₂ + L₂ * L₂ := by
  have apart : 0 < (L₁ - L₂) * (L₁ - L₂) := mul_self_pos.mpr (sub_ne_zero.mpr different)
  nlinarith [mul_self_nonneg (L₁ + L₂)]

theorem curve_eq {B C L M slope : K} (Y : K) (steep : B + C * (L * L + L * M + M * M) = slope) :
    Y - (B + L * L * C) * L + B * M + C * M * M * M = Y + slope * (M - L) := by
  rw [← steep]
  ring

theorem slope_eq {C L₁ L₂ L₃ g₂ g₃ : K} (bend : C * (L₁ + L₂ + L₃) * (L₃ - L₂) = g₃ - g₂) :
    g₂ - C * (L₁ * L₁ + L₁ * L₂ + L₂ * L₂) + C * (L₁ * L₁ + L₁ * L₃ + L₃ * L₃) = g₃ := by
  calc
    _ = g₂ + C * (L₁ + L₂ + L₃) * (L₃ - L₂) := by ring
    _ = g₃ := by rw [bend, add_sub_cancel]

theorem Passes.of_curve {log : K → K} {p : Shh K} {x : Point K} (measured : 0 < x.r)
    (hot : 0 < x.kelvin) (curve : invT (fin (log x.r)) p = fin (1 / x.kelvin)) :
    Passes log p x := by
  refine ⟨curve, ?_⟩
  have warm : 1 / x.kelvin ≠ 0 := (one_div_pos.mpr hot).ne'
  have back : 1 / (1 / x.kelvin) - 27315 / 100 = x.t := by
    rw [one_div_one_div, Point.kelvin, add_sub_cancel_right]
  have reading : ((fin 1).quot (fin (1 / x.kelvin))).sub (fin (27315 / 100)) = fin x.t := by
    rw [quot_fin warm, sub_fin, back]
  have five : (5 : K) ≠ 0 := by norm_num
  have outside : x.t * 9 / 5 + 32 < -58 ∨ 750 < x.t * 9 / 5 + 32 ↔ ¬x.Sensible := by
    rw [Point.Sensible, not_and_or, not_le, not_le]
  simp only [shhOhmsToC, if_neg (not_not.mpr measured), curve, fin.injEq, if_neg warm, reading,
    valueToF, mul_fin, quot_fin five, add_fin, lt_fin, decide_eq_true_eq, outside, ite_not]

/-- A curve that is accepted passes through the three points it was made from, and nothing was
divided by nothing on the way: where the logarithms add up to nothing the first coefficient is
NaN, and the curve is not accepted. -/
theorem solve_passes (log : K → K) {x₁ x₂ x₃ : Point K} (hot : ∀ x ∈ [x₁, x₂, x₃], 0 < x.kelvin)
    {p : Shh K} (solved : shhSolve log x₁ x₂ x₃ = some p) :
    (∀ d ∈ divisors log x₁ x₂ x₃, d ≠ 0) ∧ ∀ x ∈ [x₁, x₂, x₃], Passes log p x := by
  have hot₁ : 0 < x₁.kelvin := hot x₁ (by simp)
  have hot₂ : 0 < x₂.kelvin := hot x₂ (by simp)
  have hot₃ : 0 < x₃.kelvin := hot x₃ (by simp)
  simp only [shhSolve] at solved
  split_ifs at solved with measured same unfit
  obtain ⟨ne₁₂, ne₁₃, ne₂₃⟩ : log x₁.r ≠ log x₂.r ∧ log x₁.r ≠ log x₃.r ∧ log x₂.r ≠ log x₃.r := by
    simpa only [not_or] using same
  have d₂ : log x₂.r - log x₁.r ≠ 0 := sub_ne_zero.mpr ne₁₂.symm
  have d₃ : log x₃.r - log x₁.r ≠ 0 := sub_ne_zero.mpr ne₁₃.symm
  have d : log x₃.r - log x₂.r ≠ 0 := sub_ne_zero.mpr ne₂₃.symm
  simp only [quot_fin hot₁.ne', quot_fin hot₂.ne', quot_fin hot₃.ne', sub_fin, quot_fin d₂,
    quot_fin d₃, quot_fin d] at unfit solved
  have total : log x₁.r + log x₂.r + log x₃.r ≠ 0 := by
    intro none_
    rw [none_] at unfit
    exact unfit (Or.inl (unfit_of_infinite _ _ _ _ (curvature_pos ne₁₂) (quot_zero _)))
  simp only [quot_fin total, mul_fin, sub_fin, add_fin, Option.some.injEq] at solved
  refine ⟨by simp [divisors, hot₁.ne', hot₂.ne', hot₃.ne', d₂, d₃, d, total], ?_⟩
  subst solved
  simp only [List.forall_mem_cons, List.not_mem_nil, false_implies, implies_true, and_true]
  refine ⟨.of_curve measured.1 hot₁ ?_, .of_curve measured.2.1 hot₂ ?_,
    .of_curve measured.2.2 hot₃ ?_⟩ <;>
  simp only [invT, mul_fin, add_fin, fin.injEq]
  · rw [curve_eq _ rfl, sub_self, mul_zero, add_zero]
  · rw [curve_eq _ (sub_add_cancel _ _), div_mul_cancel₀ _ d₂, add_sub_cancel]
  · have bend := div_mul_cancel₀ ((1 / x₃.kelvin - 1 / x₁.kelvin) / (log x₃.r - log x₁.r) -
      (1 / x₂.kelvin - 1 / x₁.kelvin) / (log x₂.r - log x₁.r)) d
    rw [← div_mul_cancel₀ (_ / (log x₃.r - log x₂.r)) total] at bend
    rw [curve_eq _ (slope_eq bend), div_mul_cancel₀ _ d₃, add_sub_cancel]

/-- Logarithms to the base two of the resistances on the bench. -/
def benchLog (r : ℚ) : ℚ := if r = 4 then 2 else if r = 2 then 1 else 0

theorem solve_passes_on_bench :
    ∃ p, shhSolve benchLog ⟨0, 4⟩ ⟨25, 2⟩ ⟨100, 1⟩ = some p ∧
      ∀ x ∈ [⟨0, 4⟩, ⟨25, 2⟩, ⟨100, 1⟩], Passes benchLog p x := by
  have found : (shhSolve benchLog ⟨0, 4⟩ ⟨25, 2⟩ ⟨100, 1⟩).isSome := by decide +kernel
  obtain ⟨p, solved⟩ := Option.isSome_iff_exists.mp found
  exact ⟨p, solved, (solve_passes benchLog (by norm_num [Point.kelvin]) solved).2⟩

end PiFire.Probes
