import Mathlib.Data.Int.Notation
import Mathlib.Algebra.Order.Ring.Int
import Mathlib.Data.Int.Cast.Basic

/-!
# The Gregorian calendar

Days are numbered from the first of January 1970. This file has the day of the month
and the day of the week of a day, and how soon each of them comes round again.
-/

namespace Dates

/-! ### Years

Years are taken to begin in March, so that a leap day is the last of its year. -/

/-- The day in four hundred years, from the first of March of a year that 400 divides. -/
def dayOfEra (day : ℤ) : ℤ := (day + 719468) % 146097

/-- The day in a century; the last of four has a day more. -/
def dayOfCentury (n : ℤ) : ℤ := n - 36524 * min 3 (n / 36524)

/-- The day in four years. -/
def dayOfQuad (n : ℤ) : ℤ := n % 1461

/-- The day in a year; the last of four has a day more. -/
def dayOfYear (n : ℤ) : ℤ := n - 365 * min 3 (n / 365)

/-- How many days a day is after the first of March before it. -/
def marchDay (day : ℤ) : ℤ := dayOfYear (dayOfQuad (dayOfCentury (dayOfEra day)))

/-- The day of the month, of a day so many days after the first of March. -/
def dayOfMonth (n : ℤ) : ℤ := n - (153 * ((5 * n + 2) / 153) + 2) / 5 + 1

/-- The day of the month. -/
def monthDay (day : ℤ) : ℤ := dayOfMonth (marchDay day)

/-- The day of the week, from Sunday. -/
def weekday (day : ℤ) : ℤ := (day + 4) % 7

theorem marchDay_bounds (day : ℤ) : 0 ≤ marchDay day ∧ marchDay day ≤ 365 := by
  simp only [marchDay, dayOfYear, dayOfQuad]
  omega

theorem dayOfYear_next {n : ℤ} (low : 0 ≤ n) (high : n < 1460) :
    dayOfYear (n + 1) = dayOfYear n + 1 ∨ dayOfYear (n + 1) = 0 ∧ 364 ≤ dayOfYear n := by
  simp only [dayOfYear]
  omega

theorem dayOfQuad_next (n : ℤ) :
    dayOfYear (dayOfQuad (n + 1)) = dayOfYear (dayOfQuad n) + 1 ∨
      dayOfYear (dayOfQuad (n + 1)) = 0 ∧ 364 ≤ dayOfYear (dayOfQuad n) := by
  by_cases last : dayOfQuad n = 1460
  · have first : dayOfQuad (n + 1) = 0 := by
      simp only [dayOfQuad] at last ⊢
      omega
    rw [last, first]
    decide
  · have same : dayOfQuad (n + 1) = dayOfQuad n + 1 := by
      simp only [dayOfQuad] at last ⊢
      omega
    rw [same]
    apply dayOfYear_next
    · simp only [dayOfQuad]
      omega
    · simp only [dayOfQuad] at last ⊢
      omega

theorem dayOfCentury_next {n : ℤ} (low : 0 ≤ n) (high : n < 146096) :
    dayOfCentury (n + 1) = dayOfCentury n + 1 ∨
      dayOfCentury (n + 1) = 0 ∧ dayOfCentury n = 36523 := by
  simp only [dayOfCentury]
  omega

theorem marchDay_next (day : ℤ) :
    marchDay (day + 1) = marchDay day + 1 ∨ marchDay (day + 1) = 0 ∧ 364 ≤ marchDay day := by
  rw [marchDay, marchDay]
  by_cases last : dayOfEra day = 146096
  · have first : dayOfEra (day + 1) = 0 := by
      simp only [dayOfEra] at last ⊢
      omega
    rw [last, first]
    decide
  · have same : dayOfEra (day + 1) = dayOfEra day + 1 := by
      simp only [dayOfEra] at last ⊢
      omega
    have inside : 0 ≤ dayOfEra day ∧ dayOfEra day < 146096 := by
      simp only [dayOfEra] at last ⊢
      omega
    rw [same]
    rcases dayOfCentury_next inside.1 inside.2 with next | ⟨first, before⟩
    · rw [next]
      exact dayOfQuad_next _
    · rw [first, before]
      decide

theorem dayOfMonth_next {n : ℤ} (low : 0 ≤ n) (high : n ≤ 364) :
    dayOfMonth (n + 1) = dayOfMonth n + 1 ∨ dayOfMonth (n + 1) = 1 ∧ 28 ≤ dayOfMonth n := by
  have all : ∀ n < 365, dayOfMonth ((n : ℕ) + 1) = dayOfMonth (n : ℕ) + 1 ∨
      dayOfMonth ((n : ℕ) + 1) = 1 ∧ 28 ≤ dayOfMonth (n : ℕ) := by decide +kernel
  have here := all n.toNat (by omega)
  rwa [Int.toNat_of_nonneg low] at here

theorem dayOfMonth_bounds {n : ℤ} (low : 0 ≤ n) (high : n ≤ 365) :
    1 ≤ dayOfMonth n ∧ dayOfMonth n ≤ 31 := by
  have all : ∀ n < 366, 1 ≤ dayOfMonth (n : ℕ) ∧ dayOfMonth (n : ℕ) ≤ 31 := by decide +kernel
  have here := all n.toNat (by omega)
  rwa [Int.toNat_of_nonneg low] at here

theorem monthDay_bounds (day : ℤ) : 1 ≤ monthDay day ∧ monthDay day ≤ 31 :=
  dayOfMonth_bounds (marchDay_bounds day).1 (marchDay_bounds day).2

theorem monthDay_next (day : ℤ) :
    monthDay (day + 1) = monthDay day + 1 ∨ monthDay (day + 1) = 1 ∧ 28 ≤ monthDay day := by
  obtain ⟨low, high⟩ := marchDay_bounds day
  rw [monthDay, monthDay]
  rcases marchDay_next day with next | ⟨first, late⟩
  · rw [next]
    apply dayOfMonth_next low
    have bound := (marchDay_bounds (day + 1)).2
    omega
  · right
    rw [first]
    refine ⟨by decide, ?_⟩
    have last : marchDay day = 364 ∨ marchDay day = 365 := by omega
    rcases last with same | same
    · rw [same]
      decide
    · rw [same]
      decide

theorem monthDay_add {day m : ℤ} (k : ℕ) (here : monthDay day + k = m) (early : m ≤ 28) :
    monthDay (day + k) = m := by
  induction k generalizing m with
  | zero => simpa using here
  | succ k ih =>
    have before := ih (m := m - 1) (by omega) (by omega)
    rw [Nat.cast_succ, ← add_assoc]
    rcases monthDay_next (day + k) with next | ⟨_, late⟩
    · omega
    · omega

theorem exists_first (day : ℤ) (k : ℕ) (left : monthDay day + k = 31) :
    ∃ i : ℕ, i ≤ k + 1 ∧ 1 ≤ i ∧ monthDay (day + i) = 1 := by
  induction k generalizing day with
  | zero =>
    have bound := (monthDay_bounds (day + 1)).2
    refine ⟨1, le_refl _, le_refl _, ?_⟩
    rcases monthDay_next day with next | ⟨first, _⟩
    · omega
    · exact first
  | succ k ih =>
    rcases monthDay_next day with next | ⟨first, _⟩
    · obtain ⟨i, within, _, first⟩ := ih (day + 1) (by omega)
      refine ⟨i + 1, by omega, by omega, ?_⟩
      rw [Nat.cast_succ, add_comm (i : ℤ), ← add_assoc]
      exact first
    · exact ⟨1, by omega, le_refl _, first⟩

theorem exists_monthDay (day : ℤ) {m : ℤ} (low : 1 ≤ m) (high : m ≤ 28) :
    ∃ i : ℕ, 1 ≤ i ∧ i ≤ 31 ∧ monthDay (day + i) = m := by
  obtain ⟨first, last⟩ := monthDay_bounds day
  by_cases later : monthDay day < m
  · refine ⟨(m - monthDay day).toNat, by omega, by omega, ?_⟩
    exact monthDay_add _ (by omega) high
  · obtain ⟨i, within, some_days, begins⟩ :=
      exists_first day (31 - monthDay day).toNat (by omega)
    refine ⟨i + (m - 1).toNat, by omega, by omega, ?_⟩
    rw [Nat.cast_add, ← add_assoc]
    exact monthDay_add _ (by omega) high

theorem exists_weekday (day : ℤ) {w : ℤ} (low : 0 ≤ w) (high : w ≤ 6) :
    ∃ i : ℕ, 1 ≤ i ∧ i ≤ 7 ∧ weekday (day + i) = w := by
  refine ⟨((w - weekday day - 1) % 7 + 1).toNat, by omega, by omega, ?_⟩
  simp only [weekday]
  omega

end Dates
