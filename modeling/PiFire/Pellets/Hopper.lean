import PiFire.Control.Common
import PiFire.Transition.Run
import Mathlib.Order.Interval.Set.UnorderedInterval

/-!
# The hopper's level

A reading is a burst of three samples of a distance sensor. A level far from the one
published waits until the burst after it says the same, so that a bad echo does not pass
for a refill. A burst without a sample publishes that there is no level, and so does a scale
whose empty end is not below its full one; the level after that is published as it comes.
-/

namespace PiFire.Pellets

open Transition

/-- The samples of a burst; one that is no number is `none`. -/
structure Burst where
  first : Option ℚ
  second : Option ℚ
  third : Option ℚ

/-- The samples that count, in their order. -/
def Burst.kept (b : Burst) : List ℚ :=
  [b.first, b.second, b.third].filterMap fun x => x.filter (0 < ·)

/-- The one of three samples that is taken for the middle one. -/
def middle (x y z : ℚ) : ℚ :=
  if decide (x > y) = decide (x < z) then x
  else if decide (y > x) = decide (y < z) then y
  else z

/-- The distance of a burst, in centimetres. -/
def Burst.reading (b : Burst) : Option ℚ :=
  match b.kept with
  | [x, y, z] => some (middle x y z)
  | [x, y] => some ((x + y) / 2)
  | [x] => some x
  | _ => none

/-- The median of three. -/
def median (x y z : ℚ) : ℚ := max (min x y) (min (max x y) z)

/-- The distances of an empty hopper and of a full one. -/
structure Scale where
  empty : ℚ
  full : ℚ

/-- An end of the scale. -/
inductive Mark where
  | full
  | empty
  deriving DecidableEq

/-- A distance to a tenth of a centimetre. -/
def tenths (cm : ℚ) : ℚ := truncate (cm * 10 + 1 / 2) / 10

/-- The end that was asked for becomes the reading. -/
def Scale.calibrate (s : Scale) : Option Mark → ℚ → Scale
  | some .full, cm => { s with full := tenths cm }
  | some .empty, cm => { s with empty := tenths cm }
  | none, _ => s

/-- How full the hopper is at a distance, in percent. -/
def Scale.percent (s : Scale) (cm : ℚ) : ℚ :=
  clamp ((s.empty - cm) / (s.empty - s.full) * 100) 0 100

/-- What a reading has to go on: whether there is a sensor, what it says, the end of the scale
that is to be calibrated and the scale in the settings. -/
structure Call where
  sensor : Bool
  burst : Burst
  calibrate : Option Mark
  scale : Scale
  wall : ℚ

/-- The level that is published, less than zero where there is none, and the one that waits
to be confirmed. -/
structure Hopper where
  pct : ℤ := -1
  cm : Option ℚ := none
  updated : ℚ := 0
  pending : ℚ := 0
  pendingN : ℕ := 0

/-- How far a level may be from the one before without being confirmed. -/
def jumpLimit : ℚ := 8

/-- How near two levels are that confirm each other. -/
def agreement : ℚ := 5

/-- A level is published. -/
def Hopper.accept (h : Hopper) (cm pct : ℚ) : Hopper :=
  { h with cm := some cm, pct := truncate pct, pendingN := 0 }

/-- A level is held against the one published. -/
def Hopper.judge (h : Hopper) (cm pct : ℚ) : Hopper :=
  if h.pct < 0 ∨ |pct - h.pct| ≤ jumpLimit then h.accept cm pct
  else if h.pendingN > 0 ∧ |pct - h.pending| ≤ agreement then h.accept cm pct
  else { h with pending := pct, pendingN := h.pendingN + 1 }

/-- A calibration moves the scale under the level, which is then no longer one. -/
def Hopper.rescale (h : Hopper) : Option Mark → Hopper
  | some _ => { h with pct := -1, pendingN := 0 }
  | none => h

/-- `read_hopper` -/
def readHopper (c : Call) (h : Hopper) : Hopper :=
  if c.sensor = false then { h with pct := -1 }
  else
    match c.burst.reading with
    | none => { h with updated := c.wall, cm := none, pct := -1 }
    | some cm =>
        let scale := c.scale.calibrate c.calibrate cm
        let h := { h.rescale c.calibrate with updated := c.wall }
        if scale.empty ≤ scale.full then { h with cm := none, pct := -1 }
        else h.judge cm (scale.percent cm)

/-- The level a reading comes to, in percent, if it comes to one. -/
def Call.level (c : Call) : Option ℚ :=
  if c.sensor = false then none
  else
    c.burst.reading.bind fun cm =>
      let scale := c.scale.calibrate c.calibrate cm
      if scale.empty ≤ scale.full then none else some (scale.percent cm)

/-- The median lies between any two of the three, so that one wrong sample does not
move it past the others. -/
theorem median_mem_uIcc (x y z : ℚ) :
    median x y z ∈ Set.uIcc x y ∧ median x y z ∈ Set.uIcc x z ∧ median x y z ∈ Set.uIcc y z := by
  simp only [median, Set.mem_uIcc]
  grind

theorem middle_eq_median_iff (x y z : ℚ) : middle x y z = median x y z ↔ ¬(x = y ∧ y < z) := by
  simp only [middle, median]
  grind

theorem Burst.reading_eq_median {b : Burst} {x y z : ℚ} (three : b.kept = [x, y, z])
    (apart : ¬(x = y ∧ y < z)) : b.reading = some (median x y z) := by
  rw [Burst.reading, three, ← (middle_eq_median_iff x y z).mpr apart]

theorem truncate_mem {x : ℚ} (nonneg : 0 ≤ x) (least : x ≤ 100) :
    0 ≤ truncate x ∧ truncate x ≤ 100 ∧ truncate x ≤ x ∧ x < truncate x + 1 := by
  rw [truncate, if_neg (not_lt.mpr nonneg)]
  refine ⟨Int.floor_nonneg.mpr nonneg, ?_, Int.floor_le x, Int.lt_floor_add_one x⟩
  exact_mod_cast (Int.floor_le x).trans least

theorem Scale.percent_mem (s : Scale) (cm : ℚ) : 0 ≤ s.percent cm ∧ s.percent cm ≤ 100 :=
  clamp_mem (by norm_num)

theorem readHopper_of_none {c : Call} (nothing : c.level = none) (h : Hopper) :
    (readHopper c h).pct = -1 := by
  rw [Call.level] at nothing
  rw [readHopper]
  split_ifs with sensor
  · rfl
  · rw [if_neg sensor] at nothing
    cases reading : c.burst.reading with
    | none => rfl
    | some cm =>
        rw [reading] at nothing
        simp only [Option.bind_some, ite_eq_left_iff, reduceCtorEq, imp_false, not_not] at nothing
        exact congrArg Hopper.pct (if_pos nothing)

theorem readHopper_of_some {c : Call} {q : ℚ} (level : c.level = some q) (h : Hopper) :
    ∃ cm, readHopper c h = { h.rescale c.calibrate with updated := c.wall }.judge cm q := by
  rw [Call.level] at level
  rw [readHopper]
  split_ifs at level ⊢ with sensor
  cases reading : c.burst.reading with
  | none =>
      rw [reading] at level
      cases level
  | some cm =>
      rw [reading, Option.bind_some] at level
      dsimp only at level
      split_ifs at level with degenerate
      cases level
      exact ⟨cm, if_neg degenerate⟩

theorem judge_cases (h : Hopper) (cm q : ℚ) :
    (h.judge cm q = h.accept cm q ∧ (h.pct < 0 ∨ |q - h.pct| ≤ jumpLimit ∨
      0 < h.pendingN ∧ |q - h.pending| ≤ agreement)) ∨
    h.judge cm q = { h with pending := q, pendingN := h.pendingN + 1 } := by
  rw [Hopper.judge]
  split_ifs with near confirmed
  · exact Or.inl ⟨rfl, near.imp_right Or.inl⟩
  · exact Or.inl ⟨rfl, Or.inr (Or.inr confirmed)⟩
  · exact Or.inr rfl

theorem level_of_waiting {c : Call} {h : Hopper} (published : 0 ≤ (readHopper c h).pct)
    (waits : 0 < (readHopper c h).pendingN) : c.level = some (readHopper c h).pending := by
  cases level : c.level with
  | none =>
      rw [readHopper_of_none level] at published
      omega
  | some q =>
      obtain ⟨cm, read⟩ := readHopper_of_some level h
      rw [read] at waits ⊢
      rcases judge_cases { h.rescale c.calibrate with updated := c.wall } cm q with
        ⟨accepted, -⟩ | held
      · rw [accepted] at waits
        exact absurd waits (Nat.lt_irrefl 0)
      · rw [held]

theorem truncate_near {q : ℚ} (nonneg : 0 ≤ q) {n : ℤ} (near : |q - n| ≤ jumpLimit) :
    |(truncate q : ℚ) - n| ≤ jumpLimit := by
  have cut : truncate q = ⌊q⌋ := if_neg (not_lt.mpr nonneg)
  obtain ⟨low, high⟩ := abs_le.mp near
  rw [cut, abs_le]
  constructor
  · have whole : n - 8 ≤ ⌊q⌋ := by
      rw [Int.le_floor]
      push_cast
      simp only [jumpLimit] at low
      linarith
    have whole' : ((n - 8 : ℤ) : ℚ) ≤ ⌊q⌋ := by exact_mod_cast whole
    push_cast at whole'
    simp only [jumpLimit]
    linarith
  · exact (sub_le_sub_right (Int.floor_le q) _).trans high

/-- What is published after a reading: no level, the level before, or that of the reading;
and one far from the level before is a calibration's, or the reading before agreed on it. -/
structure Confirmed (calls : List Call) (c : Call) (before after : Hopper) : Prop where
  range : after.pct = -1 ∨ 0 ≤ after.pct ∧ after.pct ≤ 100
  source : after.pct = -1 ∨ after.pct = before.pct ∨ c.level.map truncate = some after.pct
  jump : 0 ≤ before.pct → 0 ≤ after.pct → jumpLimit < |(after.pct : ℚ) - before.pct| →
    c.calibrate ≠ none ∨ ∃ earlier b p q, calls = earlier ++ [b] ∧ b.level = some p ∧
      c.level = some q ∧ |q - p| ≤ agreement ∧ after.pct = truncate q

/-- A reading of three samples is their median, and no one of them moves it past the
other two. -/
def Median (c : Call) : Prop :=
  ∀ x y z, c.burst.kept = [x, y, z] → ¬(x = y ∧ y < z) →
    ∃ m, c.burst.reading = some m ∧ m = median x y z ∧
      m ∈ Set.uIcc x y ∧ m ∈ Set.uIcc x z ∧ m ∈ Set.uIcc y z

theorem median_reading (c : Call) : Median c := by
  intro x y z three apart
  obtain ⟨first, second, third⟩ := median_mem_uIcc x y z
  exact ⟨median x y z, Burst.reading_eq_median three apart, rfl, first, second, third⟩

theorem Call.level_mem {c : Call} {q : ℚ} (level : c.level = some q) : 0 ≤ q ∧ q ≤ 100 := by
  rw [Call.level] at level
  split_ifs at level
  cases reading : c.burst.reading with
  | none =>
      rw [reading] at level
      cases level
  | some cm =>
      rw [reading, Option.bind_some] at level
      dsimp only at level
      split_ifs at level
      cases level
      exact Scale.percent_mem _ cm

/-- No level is published, or a percentage. -/
def InRange (h : Hopper) : Prop := h.pct = -1 ∨ 0 ≤ h.pct ∧ h.pct ≤ 100

theorem inRange_rescale {h : Hopper} (range : InRange h) (mark : Option Mark) :
    InRange (h.rescale mark) := by
  cases mark with
  | none => exact range
  | some end_ => exact Or.inl rfl

theorem inRange_read (c : Call) (h : Hopper) (range : InRange h) : InRange (readHopper c h) := by
  cases level : c.level with
  | none => exact Or.inl (readHopper_of_none level h)
  | some q =>
      obtain ⟨cm, read⟩ := readHopper_of_some level h
      obtain ⟨nonneg, least⟩ := Call.level_mem level
      obtain ⟨low, high, -⟩ := truncate_mem nonneg least
      rw [read]
      rcases judge_cases { h.rescale c.calibrate with updated := c.wall } cm q with
        ⟨accepted, -⟩ | held
      · rw [accepted]
        exact Or.inr ⟨low, high⟩
      · rw [held]
        exact inRange_rescale range c.calibrate

theorem confirmed_read {calls : List Call} {c : Call} {before : Hopper} (range : InRange before)
    (waiting : 0 ≤ before.pct → 0 < before.pendingN →
      ∃ earlier b, calls = earlier ++ [b] ∧ b.level = some before.pending) :
    Confirmed calls c before (readHopper c before) := by
  have inside := inRange_read c before range
  cases level : c.level with
  | none =>
      have nothing := readHopper_of_none level before
      refine ⟨inside, Or.inl nothing, ?_⟩
      intro _ published
      omega
  | some q =>
      obtain ⟨cm, read⟩ := readHopper_of_some level before
      obtain ⟨nonneg, least⟩ := Call.level_mem level
      rw [read] at inside ⊢
      rcases judge_cases { before.rescale c.calibrate with updated := c.wall } cm q with
        ⟨accepted, why⟩ | held
      · rw [accepted] at inside ⊢
        refine ⟨inside, Or.inr (Or.inr (congrArg _ level)), ?_⟩
        intro was _ far
        cases mark : c.calibrate with
        | some end_ => exact Or.inl (Option.some_ne_none end_)
        | none =>
            right
            rw [mark] at why
            rcases why with none_ | near | ⟨waits, agree⟩
            · exact absurd none_ (not_lt.mpr was)
            · exact absurd (truncate_near nonneg near) (not_le.mpr far)
            · obtain ⟨earlier, b, last, said⟩ := waiting was waits
              exact ⟨earlier, b, before.pending, q, last, said, level, agree, rfl⟩
      · -- what waits leaves the level published as it is
        rw [held] at inside ⊢
        cases mark : c.calibrate with
        | some end_ =>
            rw [mark] at inside
            refine ⟨inside, Or.inl rfl, ?_⟩
            intro _ _ _
            left
            rw [mark]
            exact Option.some_ne_none end_
        | none =>
            rw [mark] at inside
            refine ⟨inside, Or.inr (Or.inl rfl), ?_⟩
            intro _ _ far
            have still : |(before.pct : ℚ) - before.pct| = 0 := by rw [sub_self, abs_zero]
            simp only [Hopper.rescale, still, jumpLimit] at far
            norm_num at far

/-- A burst whose first two samples failed, on a scale from 4 to 22 centimetres. -/
def oneSample : Call := ⟨true, ⟨none, none, some 13⟩, none, ⟨22, 4⟩, 0⟩

end PiFire.Pellets
