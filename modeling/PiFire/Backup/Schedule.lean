import Mathlib.Order.Bounds.Basic
import PiFire.Control.Json
import PiFire.Dates.Gregorian

/-!
# When the next backup is due

A schedule has a slot a day, on the days it is for. The search for the next slot goes
from the day of the last backup day by day, for forty days. How the clock is set in the
grill's time zone is a parameter.
-/

namespace PiFire.Backup

open Dates

/-- The time zone as `localtime_r` and `mktime` know it: the date of a time, and the time
that is this hour of a date. Dates do not go back, and a time set on a date is on it. -/
structure Zone where
  localDay : ℤ → ℤ
  mktime : ℤ → ℤ → ℤ
  steady : ∀ s t, s ≤ t → localDay s ≤ localDay t
  sets : ∀ day hour, 0 ≤ hour → hour ≤ 23 → localDay (mktime day hour) = day

/-- `backup.schedule`. -/
def scheduleOf (settings : Json) : String := jsonStr settings ["backup", "schedule"] "off"

/-- `backup.weekday`. -/
def weekdayOf (settings : Json) : ℤ := jsonInt settings ["backup", "weekday"] 0

/-- `backup.monthday`. -/
def monthdayOf (settings : Json) : ℤ := jsonInt settings ["backup", "monthday"] 1

/-- `backup.hour`; three in the morning where it is no hour. -/
def hourOf (settings : Json) : ℤ :=
  let hour := jsonInt settings ["backup", "hour"] 3
  if hour < 0 ∨ 23 < hour then 3 else hour

/-- The schedule is for this day. -/
def fallsOn (settings : Json) (day : ℤ) : Bool :=
  scheduleOf settings == "daily" ||
    scheduleOf settings == "weekly" && weekday day == weekdayOf settings ||
    scheduleOf settings == "monthly" && monthDay day == monthdayOf settings

/-- What the next slot is to come after: the last backup, or now where there was none. -/
def countedFrom (wall last : ℚ) : ℚ := if 0 < last then last else wall

/-- How many days are looked at. -/
def horizonDays : ℕ := 40

/-- `next_due`; zero where nothing is due. -/
def nextDue (zone : Zone) (settings : Json) (enabledCount : ℕ) (wall last : ℚ) : ℤ :=
  if scheduleOf settings = "off" ∨ enabledCount = 0 then 0
  else
    let after := countedFrom wall last
    let day := zone.localDay (truncate after)
    let slots := (List.range horizonDays).map fun i : ℕ => zone.mktime (day + i) (hourOf settings)
    (slots.find? fun t => fallsOn settings (zone.localDay t) && after < t).getD 0

/-- A slot of the schedule. -/
def IsSlot (zone : Zone) (settings : Json) (t : ℤ) : Prop :=
  ∃ day, fallsOn settings day = true ∧ t = zone.mktime day (hourOf settings)

/-- The schedule is daily, weekly on a day of the week, or monthly on a day that every
month has. -/
def IsRegular (settings : Json) : Prop :=
  scheduleOf settings = "daily" ∨
    scheduleOf settings = "weekly" ∧ 0 ≤ weekdayOf settings ∧ weekdayOf settings ≤ 6 ∨
    scheduleOf settings = "monthly" ∧ 1 ≤ monthdayOf settings ∧ monthdayOf settings ≤ 28

variable {zone : Zone} {settings : Json} {enabledCount : ℕ} {wall last : ℚ}

theorem hourOf_bounds (settings : Json) : 0 ≤ hourOf settings ∧ hourOf settings ≤ 23 := by
  simp only [hourOf]
  split <;> omega

namespace Zone

/-- The time a slot has on a day. -/
def slot (zone : Zone) (settings : Json) (day : ℤ) : ℤ := zone.mktime day (hourOf settings)

theorem localDay_slot (zone : Zone) (settings : Json) (day : ℤ) :
    zone.localDay (zone.slot settings day) = day :=
  zone.sets day _ (hourOf_bounds settings).1 (hourOf_bounds settings).2

theorem slot_lt_of_localDay {day t : ℤ} (earlier : day < zone.localDay t) :
    zone.slot settings day < t := by
  by_contra later
  have back := zone.steady _ _ (not_lt.mp later)
  rw [localDay_slot] at back
  omega

theorem slot_lt_slot {day day' : ℤ} (earlier : day < day') :
    zone.slot settings day < zone.slot settings day' := by
  apply slot_lt_of_localDay
  rwa [localDay_slot]

end Zone

theorem isSlot_iff {t : ℤ} :
    IsSlot zone settings t ↔ fallsOn settings (zone.localDay t) = true ∧
      t = zone.slot settings (zone.localDay t) := by
  constructor
  · rintro ⟨day, falls, rfl⟩
    change fallsOn settings (zone.localDay (zone.slot settings day)) = true ∧
      zone.slot settings day = zone.slot settings (zone.localDay (zone.slot settings day))
    rw [zone.localDay_slot]
    exact ⟨falls, rfl⟩
  · rintro ⟨falls, same⟩
    exact ⟨_, falls, same⟩

theorem truncate_le_of_le {after : ℚ} {t : ℤ} (here : (t : ℚ) ≤ after) : t ≤ truncate after := by
  rw [truncate]
  split
  · exact Int.cast_le.mp (here.trans (Int.le_ceil after))
  · exact Int.le_floor.mpr here

theorem le_of_lt_truncate {after : ℚ} {t : ℤ} (before : t < truncate after) : (t : ℚ) ≤ after := by
  rw [truncate] at before
  split at before
  · exact (Int.lt_ceil.mp before).le
  · exact Int.le_floor.mp before.le

theorem localDay_le_of_slot {after : ℚ} {day : ℤ} (later : after < zone.slot settings day) :
    zone.localDay (truncate after) ≤ day := by
  by_contra earlier
  have before : zone.slot settings day < truncate after :=
    zone.slot_lt_of_localDay (not_le.mp earlier)
  exact absurd later (not_lt.mpr (le_of_lt_truncate before))

/-- The day of the search that is the first with a slot after the last backup. -/
def dueIn (zone : Zone) (settings : Json) (after : ℚ) : Option ℕ :=
  let day := zone.localDay (truncate after)
  (List.range horizonDays).find? fun i : ℕ =>
    fallsOn settings (day + i) && after < zone.slot settings (day + i)

theorem nextDue_eq (on : scheduleOf settings ≠ "off") (some_place : 0 < enabledCount) :
    nextDue zone settings enabledCount wall last =
      ((dueIn zone settings (countedFrom wall last)).map fun i : ℕ =>
        zone.slot settings (zone.localDay (truncate (countedFrom wall last)) + i)).getD 0 := by
  have proceeds : ¬(scheduleOf settings = "off" ∨ enabledCount = 0) := by
    rintro (off | none_on)
    · exact on off
    · omega
  rw [nextDue, if_neg proceeds]
  dsimp only
  rw [List.find?_map, dueIn]
  congr 3
  funext i
  change (fallsOn settings (zone.localDay (zone.slot settings _)) && _) = _
  rw [zone.localDay_slot]
  rfl

/-- What the search finds is the earliest slot. -/
theorem nextDue_isLeast_of_near (on : scheduleOf settings ≠ "off") (some_place : 0 < enabledCount)
    {i : ℕ} (near : i < horizonDays)
    (falls : fallsOn settings (zone.localDay (truncate (countedFrom wall last)) + i) = true)
    (later : countedFrom wall last <
      zone.slot settings (zone.localDay (truncate (countedFrom wall last)) + i)) :
    IsLeast {t | IsSlot zone settings t ∧ countedFrom wall last < t}
      (nextDue zone settings enabledCount wall last) := by
  rw [nextDue_eq on some_place]
  generalize countedFrom wall last = after at *
  cases found : dueIn zone settings after with
  | none =>
    have missed := List.find?_range_eq_none.mp found i near
    simp [falls, later] at missed
  | some k =>
    obtain ⟨due, _, before⟩ := List.find?_range_eq_some.mp found
    simp only [Bool.and_eq_true, decide_eq_true_eq] at due
    rw [Option.map_some, Option.getD_some]
    refine ⟨⟨⟨_, due.1, rfl⟩, due.2⟩, ?_⟩
    rintro t ⟨slot, after_it⟩
    obtain ⟨t_falls, same⟩ := isSlot_iff.mp slot
    rw [same] at after_it ⊢
    have reached := localDay_le_of_slot after_it
    by_contra earlier
    -- a slot that is earlier is on an earlier day, which the search looked at
    have day_lt : zone.localDay t < zone.localDay (truncate after) + k := by
      by_contra not_before
      rcases (not_lt.mp not_before).eq_or_lt with same_day | past
      · rw [same_day] at earlier
        exact earlier le_rfl
      · exact earlier (zone.slot_lt_slot past).le
    have looked := before (zone.localDay t - zone.localDay (truncate after)).toNat (by omega)
    rw [Int.toNat_of_nonneg (by omega), add_sub_cancel] at looked
    simp [t_falls, after_it] at looked

theorem IsRegular.soon (regular : IsRegular settings) (day : ℤ) :
    ∃ i : ℕ, 1 ≤ i ∧ i ≤ 31 ∧ fallsOn settings (day + i) = true := by
  rcases regular with daily | ⟨weekly, low, high⟩ | ⟨monthly, low, high⟩
  · refine ⟨1, le_refl _, by omega, ?_⟩
    simp [fallsOn, daily]
  · obtain ⟨i, first, last, same⟩ := exists_weekday day low high
    refine ⟨i, first, by omega, ?_⟩
    simp [fallsOn, weekly, same]
  · obtain ⟨i, first, last, same⟩ := exists_monthDay day low high
    refine ⟨i, first, last, ?_⟩
    simp [fallsOn, monthly, same]

/-- For a schedule of days that come round within a month, with a place to go to, what is
due is the earliest slot after the last backup. -/
theorem nextDue_isLeast (zone : Zone) (wall last : ℚ) (regular : IsRegular settings)
    (some_place : 0 < enabledCount) :
    IsLeast {t | IsSlot zone settings t ∧ countedFrom wall last < t}
      (nextDue zone settings enabledCount wall last) := by
  have on : scheduleOf settings ≠ "off" := by
    intro off
    rcases regular with same | ⟨same, _⟩ | ⟨same, _⟩
    · rw [off] at same
      exact absurd same (by decide)
    · rw [off] at same
      exact absurd same (by decide)
    · rw [off] at same
      exact absurd same (by decide)
  obtain ⟨i, first, last_day, falls⟩ :=
    regular.soon (zone.localDay (truncate (countedFrom wall last)))
  refine nextDue_isLeast_of_near on some_place (Nat.lt_of_le_of_lt last_day (by decide)) falls ?_
  have later : truncate (countedFrom wall last) < zone.slot settings
      (zone.localDay (truncate (countedFrom wall last)) + i) := by
    by_contra not_later
    have back := zone.steady _ _ (not_lt.mp not_later)
    rw [zone.localDay_slot] at back
    omega
  by_contra not_later
  have early := truncate_le_of_le (not_lt.mp not_later)
  omega

/-- A zone whose clocks are never changed. -/
def utc : Zone where
  localDay t := t / 86400
  mktime day hour := day * 86400 + hour * 3600
  steady s t before := Int.ediv_le_ediv (by decide) before
  sets day hour low high := by omega

/-- The last of January 2023, three in the morning. -/
def lastRun : ℚ := 1675134000

/-- A schedule for the fifth of each month at four. -/
def fifthOfMonth : Json :=
  .obj [("backup", .obj
    [("schedule", .str "monthly"), ("hour", .num 4), ("monthday", .num 5)])]

theorem nextDue_isLeast_fifth :
    IsLeast {t | IsSlot utc fifthOfMonth t ∧ countedFrom lastRun lastRun < t}
      (nextDue utc fifthOfMonth 1 lastRun lastRun) := by
  have monthly : scheduleOf fifthOfMonth = "monthly" := by decide
  have fifth : monthdayOf fifthOfMonth = 5 := by decide
  refine nextDue_isLeast utc lastRun lastRun (Or.inr (Or.inr ⟨monthly, ?_, ?_⟩)) Nat.one_pos
  · rw [fifth]
    decide
  · rw [fifth]
    decide

/-- A schedule for the last day of the long months. -/
def monthEnd : Json :=
  .obj [("backup", .obj
    [("schedule", .str "monthly"), ("hour", .num 3), ("monthday", .num 31)])]

/-- After a backup on the last of January, the last of March is a slot that is not found. -/
theorem nextDue_past_horizon :
    ¬IsLeast {t | IsSlot utc monthEnd t ∧ countedFrom lastRun lastRun < t}
        (nextDue utc monthEnd 1 lastRun lastRun) ∧
      IsSlot utc monthEnd 1680231600 ∧ countedFrom lastRun lastRun < (1680231600 : ℤ) := by
  have nothing : nextDue utc monthEnd 1 lastRun lastRun = 0 := by decide
  have since : countedFrom lastRun lastRun = lastRun := by decide
  refine ⟨?_, ⟨19447, by decide, by decide⟩, by decide⟩
  rw [nothing, since]
  rintro ⟨⟨_, later⟩, _⟩
  exact absurd later (by decide)

end PiFire.Backup
