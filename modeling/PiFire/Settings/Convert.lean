import PiFire.Settings.Agree

/-!
# Validity through a change of units

A change of units rounds every limit on its own, so limits that were in order
may meet. Where rounding keeps them apart, every bound of the other units holds
after the conversion; and a value converted there and back returns to within
one degree Celsius, as long as adding the half makes nothing negative.
-/

namespace PiFire.Settings

open Item

/-! ## Rounding -/

theorem roundOff_of_nonneg {y : ℚ} (nonneg : 0 ≤ y + 1 / 2) : roundOff y = ⌊y + 1 / 2⌋ := by
  rw [roundOff, truncate, if_neg (not_lt.mpr nonneg)]

theorem roundOff_le {y : ℚ} (nonneg : 0 ≤ y + 1 / 2) : roundOff y ≤ y + 1 / 2 := by
  rw [roundOff_of_nonneg nonneg]
  exact Int.floor_le _

theorem lt_roundOff {y : ℚ} (nonneg : 0 ≤ y + 1 / 2) : y - 1 / 2 < roundOff y := by
  rw [roundOff_of_nonneg nonneg]
  have above := Int.lt_floor_add_one (y + 1 / 2)
  linarith

theorem le_roundOff {y : ℚ} (nonneg : 0 ≤ y + 1 / 2) {n : ℤ} (below : (n : ℚ) ≤ y + 1 / 2) :
    (n : ℚ) ≤ roundOff y := by
  rw [roundOff_of_nonneg nonneg]
  exact_mod_cast Int.le_floor.mpr below

theorem roundOff_le_of_lt {y : ℚ} (nonneg : 0 ≤ y + 1 / 2) {n : ℤ}
    (above : y + 1 / 2 < (n : ℚ) + 1) : roundOff y ≤ n := by
  rw [roundOff_of_nonneg nonneg]
  have under : ⌊y + 1 / 2⌋ < n + 1 := Int.floor_lt.mpr (by exact_mod_cast above)
  exact_mod_cast Int.lt_add_one_iff.mp under

theorem abs_roundOff_sub_le {y : ℚ} (nonneg : 0 ≤ y + 1 / 2) : |roundOff y - y| ≤ 1 / 2 := by
  have low := lt_roundOff nonneg
  have high := roundOff_le nonneg
  rw [abs_le]
  constructor <;> linarith

/-! ## Values read after a change of units -/

/-- The number at a path, where the item is one. -/
def NumberAt (root : Item) (path : List String) (x : ℚ) : Prop :=
  (root.path? path).map kind = some (.num x)

theorem NumberAt.num? {root : Item} {path : List String} {x : ℚ} (there : NumberAt root path x) :
    root.num? path = some x := by
  unfold NumberAt at there
  unfold Item.num?
  cases found : root.path? path with
  | none => simp [found] at there
  | some item =>
      rw [found, Option.map_some, Option.some.injEq] at there
      simp [asNum?, there]

theorem NumberAt.num {root : Item} {path : List String} {x : ℚ} (there : NumberAt root path x)
    (dflt : ℚ) : root.num path dflt = x := by
  rw [Item.num, there.num?]
  rfl

theorem numberAt_map_convertNumber {root after : Item} {path : List String} {x : ℚ}
    {fn : ℚ → ℚ} (there : NumberAt root path x)
    (same : after.path? path = (root.path? path).map (convertNumber fn)) :
    NumberAt after path (roundOff (fn x)) := by
  unfold NumberAt at there ⊢
  rw [same]
  cases found : root.path? path with
  | none => simp [found] at there
  | some item =>
      rw [found, Option.map_some, Option.some.injEq] at there
      simp [convertNumber, there]

section

variable {u : Units} {root : Item} (changes : rootUnits root ≠ u)

include changes

theorem NumberAt.temp {path : List String} {x : ℚ} (there : NumberAt root path x)
    (listed : path ∈ tempPaths) :
    NumberAt (root.inUnits u) path (roundOff (convertTemp u x)) :=
  numberAt_map_convertNumber there (path?_inUnits_temp changes listed)

theorem NumberAt.delta {path : List String} {x : ℚ} (there : NumberAt root path x)
    (listed : path ∈ deltaPaths) :
    NumberAt (root.inUnits u) path (roundOff (convertDelta u x)) :=
  numberAt_map_convertNumber there (path?_inUnits_delta changes listed)

theorem rootUnits_inUnits (names : NamesUnits root) : rootUnits (root.inUnits u) = u := by
  rcases names with ⟨name, reached⟩
  have after := path?_inUnits_units (u := u) changes
  rw [reached] at after
  have given : ((root.inUnits u).path? unitsPath).bind asText? = some (unitsName u) := by
    rw [after]
    rfl
  rw [rootUnits, str_eq_of_text given]
  exact unitsOf_unitsName u

theorem NamesUnits.inUnits (names : NamesUnits root) : NamesUnits (root.inUnits u) := by
  rcases names with ⟨name, reached⟩
  refine ⟨unitsName u, ?_⟩
  rw [path?_inUnits_units changes, reached]
  rfl

end

/-! ## The values validation reads after a change of units -/

/-- The limits that are temperatures. -/
def Limit.isTemp : Limit → Bool
  | .maxtemp | .maxTarget | .minTarget | .smokeMin => true
  | _ => false

/-- The limits that are temperature differences. -/
def Limit.isDelta : Limit → Bool
  | .proveRise | .exitRise | .relightDrop => true
  | _ => false

theorem Limit.listed_temp {l : Limit} (temp : l.isTemp) : l.path ∈ tempPaths := by
  cases l <;> simp [Limit.isTemp] at temp <;> decide

theorem Limit.listed_delta {l : Limit} (delta : l.isDelta) : l.path ∈ deltaPaths := by
  cases l <;> simp [Limit.isDelta] at delta <;> decide

/-- Every value that validation compares and a change of units converts is
there as a number. -/
structure Numeric (root : Item) : Prop where
  limit : ∀ l : Limit, l.isTemp ∨ l.isDelta → NumberAt root l.path ((readings root).limit l)
  splus : NumberAt root ["smoke_plus", "max_temp"] (readings root).splusMax

theorem limit_inUnits_other {u : Units} {root : Item} {l : Limit} (temp : l.isTemp = false)
    (delta : l.isDelta = false) :
    (readings (root.inUnits u)).limit l = (readings root).limit l := by
  have apart : ∀ l : Limit, l.isTemp = false → l.isDelta = false →
      parts l.path unitsPath ∧ (∀ other ∈ tempPaths, parts l.path other) ∧
        ∀ other ∈ deltaPaths, parts l.path other := by
    intro l
    cases l <;> decide
  have missing (c : Bool) : l.missing c = l.missing true := by
    cases l <;> simp [Limit.isTemp, Limit.isDelta] at temp delta <;> rfl
  rcases apart l temp delta with ⟨elsewhere, notTemp, notDelta⟩
  have same := @path?_inUnits_other u root _ elsewhere notTemp notDelta
  simp only [readings, Item.num, Item.num?, same]
  rw [missing, missing (decide (root.str ["globals", "units"] "F" = "C"))]

section

variable {u : Units} {root : Item} (changes : rootUnits root ≠ u) (numeric : Numeric root)

include changes numeric

theorem limit_inUnits_temp {l : Limit} (temp : l.isTemp) :
    (readings (root.inUnits u)).limit l =
      roundOff (convertTemp u ((readings root).limit l)) :=
  ((numeric.limit l (Or.inl temp)).temp changes (Limit.listed_temp temp)).num _

theorem limit_inUnits_delta {l : Limit} (delta : l.isDelta) :
    (readings (root.inUnits u)).limit l =
      roundOff (convertDelta u ((readings root).limit l)) :=
  ((numeric.limit l (Or.inr delta)).delta changes (Limit.listed_delta delta)).num _

theorem splusMax_inUnits :
    (readings (root.inUnits u)).splusMax = roundOff (convertTemp u (readings root).splusMax) :=
  (numeric.splus.temp changes (by decide)).num _

end

theorem readings_inUnits_other (u : Units) (root : Item) :
    (readings (root.inUnits u)).uMin = (readings root).uMin ∧
      (readings (root.inUnits u)).uMax = (readings root).uMax ∧
      (readings (root.inUnits u)).holdCycle = (readings root).holdCycle ∧
      (readings (root.inUnits u)).port = (readings root).port ∧
      (readings (root.inUnits u)).sample = (readings root).sample ∧
      (readings (root.inUnits u)).password = (readings root).password := by
  have apart : ∀ path ∈ [["cycle_data", "u_min"], ["cycle_data", "u_max"],
      ["cycle_data", "HoldCycleTime"], ["web", "port"], ["history", "sample_s"],
      ["network", "hotspot_password"]], parts path unitsPath ∧
        (∀ other ∈ tempPaths, parts path other) ∧ ∀ other ∈ deltaPaths, parts path other := by
    decide
  have same : ∀ path ∈ [["cycle_data", "u_min"], ["cycle_data", "u_max"],
      ["cycle_data", "HoldCycleTime"], ["web", "port"], ["history", "sample_s"],
      ["network", "hotspot_password"]], (root.inUnits u).path? path = root.path? path := by
    intro path member
    rcases apart path member with ⟨elsewhere, notTemp, notDelta⟩
    exact path?_inUnits_other elsewhere notTemp notDelta
  simp only [List.mem_cons, List.not_mem_nil, or_false, forall_eq_or_imp, forall_eq] at same
  rcases same with ⟨uMin, uMax, hold, port, sample, password⟩
  simp only [readings, Item.num, Item.num?, Item.int, Item.str, uMin, uMax, hold, port, sample,
    password, and_self]

theorem celsius_readings_inUnits {u : Units} {root : Item} (changes : rootUnits root ≠ u)
    (names : NamesUnits root) :
    (readings (root.inUnits u)).units = unitsName u := by
  rcases names.inUnits changes with ⟨name, reached⟩
  have after := path?_inUnits_units (u := u) changes
  rcases names with ⟨old, before⟩
  rw [before] at after
  have given : ((root.inUnits u).path? unitsPath).bind asText? = some (unitsName u) := by
    rw [after]
    rfl
  exact str_eq_of_text given "F"

theorem within_inUnits_other {u : Units} {root : Item} {l : Limit} (temp : l.isTemp = false)
    (delta : l.isDelta = false) :
    (readings (root.inUnits u)).within l = (readings root).within l := by
  have same := @limit_inUnits_other u root l temp delta
  cases l <;> simp only [Limit.isTemp, Limit.isDelta, Bool.true_eq_false] at temp delta <;>
    simp only [Readings.within, same]

/-! ## Order through rounding -/

/-- Rounding keeps apart what has to be in order: the limits after the
conversion are still in order, the ignition rise is not rounded to nothing, and
the overheat limit is not rounded down to its floor. -/
structure OrderKept (u : Units) (r : Readings) : Prop where
  overheat : (if u = .c then 65 else 150) < roundOff (convertTemp u (r.limit .maxtemp))
  targets : roundOff (convertTemp u (r.limit .minTarget)) <
    roundOff (convertTemp u (r.limit .maxTarget))
  ceiling : roundOff (convertTemp u (r.limit .maxTarget)) <
    roundOff (convertTemp u (r.limit .maxtemp))
  smokePlus : roundOff (convertTemp u (r.limit .minTarget)) <
    roundOff (convertTemp u r.splusMax)
  smoke : roundOff (convertTemp u (r.limit .smokeMin)) <
    roundOff (convertTemp u (r.limit .maxTarget))
  prove : 0 < roundOff (convertDelta u (r.limit .proveRise))
  rises : roundOff (convertDelta u (r.limit .proveRise)) <
    roundOff (convertDelta u (r.limit .exitRise))

theorem celsius_of_valid {root : Item} {u : Units} (valid : Valid root)
    (changes : rootUnits root ≠ u) : (readings root).celsius = decide (u = .f) := by
  have named := valid.unitsNamed
  have same : (readings root).units = root.str unitsPath "F" := rfl
  unfold Readings.celsius
  rw [same]
  rcases named with name | name
  · have units : rootUnits root = .f := by
      rw [rootUnits, name]
      decide
    rw [units] at changes
    cases u
    · exact absurd rfl changes
    · rw [name]
      decide
  · have units : rootUnits root = .c := by
      rw [rootUnits, name]
      decide
    rw [units] at changes
    cases u
    · rw [name]
      decide
    · exact absurd rfl changes

theorem celsius_inUnits {root : Item} {u : Units} (changes : rootUnits root ≠ u)
    (names : NamesUnits root) : (readings (root.inUnits u)).celsius = decide (u = .c) := by
  unfold Readings.celsius
  rw [celsius_readings_inUnits changes names]
  cases u <;> decide

theorem floor_kept {u : Units} {x : ℚ} (isOver : (if u = .f then 38 else 100) ≤ x) :
    (if u = .c then 38 else 100) ≤ roundOff (convertTemp u x) := by
  cases u with
  | f =>
      simp only [if_true] at isOver
      have low : ((100 : ℤ) : ℚ) ≤ fromC x .f + 1 / 2 := by
        simp only [fromC]
        push_cast
        linarith
      have kept := le_roundOff (y := fromC x .f) (by push_cast at low; linarith) low
      simpa [convertTemp] using kept
  | c =>
      simp only [reduceCtorEq, if_false] at isOver
      have low : ((38 : ℤ) : ℚ) ≤ toC x .f + 1 / 2 := by
        simp only [toC]
        push_cast
        linarith
      have kept := le_roundOff (y := toC x .f) (by push_cast at low; linarith) low
      simpa [convertTemp] using kept

theorem ceiling_kept {u : Units} {x : ℚ} (low : 0 ≤ x) (overFreezing : u = .c → 32 ≤ x)
    (under : x ≤ if u = .f then 343 else 650) :
    roundOff (convertTemp u x) ≤ if u = .c then 343 else 650 := by
  cases u with
  | f =>
      simp only [if_true] at under
      have kept := roundOff_le_of_lt (y := fromC x .f) (n := 650)
        (by simp only [fromC]; linarith) (by simp only [fromC]; push_cast; linarith)
      simpa [convertTemp] using kept
  | c =>
      simp only [reduceCtorEq, if_false] at under
      have warm := overFreezing rfl
      have kept := roundOff_le_of_lt (y := toC x .f) (n := 343)
        (by simp only [toC]; linarith) (by simp only [toC]; push_cast; linarith)
      simpa [convertTemp] using kept

theorem delta_ceiling_kept {u : Units} {x : ℚ} {top bottom : ℤ} (nonneg : 0 ≤ x)
    (under : x ≤ if u = .f then (bottom : ℚ) else top)
    (fits : (top : ℚ) * 5 / 9 + 1 / 2 < bottom + 1 ∧ (bottom : ℚ) * 9 / 5 + 1 / 2 < top + 1) :
    roundOff (convertDelta u x) ≤ if u = .c then (bottom : ℚ) else top := by
  cases u with
  | f =>
      simp only [if_true] at under
      have kept := roundOff_le_of_lt (y := x * 9 / 5) (n := top) (by linarith) (by linarith)
      simpa [convertDelta] using kept
  | c =>
      simp only [reduceCtorEq, if_false] at under
      have kept := roundOff_le_of_lt (y := deltaToC x .f) (n := bottom)
        (by simp only [deltaToC]; linarith) (by simp only [deltaToC]; linarith)
      simpa [convertDelta] using kept

theorem drop_floor_kept {u : Units} {x : ℚ} (isOver : (if u = .f then 3 else 5) ≤ x) :
    (if u = .c then 3 else 5) ≤ roundOff (convertDelta u x) := by
  cases u with
  | f =>
      simp only [if_true] at isOver
      have kept := le_roundOff (y := x * 9 / 5) (n := 5) (by linarith) (by push_cast; linarith)
      simpa [convertDelta] using kept
  | c =>
      simp only [reduceCtorEq, if_false] at isOver
      have kept := le_roundOff (y := deltaToC x .f) (n := 3) (by simp only [deltaToC]; linarith)
        (by simp only [deltaToC]; push_cast; linarith)
      simpa [convertDelta] using kept

section

variable {u : Units} {root : Item} (changes : rootUnits root ≠ u) (names : NamesUnits root)
  (numeric : Numeric root)

include changes names numeric

/-- In an accepted tree rounding kept the order. -/
theorem orderKept_of_valid (after : Valid (root.inUnits u)) : OrderKept u (readings root) := by
  have holds := (valid_iff _).mp after
  have celsius := celsius_inUnits changes names
  have overheat := holds (.limit .maxtemp)
  have target := holds (.limit .maxTarget)
  have smokePlus := holds .smokePlus
  have smoke := holds (.limit .smokeMin)
  have prove := holds (.limit .proveRise)
  have exit := holds (.limit .exitRise)
  simp only [Check.holds, Readings.within, celsius, decide_eq_true_eq, gt_iff_lt, ge_iff_le,
    limit_inUnits_temp changes numeric (l := .maxtemp) rfl,
    limit_inUnits_temp changes numeric (l := .maxTarget) rfl,
    limit_inUnits_temp changes numeric (l := .minTarget) rfl,
    limit_inUnits_temp changes numeric (l := .smokeMin) rfl,
    limit_inUnits_delta changes numeric (l := .proveRise) rfl,
    limit_inUnits_delta changes numeric (l := .exitRise) rfl,
    splusMax_inUnits changes numeric] at overheat target smokePlus smoke prove exit
  exact ⟨overheat.1, target.1, target.2, smokePlus, smoke.2, prove.1, exit.1⟩

/-- Where rounding keeps the order of a valid tree, the converted tree passes
every check of the other units. -/
theorem valid_of_orderKept (valid : Valid root) (kept : OrderKept u (readings root)) :
    Valid (root.inUnits u) := by
  have holds := (valid_iff _).mp valid
  have before := celsius_of_valid valid changes
  have celsius := celsius_inUnits changes names
  rcases readings_inUnits_other u root with ⟨uMin, uMax, hold, port, sample, password⟩
  have temp (l : Limit) (temp : l.isTemp) := limit_inUnits_temp changes numeric temp
  have delta (l : Limit) (delta : l.isDelta) := limit_inUnits_delta changes numeric delta
  have splus := splusMax_inUnits changes numeric
  have within (l : Limit) : (readings root).within l = true := holds (.limit l)
  have overheat := holds (.limit .maxtemp)
  have target := holds (.limit .maxTarget)
  have floor := holds (.limit .minTarget)
  have smoke := holds (.limit .smokeMin)
  have prove := holds (.limit .proveRise)
  have exit := holds (.limit .exitRise)
  have drop := holds (.limit .relightDrop)
  simp only [Check.holds, Readings.within, before, decide_eq_true_eq, gt_iff_lt, ge_iff_le]
    at overheat target floor smoke prove exit drop
  rw [valid_iff]
  intro check
  cases check with
  | units =>
      simp only [Check.holds, celsius_readings_inUnits changes names]
      cases u <;> decide
  | fractions =>
      have same := holds .fractions
      simpa only [Check.holds, uMin, uMax] using same
  | holdCycle =>
      have same := holds .holdCycle
      simpa only [Check.holds, hold] using same
  | port =>
      have same := holds .port
      simpa only [Check.holds, port] using same
  | sample =>
      have same := holds .sample
      simpa only [Check.holds, sample] using same
  | password =>
      have same := holds .password
      simpa only [Check.holds, password] using same
  | smokePlus =>
      simp only [Check.holds, splus, temp .minTarget rfl, decide_eq_true_eq]
      exact kept.smokePlus
  | limit l =>
      cases l with
      | maxtemp =>
          simp only [Check.holds, Readings.within, celsius, temp .maxtemp rfl, decide_eq_true_eq]
          refine ⟨kept.overheat, ceiling_kept ?_ ?_ overheat.2⟩
          · cases u <;> simp at overheat <;> linarith
          · intro toCelsius
            subst toCelsius
            simp at overheat
            linarith
      | maxTarget =>
          simp only [Check.holds, Readings.within, temp .maxTarget rfl, temp .minTarget rfl,
            temp .maxtemp rfl, decide_eq_true_eq]
          exact ⟨kept.targets, kept.ceiling⟩
      | minTarget =>
          simp only [Check.holds, Readings.within, celsius, temp .minTarget rfl, decide_eq_true_eq]
          exact floor_kept floor
      | smokeMin =>
          simp only [Check.holds, Readings.within, celsius, temp .smokeMin rfl,
            temp .maxTarget rfl, decide_eq_true_eq]
          exact ⟨floor_kept smoke.1, kept.smoke⟩
      | proveRise =>
          simp only [Check.holds, Readings.within, celsius, delta .proveRise rfl,
            decide_eq_true_eq]
          have top := @delta_ceiling_kept u _ 25 14 prove.1.le
            (by exact_mod_cast prove.2) (by norm_num)
          exact ⟨kept.prove, by exact_mod_cast top⟩
      | exitRise =>
          simp only [Check.holds, Readings.within, celsius, delta .proveRise rfl,
            delta .exitRise rfl, decide_eq_true_eq]
          have top := @delta_ceiling_kept u _ 50 28
            (prove.1.trans exit.1).le (by exact_mod_cast exit.2) (by norm_num)
          exact ⟨kept.rises, by exact_mod_cast top⟩
      | relightDrop =>
          simp only [Check.holds, Readings.within, celsius, delta .relightDrop rfl,
            decide_eq_true_eq]
          have nonneg : 0 ≤ (readings root).limit .relightDrop := by
            cases u <;> simp at drop <;> linarith
          have top := @delta_ceiling_kept u _ 50 28 nonneg
            (by exact_mod_cast drop.2) (by norm_num)
          exact ⟨drop_floor_kept drop.1, by exact_mod_cast top⟩
      | proveS | relightProve | augerMaxOn | igniterMaxOn | reigniteRetries | probeFault
      | powerLossMax | manualOverride =>
          rw [Check.holds, within_inUnits_other]
          · exact within _
          · rfl
          · rfl

end

/-! ## There and back -/

/-- The coarser of the two units of rounding, in the units of the tree: one
degree Celsius. -/
def roundingUnit : Units → ℚ
  | .c => 1
  | .f => 9 / 5

/-- Adding the half makes nothing negative, there and back, so that dropping the
fraction rounds to the nearest. -/
structure RoundsBack (there back : ℚ → ℚ) (x : ℚ) : Prop where
  first : 0 ≤ there x + 1 / 2
  second : 0 ≤ back (roundOff (there x)) + 1 / 2

/-- The other units. -/
def otherUnits : Units → Units
  | .f => .c
  | .c => .f

theorem eq_other_of_ne {u v : Units} (changes : v ≠ u) : v = otherUnits u := by
  cases u <;> cases v <;> first | rfl | exact absurd rfl changes

theorem temp_back {u : Units} {x : ℚ}
    (rounds : RoundsBack (convertTemp u) (convertTemp (otherUnits u)) x) :
    |roundOff (convertTemp (otherUnits u) (roundOff (convertTemp u x))) - x| ≤ roundingUnit (otherUnits u) := by
  have first := abs_le.mp (abs_roundOff_sub_le rounds.first)
  have second := abs_le.mp (abs_roundOff_sub_le rounds.second)
  rw [abs_le]
  cases u <;> simp only [otherUnits, convertTemp, fromC, toC, roundingUnit] at first second ⊢ <;>
    constructor <;> linarith

theorem delta_back {u : Units} {x : ℚ}
    (rounds : RoundsBack (convertDelta u) (convertDelta (otherUnits u)) x) :
    |roundOff (convertDelta (otherUnits u) (roundOff (convertDelta u x))) - x| ≤ roundingUnit (otherUnits u) := by
  have first := abs_le.mp (abs_roundOff_sub_le rounds.first)
  have second := abs_le.mp (abs_roundOff_sub_le rounds.second)
  rw [abs_le]
  cases u <;> simp only [otherUnits, convertDelta, deltaToC, roundingUnit] at first second ⊢ <;>
    constructor <;> linarith

/-- Every listed number of a tree can be converted there and back. -/
structure Convertible (u : Units) (root : Item) : Prop where
  temps : ∀ path ∈ tempPaths, ∀ x, NumberAt root path x →
    RoundsBack (convertTemp u) (convertTemp (otherUnits u)) x
  deltas : ∀ path ∈ deltaPaths, ∀ x, NumberAt root path x →
    RoundsBack (convertDelta u) (convertDelta (otherUnits u)) x

/-- A change of units that keeps the settings valid and can be taken back. -/
structure UnitsKept (u : Units) (root : Item) : Prop where
  valid : Valid (root.inUnits u)
  back : ∀ path ∈ tempPaths ++ deltaPaths, ∀ x, root.num? path = some x →
    ∃ y, ((root.inUnits u).inUnits (rootUnits root)).num? path = some y ∧
      |y - x| ≤ roundingUnit (rootUnits root)

theorem num?_map_convertNumber {root after : Item} {path : List String} {fn : ℚ → ℚ}
    (notNumber : ∀ x, ¬NumberAt root path x)
    (same : after.path? path = (root.path? path).map (convertNumber fn)) :
    after.path? path = root.path? path := by
  rw [same]
  cases found : root.path? path with
  | none => rfl
  | some item =>
      rcases item with ⟨kind, children⟩
      cases kind with
      | num x => exact absurd (by rw [NumberAt, found]; rfl) (notNumber x)
      | null | bool b | str s | arr | obj => rfl

theorem back_of_listed {root once twice : Item} {path : List String} {fn back : ℚ → ℚ}
    {tolerance : ℚ}
    (first : once.path? path = (root.path? path).map (convertNumber fn))
    (second : twice.path? path = (once.path? path).map (convertNumber back))
    (close : ∀ x, NumberAt root path x → |roundOff (back (roundOff (fn x))) - x| ≤ tolerance)
    (nonneg : 0 ≤ tolerance) {x : ℚ} (read : root.num? path = some x) :
    ∃ y, twice.num? path = some y ∧ |y - x| ≤ tolerance := by
  by_cases number : ∃ z, NumberAt root path z
  · rcases number with ⟨z, there⟩
    have same := there.num?
    rw [read] at same
    cases same
    have after := numberAt_map_convertNumber (numberAt_map_convertNumber there first) second
    exact ⟨_, after.num?, close x there⟩
  · push Not at number
    have kept := num?_map_convertNumber number first
    have keptAgain : twice.path? path = once.path? path := by
      apply num?_map_convertNumber _ second
      intro z there
      exact number z (by rwa [NumberAt, kept] at there)
    refine ⟨x, ?_, by simpa using nonneg⟩
    rw [Item.num?, keptAgain, kept]
    exact read

section

variable {u : Units} {root : Item} (changes : rootUnits root ≠ u) (names : NamesUnits root)

include changes names

theorem back_inUnits (convertible : Convertible u root) :
    ∀ path ∈ tempPaths ++ deltaPaths, ∀ x, root.num? path = some x →
      ∃ y, ((root.inUnits u).inUnits (rootUnits root)).num? path = some y ∧
        |y - x| ≤ roundingUnit (rootUnits root) := by
  have nowUnits := rootUnits_inUnits changes names
  have backChanges : rootUnits (root.inUnits u) ≠ rootUnits root := by
    rw [nowUnits]
    exact Ne.symm changes
  have other := eq_other_of_ne changes
  have nonneg : 0 ≤ roundingUnit (rootUnits root) := by
    cases rootUnits root <;> norm_num [roundingUnit]
  intro path listed x read
  rcases List.mem_append.mp listed with temp | delta
  · apply back_of_listed (path?_inUnits_temp changes temp) (path?_inUnits_temp backChanges temp)
      _ nonneg read
    intro z there
    rw [other]
    exact temp_back (convertible.temps path temp z there)
  · apply back_of_listed (path?_inUnits_delta changes delta)
      (path?_inUnits_delta backChanges delta) _ nonneg read
    intro z there
    rw [other]
    exact delta_back (convertible.deltas path delta z there)

/-- A valid tree whose validated temperatures are numbers and whose listed
numbers convert there and back stays valid exactly when rounding keeps the order
of its limits. -/
theorem unitsKept_iff (valid : Valid root) (numeric : Numeric root)
    (convertible : Convertible u root) :
    UnitsKept u root ↔ OrderKept u (readings root) := by
  constructor
  · intro kept
    exact orderKept_of_valid changes names numeric kept.valid
  · intro kept
    exact ⟨valid_of_orderKept changes names numeric valid kept,
      back_inUnits changes names convertible⟩

end

/-- The limits as they ship, in Fahrenheit. -/
def benchShipped : Item :=
  object
    [("globals", object [("units", text "F")]),
      ("safety", object
        [("maxtemp", number 650), ("min_target", number 160), ("max_target", number 550),
          ("smoke_min", number 180), ("relight_drop", number 20)]),
      ("smoke_plus", object [("max_temp", number 220)]),
      ("startup", object
        [("smartstart", object [("prove_rise", number 3), ("exit_rise", number 12)])])]

/-- An overheat limit one degree over the highest set point. -/
def benchOneApart : Item :=
  object
    [("globals", object [("units", text "F")]),
      ("safety", object [("maxtemp", number 551), ("max_target", number 550)])]

/-- Whether the number at a path passes a test, where there is one. -/
def numberPasses (root : Item) (test : ℚ → Bool) (path : List String) : Bool :=
  match (root.path? path).map kind with
  | some (.num x) => test x
  | _ => true

theorem unitsKept_on_bench : UnitsKept .c benchShipped := by
  have temps : (tempPaths.all <| numberPasses benchShipped fun x =>
      decide (0 ≤ convertTemp .c x + 1 / 2 ∧
        0 ≤ convertTemp .f (roundOff (convertTemp .c x)) + 1 / 2)) = true := by
    decide +kernel
  have deltas : (deltaPaths.all <| numberPasses benchShipped fun x =>
      decide (0 ≤ convertDelta .c x + 1 / 2 ∧
        0 ≤ convertDelta .f (roundOff (convertDelta .c x)) + 1 / 2)) = true := by
    decide +kernel
  apply (@unitsKept_iff .c benchShipped (by decide) ⟨"F", rfl⟩
    (by decide +kernel) _ _).mpr
  · constructor <;> decide +kernel
  · constructor
    · intro l listed
      unfold NumberAt
      cases l <;> first
        | exact absurd listed (by decide)
        | decide
    · unfold NumberAt
      decide
  · constructor
    · intro path member x there
      have checked := List.all_eq_true.mp temps path member
      rw [numberPasses, show (benchShipped.path? path).map kind = some (.num x) from there]
        at checked
      exact ⟨(of_decide_eq_true checked).1, (of_decide_eq_true checked).2⟩
    · intro path member x there
      have checked := List.all_eq_true.mp deltas path member
      rw [numberPasses, show (benchShipped.path? path).map kind = some (.num x) from there]
        at checked
      exact ⟨(of_decide_eq_true checked).1, (of_decide_eq_true checked).2⟩

/-- Both limits round to 288 °C, and the highest set point is no longer below
the overheat limit. -/
theorem units_not_kept :
    ¬∀ (u : Units) (root : Item), Valid root → rootUnits root ≠ u → UnitsKept u root := by
  intro kept
  have valid := (kept .c benchOneApart (by decide +kernel) (by decide +kernel)).valid
  exact absurd valid (by decide +kernel)

end PiFire.Settings
