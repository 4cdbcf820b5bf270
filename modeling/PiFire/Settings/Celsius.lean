import PiFire.Settings.Convert
import PiFire.Settings.Document

/-!
# What the grill cooks by, through a change of units

The control loop reads every temperature from the settings in their units and
works in Celsius. A change of units should leave what it reads where it was, up
to the rounding. It does for the two lists that are converted; a temperature
outside them keeps its number, and the number means something else.
-/

namespace PiFire.Settings

open Item

/-! ## The configuration handed to a controller -/

/-- The configuration a controller parses: its settings, the units, and whether
the grill learns. -/
def handedConfig (id : String) (u : Units) (learning : Bool) (root : Item) : Item :=
  let cfg := (root.path? ["controller", "config", id]).getD (.node .obj [])
  let marked := cfg.addItem "_units" (text (unitsName u))
  ofJson (((marked.deleteItem "auto_tune").addItem "auto_tune" (truth learning)).print)

/-- A number in a controller's configuration. -/
def pidCfgNum (c : Item) (key : String) (dflt : ℚ) : ℚ :=
  match (c.getItem? key).map kind with
  | some (.num x) => x
  | _ => dflt

/-- The units of a controller's configuration. -/
def pidCfgUnits (c : Item) : Units :=
  match (c.getItem? "_units").map kind with
  | some (.str name) => unitsOf name
  | _ => .f

/-- The controllers that are built in, with the proportional band each takes
when none is set. -/
def builtinControllers : List (String × ℚ) := [("pid", 60), ("adaptive", 80)]

/-- The proportional band a controller works with, in Celsius degrees. -/
def bandC (controller : String × ℚ) (u : Units) (learning : Bool) (root : Item) : ℚ :=
  let c := handedConfig controller.1 u learning root
  deltaToC (pidCfgNum c "PB" controller.2) (pidCfgUnits c)

/-- Children that differ at most in what stands under the units. -/
def SameButUnits (one other : Child) : Prop :=
  one = other ∨ (one.1 = some "_units" ∧ other.1 = some "_units")

theorem SameButUnits.name {one other : Child} (same : SameButUnits one other) :
    one.1 = other.1 := by
  rcases same with rfl | ⟨left, right⟩
  · rfl
  · rw [left, right]

theorem deleteAnyCase_sameButUnits (name : String) {some_ others : List Child}
    (same : List.Forall₂ SameButUnits some_ others) :
    List.Forall₂ SameButUnits (deleteAnyCase name some_) (deleteAnyCase name others) := by
  induction same with
  | nil => exact .nil
  | @cons one other rest more here later ih =>
      have names := here.name
      rcases one with ⟨_ | given, item⟩ <;> rcases other with ⟨_ | otherGiven, otherItem⟩
      · exact .cons here ih
      · cases names
      · cases names
      · cases names
        simp only [deleteAnyCase]
        split_ifs
        · exact later
        · exact .cons here ih

theorem findExact_print_sameButUnits {key : String} (other : key ≠ "_units")
    {some_ others : List Child} (same : List.Forall₂ SameButUnits some_ others) :
    findExact key (ofMembers (printMembers some_)) =
      findExact key (ofMembers (printMembers others)) := by
  induction same with
  | nil => rfl
  | cons here later ih =>
      rcases here with rfl | ⟨left, right⟩
      · simp only [printMembers, ofMembers, findExact, ih]
      · simp only [printMembers, ofMembers, findExact, left, right, Option.getD_some,
          if_neg (Ne.symm other), ih]

theorem ofItems_head (items : List Json) (key : String) : findExact key (ofItems items) = none := by
  cases items <;> rfl

theorem getItem?_handedConfig {key : String} (other : key ≠ "_units") (id : String)
    (u v : Units) (learning : Bool) (root : Item) :
    (handedConfig id u learning root).getItem? key =
      (handedConfig id v learning root).getItem? key := by
  unfold handedConfig
  generalize (root.path? ["controller", "config", id]).getD (.node .obj []) = cfg
  rcases cfg with ⟨kind, children⟩
  have refl (list : List Child) : List.Forall₂ SameButUnits list list :=
    List.forall₂_same.mpr fun entry _ => Or.inl rfl
  have marked : List.Forall₂ SameButUnits (children ++ [(some "_units", text (unitsName u))])
      (children ++ [(some "_units", text (unitsName v))]) :=
    List.rel_append (refl children) (.cons (Or.inr ⟨rfl, rfl⟩) .nil)
  have whole := List.rel_append (deleteAnyCase_sameButUnits "auto_tune" marked)
    (refl [(some "auto_tune", truth learning)])
  cases kind with
  | obj => exact findExact_print_sameButUnits other whole
  | arr =>
      simp only [addItem, append, deleteItem, kind_node, child_node, print, ofJson, getItem?,
        ofItems_head]
  | null | bool b | num x | str s => rfl

theorem pidCfgNum_handedConfig (id : String) (u v : Units) (learning : Bool) (root : Item)
    (dflt : ℚ) :
    pidCfgNum (handedConfig id u learning root) "PB" dflt =
      pidCfgNum (handedConfig id v learning root) "PB" dflt := by
  rw [pidCfgNum, getItem?_handedConfig (by decide) id u v learning root, pidCfgNum]

theorem handedConfig_inUnits {controller : String × ℚ} (builtin : controller ∈ builtinControllers)
    (u v : Units) (learning : Bool) (root : Item) :
    handedConfig controller.1 v learning (root.inUnits u) =
      handedConfig controller.1 v learning root := by
  have apart : ∀ controller ∈ builtinControllers,
      parts ["controller", "config", controller.1] unitsPath ∧
        (∀ other ∈ tempPaths, parts ["controller", "config", controller.1] other) ∧
        ∀ other ∈ deltaPaths, parts ["controller", "config", controller.1] other := by
    decide
  rcases apart controller builtin with ⟨elsewhere, notTemp, notDelta⟩
  simp only [handedConfig, path?_inUnits_other elsewhere notTemp notDelta]

/-! ## The same heat -/

/-- What rounding to whole degrees of these units may take off, in Celsius. -/
def tolerance : Units → ℚ
  | .c => 1 / 2
  | .f => 5 / 18

/-- Two Celsius values no further apart than the rounding. -/
def Close (u : Units) (x y : ℚ) : Prop := |x - y| ≤ tolerance u

/-- The temperatures of two configurations agree up to the rounding. -/
structure CfgClose (u : Units) (before after : Cfg) : Prop where
  maxTemp : Close u after.maxTempC before.maxTempC
  minTarget : Close u after.minTargetC before.minTargetC
  maxTarget : Close u after.maxTargetC before.maxTargetC
  smokeMin : Close u after.smokeMinC before.smokeMinC
  restartHot : Close u after.restartHotC before.restartHotC
  afterStartup : Close u after.afterStartupSetpointC before.afterStartupSetpointC
  splusMax : Close u after.splusMaxC before.splusMaxC
  keepwarm : Close u after.keepwarmC before.keepwarmC
  relightDrop : Close u after.relightDropC before.relightDropC
  proveRise : Close u after.ssProveRiseC before.ssProveRiseC
  exitRise : Close u after.ssExitRiseC before.ssExitRiseC
  lidResumeRise : Close u after.lidResumeRiseC before.lidResumeRiseC
  ssRanges : List.Forall₂ (Close u) after.ssRangesC before.ssRangesC
  pwmRanges : List.Forall₂ (Close u) after.pwmRangesC before.pwmRangesC

/-- A change of units after which the grill cooks as before: the control loop
reads the same temperatures, and the controllers work with the same bands. -/
structure CooksTheSame (u : Units) (root : Item) : Prop where
  cfg : ∀ before : StartupProfile,
    CfgClose u (loadCfg before root.toJson) (loadCfg before (root.inUnits u).toJson)
  bands : ∀ controller ∈ builtinControllers, ∀ learning : Bool,
    Close u (bandC controller (rootUnits (root.inUnits u)) learning (root.inUnits u))
      (bandC controller (rootUnits root) learning root)

/-- A converted value that dropping the fraction rounds to the nearest: one that
adding the half does not leave negative, or one that lies halfway. -/
def RoundsToNearest (y : ℚ) : Prop := 0 ≤ y + 1 / 2 ∨ ∃ n : ℤ, y + 1 / 2 = n

theorem abs_roundOff_sub_iff (y : ℚ) : |roundOff y - y| ≤ 1 / 2 ↔ RoundsToNearest y := by
  by_cases nonneg : 0 ≤ y + 1 / 2
  · constructor
    · intro _
      exact Or.inl nonneg
    · intro _
      exact abs_roundOff_sub_le nonneg
  · have negative : y + 1 / 2 < 0 := not_le.mp nonneg
    have up : roundOff y = ⌈y + 1 / 2⌉ := by rw [roundOff, truncate, if_pos negative]
    have above := Int.le_ceil (y + 1 / 2)
    constructor
    · intro close
      right
      refine ⟨⌈y + 1 / 2⌉, ?_⟩
      rw [up, abs_le] at close
      linarith [close.2]
    · rintro (positive | ⟨n, whole⟩)
      · exact absurd positive nonneg
      · rw [up, whole, Int.ceil_intCast, abs_le, ← whole]
        constructor <;> linarith

theorem close_temp_iff {u v : Units} (changes : v ≠ u) (x : ℚ) :
    Close u (toC (roundOff (convertTemp u x)) u) (toC x v) ↔ RoundsToNearest (convertTemp u x) := by
  rw [← abs_roundOff_sub_iff, eq_other_of_ne changes, Close, abs_le, abs_le]
  cases u with
  | c => simp only [otherUnits, convertTemp, toC, tolerance]
  | f =>
      simp only [otherUnits, convertTemp, toC, fromC, tolerance]
      constructor
      all_goals
        rintro ⟨low, high⟩
        constructor <;> linarith

theorem close_delta_iff {u v : Units} (changes : v ≠ u) (x : ℚ) :
    Close u (deltaToC (roundOff (convertDelta u x)) u) (deltaToC x v) ↔
      RoundsToNearest (convertDelta u x) := by
  rw [← abs_roundOff_sub_iff, eq_other_of_ne changes, Close, abs_le, abs_le]
  cases u with
  | c => simp only [otherUnits, convertDelta, deltaToC, tolerance]
  | f =>
      simp only [otherUnits, convertDelta, deltaToC, tolerance]
      constructor
      all_goals
        rintro ⟨low, high⟩
        constructor <;> linarith

/-- A number so small that it means nearly the same difference in both units. -/
def Small (u : Units) (d : ℚ) : Prop := |d| ≤ 9 / 4 * tolerance u

theorem close_kept_delta_iff {u v w : Units} (changes : v ≠ w) (d : ℚ) :
    Close u (deltaToC d w) (deltaToC d v) ↔ Small u d := by
  rw [Close, Small, abs_le, abs_le]
  cases v <;> cases w <;> first
    | exact absurd rfl changes
    | (simp only [deltaToC]
       constructor
       all_goals
         rintro ⟨low, high⟩
         constructor <;> linarith)

/-- A temperature that keeps its number is where it was exactly when it is near
forty below, where the scales meet. -/
theorem close_kept_temp_iff {u v w : Units} (changes : v ≠ w) (x : ℚ) :
    Close u (toC x w) (toC x v) ↔ Small u (x + 40) := by
  rw [Close, Small, abs_le, abs_le]
  cases v <;> cases w <;> first
    | exact absurd rfl changes
    | (simp only [toC]
       constructor
       all_goals
         rintro ⟨low, high⟩
         constructor <;> linarith)


/-! ## Where a change of units is felt -/

/-- The temperatures of the configuration, with the numbers taken for them when
they are missing. -/
def readTemps : List (List String × ℚ) :=
  [(["safety", "maxtemp"], 650), (["safety", "min_target"], 160), (["safety", "max_target"], 550),
    (["safety", "smoke_min"], 180), (["safety", "restart_hot_temp"], 150),
    (["startup", "start_to_mode", "primary_setpoint"], 165), (["smoke_plus", "max_temp"], 220),
    (["keep_warm", "temp"], 165)]

/-- A listed temperature stays where it was: a number is converted and rounded
to the nearest degree, anything else counts for the same number in both units. -/
def TempKept (u : Units) (root : Item) (path : List String) (dflt : ℚ) : Prop :=
  match (root.path? path).map kind with
  | some (.num x) => RoundsToNearest (convertTemp u x)
  | _ => Small u (root.num path dflt + 40)

/-- A listed difference stays where it was. -/
def DeltaKept (u : Units) (root : Item) (path : List String) (dflt : ℚ) : Prop :=
  match (root.path? path).map kind with
  | some (.num x) => RoundsToNearest (convertDelta u x)
  | _ => Small u (root.num path dflt)

/-- The number a listed difference counts for after the change. -/
def deltaAfter (u : Units) (root : Item) (path : List String) (dflt : ℚ) : ℚ :=
  match (root.path? path).map kind with
  | some (.num x) => roundOff (convertDelta u x)
  | _ => root.num path dflt

/-- The rise that proves ignition. -/
def provePath : List String := ["startup", "smartstart", "prove_rise"]

/-- The rise that ends startup. -/
def exitPath : List String := ["startup", "smartstart", "exit_rise"]

/-- What a change of units has to meet to leave the cooking as it was. -/
structure CookingKept (u : Units) (root : Item) : Prop where
  temps : ∀ entry ∈ readTemps, TempKept u root entry.1 entry.2
  relightDrop : DeltaKept u root ["safety", "relight_drop"] 20
  /-- The rise that proves ignition is not rounded to nothing. -/
  prove : 0 < deltaAfter u root provePath 3 ∧ DeltaKept u root provePath 3
  /-- The rise that ends startup stays above it, or what stands in for it then
  is where it was. -/
  exit : deltaAfter u root provePath 3 < deltaAfter u root exitPath 12 ∧
      DeltaKept u root exitPath 12 ∨
    deltaAfter u root exitPath 12 ≤ deltaAfter u root provePath 3 ∧
      Close u (deltaToC (deltaAfter u root provePath 3) u + deltaToC 9 .f)
        (deltaToC (root.num exitPath 12) (rootUnits root))
  /-- The rise that says the lid is closed is in no list. -/
  lidResumeRise : Small u (root.num ["cycle_data", "LidOpenResumeRise"] 10)
  /-- The Smart Start ranges are in no list. -/
  ssRanges : ∀ x ∈ root.rangeNumbers ["startup", "smartstart", "temp_range_list"],
    Small u (x + 40)
  /-- The fan ranges are in no list. -/
  pwmRanges : ∀ x ∈ root.rangeNumbers ["pwm", "temp_range_list"], Small u x
  /-- A controller's band is in no list; it keeps its meaning where the
  controller's own settings name the units. -/
  bands : ∀ controller ∈ builtinControllers, ∀ learning : Bool,
    pidCfgUnits (handedConfig controller.1 .c learning root) =
        pidCfgUnits (handedConfig controller.1 .f learning root) ∨
      Small u (pidCfgNum (handedConfig controller.1 u learning root) "PB" controller.2)

theorem kept_of_notNumber {root after : Item} {path : List String} {fn : ℚ → ℚ}
    (notNumber : ∀ x, ¬NumberAt root path x)
    (same : after.path? path = (root.path? path).map (convertNumber fn)) (dflt : ℚ) :
    after.num path dflt = root.num path dflt := by
  have kept := num?_map_convertNumber notNumber same
  simp only [Item.num, Item.num?, kept]

section

variable {u : Units} {root : Item} {path : List String}

theorem tempKept_of_number {x : ℚ} (there : NumberAt root path x) (dflt : ℚ) :
    TempKept u root path dflt ↔ RoundsToNearest (convertTemp u x) := by
  unfold TempKept
  rw [show (root.path? path).map kind = some (.num x) from there]

theorem tempKept_of_notNumber (notNumber : ∀ x, ¬NumberAt root path x) (dflt : ℚ) :
    TempKept u root path dflt ↔ Small u (root.num path dflt + 40) := by
  unfold TempKept
  split
  · next x there => exact absurd there (notNumber x)
  · rfl

theorem deltaKept_of_number {x : ℚ} (there : NumberAt root path x) (dflt : ℚ) :
    DeltaKept u root path dflt ↔ RoundsToNearest (convertDelta u x) := by
  unfold DeltaKept
  rw [show (root.path? path).map kind = some (.num x) from there]

theorem deltaKept_of_notNumber (notNumber : ∀ x, ¬NumberAt root path x) (dflt : ℚ) :
    DeltaKept u root path dflt ↔ Small u (root.num path dflt) := by
  unfold DeltaKept
  split
  · next x there => exact absurd there (notNumber x)
  · rfl

theorem deltaAfter_of_number {x : ℚ} (there : NumberAt root path x) (dflt : ℚ) :
    deltaAfter u root path dflt = roundOff (convertDelta u x) := by
  unfold deltaAfter
  rw [show (root.path? path).map kind = some (.num x) from there]

theorem deltaAfter_of_notNumber (notNumber : ∀ x, ¬NumberAt root path x) (dflt : ℚ) :
    deltaAfter u root path dflt = root.num path dflt := by
  unfold deltaAfter
  split
  · next x there => exact absurd there (notNumber x)
  · rfl

variable (changes : rootUnits root ≠ u)

include changes

theorem close_temp (listed : path ∈ tempPaths) (dflt : ℚ) :
    Close u (toC ((root.inUnits u).num path dflt) u) (toC (root.num path dflt) (rootUnits root)) ↔
      TempKept u root path dflt := by
  by_cases number : ∃ x, NumberAt root path x
  · rcases number with ⟨x, there⟩
    rw [(there.temp changes listed).num, there.num, tempKept_of_number there,
      close_temp_iff changes]
  · push Not at number
    rw [kept_of_notNumber number (path?_inUnits_temp changes listed),
      tempKept_of_notNumber number, close_kept_temp_iff changes]

theorem num_inUnits_delta (listed : path ∈ deltaPaths) (dflt : ℚ) :
    (root.inUnits u).num path dflt = deltaAfter u root path dflt := by
  by_cases number : ∃ x, NumberAt root path x
  · rcases number with ⟨x, there⟩
    rw [(there.delta changes listed).num, deltaAfter_of_number there]
  · push Not at number
    rw [kept_of_notNumber number (path?_inUnits_delta changes listed),
      deltaAfter_of_notNumber number]

theorem close_deltaAfter (dflt : ℚ) :
    Close u (deltaToC (deltaAfter u root path dflt) u)
        (deltaToC (root.num path dflt) (rootUnits root)) ↔
      DeltaKept u root path dflt := by
  by_cases number : ∃ x, NumberAt root path x
  · rcases number with ⟨x, there⟩
    rw [deltaAfter_of_number there, there.num, deltaKept_of_number there, close_delta_iff changes]
  · push Not at number
    rw [deltaAfter_of_notNumber number, deltaKept_of_notNumber number,
      close_kept_delta_iff changes]

/-! ### The rises of ignition -/

/-- A rise that ignition is proved by is where it was exactly when it is not
rounded to nothing and is itself where it was: three degrees in its place are
too far off. -/
theorem close_prove (positive : 0 < root.num provePath 3) :
    Close u (proveRise (deltaToC (deltaAfter u root provePath 3) u))
        (proveRise (deltaToC (root.num provePath 3) (rootUnits root))) ↔
      0 < deltaAfter u root provePath 3 ∧ DeltaKept u root provePath 3 := by
  have before : 0 < deltaToC (root.num provePath 3) (rootUnits root) := by
    cases rootUnits root <;> simp only [deltaToC] <;> linarith
  rw [show proveRise (deltaToC (root.num provePath 3) (rootUnits root)) =
    deltaToC (root.num provePath 3) (rootUnits root) from if_neg (not_not.mpr before)]
  by_cases survives : 0 < deltaAfter u root provePath 3
  · have after : 0 < deltaToC (deltaAfter u root provePath 3) u := by
      cases u <;> simp only [deltaToC] <;> linarith
    rw [proveRise, if_neg (not_not.mpr after), close_deltaAfter changes]
    exact (and_iff_right survives).symm
  · have gone : ¬0 < deltaToC (deltaAfter u root provePath 3) u := by
      cases u <;> simp only [deltaToC] <;> linarith
    rw [proveRise, if_pos gone]
    constructor
    · intro close
      by_cases number : ∃ x, NumberAt root provePath x
      · rcases number with ⟨x, there⟩
        rw [deltaAfter_of_number there] at survives
        rw [there.num] at close positive
        rw [eq_other_of_ne changes, Close, abs_le] at close
        -- a rise rounded to nothing is under half a degree
        have nonneg : 0 ≤ convertDelta u x + 1 / 2 := by
          cases u <;> simp only [convertDelta, deltaToC] <;> linarith
        have under : convertDelta u x + 1 / 2 < 1 := by
          by_contra isOver
          have kept := @le_roundOff _ nonneg 1 (by push_cast; linarith)
          push_cast at kept
          linarith
        cases u <;> simp only [otherUnits, deltaToC, convertDelta, tolerance] at close under <;>
          linarith [close.2]
      · push Not at number
        rw [deltaAfter_of_notNumber number] at survives
        exact absurd positive survives
    · rintro ⟨survives', _⟩
      exact absurd survives' survives

/-- The rise that ends startup is where it was exactly when it stays above the
other one and is itself where it was, or the stand-in for it is. -/
theorem close_exit (positive : 0 < root.num provePath 3)
    (ordered : root.num provePath 3 < root.num exitPath 12)
    (survives : 0 < deltaAfter u root provePath 3) :
    Close u
        (exitRise (proveRise (deltaToC (deltaAfter u root provePath 3) u))
          (deltaToC (deltaAfter u root exitPath 12) u))
        (exitRise (proveRise (deltaToC (root.num provePath 3) (rootUnits root)))
          (deltaToC (root.num exitPath 12) (rootUnits root))) ↔
      (deltaAfter u root provePath 3 < deltaAfter u root exitPath 12 ∧
          DeltaKept u root exitPath 12 ∨
        deltaAfter u root exitPath 12 ≤ deltaAfter u root provePath 3 ∧
          Close u (deltaToC (deltaAfter u root provePath 3) u + deltaToC 9 .f)
            (deltaToC (root.num exitPath 12) (rootUnits root))) := by
  have monotone (v : Units) {x y : ℚ} (less : x < y) : deltaToC x v < deltaToC y v := by
    cases v <;> simp only [deltaToC] <;> linarith
  have weakly (v : Units) {x y : ℚ} (less : x ≤ y) : deltaToC x v ≤ deltaToC y v := by
    cases v <;> simp only [deltaToC] <;> linarith
  have zero (v : Units) : deltaToC 0 v = 0 := by
    cases v <;> simp [deltaToC]
  have before : 0 < deltaToC (root.num provePath 3) (rootUnits root) := by
    have above := monotone (rootUnits root) positive
    rwa [zero] at above
  have after : 0 < deltaToC (deltaAfter u root provePath 3) u := by
    have above := monotone u survives
    rwa [zero] at above
  rw [proveRise, if_neg (not_not.mpr after), proveRise, if_neg (not_not.mpr before)]
  have kept : exitRise (deltaToC (root.num provePath 3) (rootUnits root))
      (deltaToC (root.num exitPath 12) (rootUnits root)) =
      deltaToC (root.num exitPath 12) (rootUnits root) :=
    if_neg (not_not.mpr (monotone _ ordered))
  rw [kept]
  by_cases above : deltaAfter u root provePath 3 < deltaAfter u root exitPath 12
  · rw [exitRise, if_neg (not_not.mpr (monotone u above)), close_deltaAfter changes]
    constructor
    · intro close
      exact Or.inl ⟨above, close⟩
    · rintro (⟨_, close⟩ | ⟨under, _⟩)
      · exact close
      · exact absurd above (not_lt.mpr under)
  · have under := not_lt.mp above
    rw [exitRise, if_pos (not_lt.mpr (weakly u under))]
    constructor
    · intro close
      exact Or.inr ⟨under, close⟩
    · rintro (⟨isOver, _⟩ | ⟨_, close⟩)
      · exact absurd isOver above
      · exact close

end

/-! ### The configuration as a whole -/

/-- A valid tree that has a rise for ignition has it above nothing, and under
the one that ends startup. -/
theorem rises_of_valid {root : Item} (valid : Valid root) {x : ℚ}
    (there : root.num? provePath = some x) :
    0 < root.num provePath 3 ∧ root.num provePath 3 < root.num exitPath 12 := by
  have holds := (valid_iff _).mp valid
  have prove := holds (.limit .proveRise)
  have exit := holds (.limit .exitRise)
  simp only [Check.holds, Readings.within, decide_eq_true_eq] at prove exit
  have proveRead : (readings root).limit .proveRise = root.num provePath 3 := by
    show root.num provePath _ = _
    rw [Item.num, Item.num, there]
    rfl
  rw [proveRead] at prove exit
  refine ⟨prove.1, ?_⟩
  have exitRead : (readings root).limit .exitRise =
      root.num exitPath (Limit.missing ((readings root).units = "C") .exitRise) := rfl
  cases given : root.num? exitPath with
  | some y =>
      rw [exitRead, Item.num, given] at exit
      rw [show root.num exitPath 12 = y by rw [Item.num, given]; rfl]
      exact exit.1
  | none =>
      rw [exitRead, Item.num, given] at exit
      rw [show root.num exitPath 12 = 12 by rw [Item.num, given]; rfl]
      refine lt_of_lt_of_le exit.1 ?_
      simp only [Limit.missing, Limit.shipped, Option.getD_none]
      split_ifs <;> norm_num

theorem not_deltaKept_missing {u : Units} {root : Item} (missing : root.num? provePath = none) :
    ¬DeltaKept u root provePath 3 := by
  have notNumber (x : ℚ) : ¬NumberAt root provePath x := by
    intro there
    rw [there.num?] at missing
    cases missing
  rw [deltaKept_of_notNumber notNumber, Item.num, missing, Option.getD_none, Small]
  cases u <;> norm_num [tolerance]

theorem cfgClose_iff {u : Units} {before : StartupProfile} {after now : Json} :
    CfgClose u (loadCfg before now) (loadCfg before after) ↔
      (∀ entry ∈ readTemps, Close u (toC (jsonNum after entry.1 entry.2) (settingsUnits after))
        (toC (jsonNum now entry.1 entry.2) (settingsUnits now))) ∧
      Close u (loadCfg before after).relightDropC (loadCfg before now).relightDropC ∧
      (Close u (loadCfg before after).ssProveRiseC (loadCfg before now).ssProveRiseC ∧
        Close u (loadCfg before after).ssExitRiseC (loadCfg before now).ssExitRiseC) ∧
      Close u (loadCfg before after).lidResumeRiseC (loadCfg before now).lidResumeRiseC ∧
      List.Forall₂ (Close u) (loadCfg before after).ssRangesC (loadCfg before now).ssRangesC ∧
      List.Forall₂ (Close u) (loadCfg before after).pwmRangesC (loadCfg before now).pwmRangesC := by
  constructor
  · intro close
    refine ⟨?_, close.relightDrop, ⟨close.proveRise, close.exitRise⟩, close.lidResumeRise,
      close.ssRanges, close.pwmRanges⟩
    intro entry member
    simp only [readTemps, List.mem_cons, List.not_mem_nil, or_false] at member
    rcases member with rfl | rfl | rfl | rfl | rfl | rfl | rfl | rfl
    · exact close.maxTemp
    · exact close.minTarget
    · exact close.maxTarget
    · exact close.smokeMin
    · exact close.restartHot
    · exact close.afterStartup
    · exact close.splusMax
    · exact close.keepwarm
  · rintro ⟨temps, relightDrop, ⟨proveRise, exitRise⟩, lidResumeRise, ssRanges, pwmRanges⟩
    simp only [readTemps, List.mem_cons, List.not_mem_nil, or_false, forall_eq_or_imp,
      forall_eq] at temps
    rcases temps with ⟨maxTemp, minTarget, maxTarget, smokeMin, restartHot, afterStartup, splusMax,
      keepwarm⟩
    constructor
    · exact maxTemp
    · exact minTarget
    · exact maxTarget
    · exact smokeMin
    · exact restartHot
    · exact afterStartup
    · exact splusMax
    · exact keepwarm
    · exact relightDrop
    · exact proveRise
    · exact exitRise
    · exact lidResumeRise
    · exact ssRanges
    · exact pwmRanges

section

variable {u : Units} {root : Item} (changes : rootUnits root ≠ u) (names : NamesUnits root)

include changes

theorem inUnits_shaped (formed : root.shaped = true) : (root.inUnits u).shaped = true := by
  rw [inUnits, if_neg changes, shaped_modifyAt, shaped_convertAll]
  · exact formed
  · intro item
    rcases item with ⟨kind, children⟩
    cases kind <;> rfl

include names

theorem settingsUnits_inUnits (formed : root.shaped = true) :
    settingsUnits (root.inUnits u).toJson = u := by
  rw [settingsUnits_toJson (inUnits_shaped changes formed), rootUnits_inUnits changes names]

theorem ranges_close (formed : root.shaped = true) {path : List String} (plain : path.all plainToken = true)
    (elsewhere : parts path unitsPath) (notTemp : ∀ other ∈ tempPaths, parts path other)
    (notDelta : ∀ other ∈ deltaPaths, parts path other) {convert : ℚ → Units → ℚ}
    {kept : ℚ → Prop}
    (close : ∀ x, Close u (convert x u) (convert x (rootUnits root)) ↔ kept x) :
    List.Forall₂ (Close u)
        (rangeList (root.inUnits u).toJson path
          (convert · (settingsUnits (root.inUnits u).toJson)))
        (rangeList root.toJson path (convert · (settingsUnits root.toJson))) ↔
      ∀ x ∈ root.rangeNumbers path, kept x := by
  rw [rangeList_toJson (inUnits_shaped changes formed) plain, rangeList_toJson formed plain,
    settingsUnits_inUnits changes names formed, settingsUnits_toJson formed]
  have same : (root.inUnits u).rangeNumbers path = root.rangeNumbers path := by
    unfold rangeNumbers
    rw [path?_inUnits_other elsewhere notTemp notDelta]
  rw [same, List.forall₂_map_left_iff, List.forall₂_map_right_iff, List.forall₂_same]
  constructor
  · intro each x member
    exact (close x).mp (each x member)
  · intro each x member
    exact (close x).mpr (each x member)

theorem band_close {controller : String × ℚ} (builtin : controller ∈ builtinControllers)
    (learning : Bool) :
    Close u (bandC controller (rootUnits (root.inUnits u)) learning (root.inUnits u))
        (bandC controller (rootUnits root) learning root) ↔
      (pidCfgUnits (handedConfig controller.1 .c learning root) =
          pidCfgUnits (handedConfig controller.1 .f learning root) ∨
        Small u (pidCfgNum (handedConfig controller.1 u learning root) "PB" controller.2)) := by
  simp only [bandC, rootUnits_inUnits changes names, handedConfig_inUnits builtin]
  rw [pidCfgNum_handedConfig controller.1 (rootUnits root) u learning root]
  generalize pidCfgNum (handedConfig controller.1 u learning root) "PB" controller.2 = band
  by_cases own : pidCfgUnits (handedConfig controller.1 .c learning root) =
      pidCfgUnits (handedConfig controller.1 .f learning root)
  · have same : pidCfgUnits (handedConfig controller.1 u learning root) =
        pidCfgUnits (handedConfig controller.1 (rootUnits root) learning root) := by
      rw [eq_other_of_ne changes]
      cases u
      · exact own.symm
      · exact own
    rw [same, Close, sub_self, abs_zero]
    constructor
    · intro _
      exact Or.inl own
    · intro _
      cases u <;> norm_num [tolerance]
  · have differ : pidCfgUnits (handedConfig controller.1 (rootUnits root) learning root) ≠
        pidCfgUnits (handedConfig controller.1 u learning root) := by
      rw [eq_other_of_ne changes]
      cases u
      · exact own
      · exact Ne.symm own
    rw [close_kept_delta_iff differ]
    exact (or_iff_right own).symm

theorem cfg_temp_close (formed : root.shaped = true) {entry : List String × ℚ}
    (read : entry ∈ readTemps) :
    Close u
        (toC (jsonNum (root.inUnits u).toJson entry.1 entry.2)
          (settingsUnits (root.inUnits u).toJson))
        (toC (jsonNum root.toJson entry.1 entry.2) (settingsUnits root.toJson)) ↔
      TempKept u root entry.1 entry.2 := by
  have listed : ∀ entry ∈ readTemps, entry.1.all plainToken = true ∧ entry.1 ∈ tempPaths := by
    decide
  rcases listed entry read with ⟨plain, member⟩
  rw [settingsUnits_inUnits changes names formed, settingsUnits_toJson formed,
    jsonNum_toJson (inUnits_shaped changes formed) plain, jsonNum_toJson formed plain]
  exact close_temp changes member entry.2

theorem cfg_delta_eq (formed : root.shaped = true) {path : List String} (dflt : ℚ)
    (listed : path ∈ deltaPaths) :
    deltaToC (jsonNum (root.inUnits u).toJson path dflt)
          (settingsUnits (root.inUnits u).toJson) =
        deltaToC (deltaAfter u root path dflt) u ∧
      deltaToC (jsonNum root.toJson path dflt) (settingsUnits root.toJson) =
        deltaToC (root.num path dflt) (rootUnits root) := by
  have plainPaths : ∀ path ∈ deltaPaths, path.all plainToken = true := by decide
  have plain := plainPaths path listed
  rw [settingsUnits_inUnits changes names formed, settingsUnits_toJson formed,
    jsonNum_toJson (inUnits_shaped changes formed) plain, jsonNum_toJson formed plain,
    num_inUnits_delta changes listed]
  exact ⟨rfl, rfl⟩

theorem cfg_lid_close (formed : root.shaped = true) (before : StartupProfile) :
    Close u (loadCfg before (root.inUnits u).toJson).lidResumeRiseC
        (loadCfg before root.toJson).lidResumeRiseC ↔
      Small u (root.num ["cycle_data", "LidOpenResumeRise"] 10) := by
  have plain : ["cycle_data", "LidOpenResumeRise"].all plainToken = true := by decide
  have same : (root.inUnits u).path? ["cycle_data", "LidOpenResumeRise"] =
      root.path? ["cycle_data", "LidOpenResumeRise"] := by
    apply path?_inUnits_other <;> decide
  have read (tree : Json) : (loadCfg before tree).lidResumeRiseC =
      deltaToC (jsonNum tree ["cycle_data", "LidOpenResumeRise"] 10) (settingsUnits tree) := rfl
  rw [read, read, settingsUnits_inUnits changes names formed, settingsUnits_toJson formed,
    jsonNum_toJson (inUnits_shaped changes formed) plain, jsonNum_toJson formed plain, Item.num,
    Item.num?, same]
  exact close_kept_delta_iff changes _

theorem cfg_rises_close (formed : root.shaped = true) (valid : Valid root)
    (before : StartupProfile) :
    (Close u (loadCfg before (root.inUnits u).toJson).ssProveRiseC
          (loadCfg before root.toJson).ssProveRiseC ∧
        Close u (loadCfg before (root.inUnits u).toJson).ssExitRiseC
          (loadCfg before root.toJson).ssExitRiseC) ↔
      (0 < deltaAfter u root provePath 3 ∧ DeltaKept u root provePath 3) ∧
        (deltaAfter u root provePath 3 < deltaAfter u root exitPath 12 ∧
            DeltaKept u root exitPath 12 ∨
          deltaAfter u root exitPath 12 ≤ deltaAfter u root provePath 3 ∧
            Close u (deltaToC (deltaAfter u root provePath 3) u + deltaToC 9 .f)
              (deltaToC (root.num exitPath 12) (rootUnits root))) := by
  rcases cfg_delta_eq changes names formed 3 (show provePath ∈ deltaPaths by decide) with
    ⟨proveAfter, proveBefore⟩
  rcases cfg_delta_eq changes names formed 12 (show exitPath ∈ deltaPaths by decide) with
    ⟨exitAfter, exitBefore⟩
  have prove (tree : Json) : (loadCfg before tree).ssProveRiseC =
      proveRise (deltaToC (jsonNum tree provePath 3) (settingsUnits tree)) := rfl
  have exit (tree : Json) : (loadCfg before tree).ssExitRiseC =
      exitRise (proveRise (deltaToC (jsonNum tree provePath 3) (settingsUnits tree)))
        (deltaToC (jsonNum tree exitPath 12) (settingsUnits tree)) := rfl
  rw [prove, prove, exit, exit, proveAfter, proveBefore, exitAfter, exitBefore]
  cases given : root.num? provePath with
  | some x =>
      rcases rises_of_valid valid given with ⟨positive, ordered⟩
      rw [close_prove changes positive]
      constructor
      · rintro ⟨kept, exitClose⟩
        exact ⟨kept, (close_exit changes positive ordered kept.1).mp exitClose⟩
      · rintro ⟨kept, exitKept⟩
        exact ⟨kept, (close_exit changes positive ordered kept.1).mpr exitKept⟩
  | none =>
      have three : 0 < root.num provePath 3 := by
        rw [Item.num, given]
        norm_num
      have away := @not_deltaKept_missing u root given
      rw [close_prove changes three]
      constructor
      · rintro ⟨kept, _⟩
        exact absurd kept.2 away
      · rintro ⟨kept, _⟩
        exact absurd kept.2 away

theorem cfg_drop_close (formed : root.shaped = true) (before : StartupProfile) :
    Close u (loadCfg before (root.inUnits u).toJson).relightDropC
        (loadCfg before root.toJson).relightDropC ↔
      DeltaKept u root ["safety", "relight_drop"] 20 := by
  have listed : ["safety", "relight_drop"] ∈ deltaPaths := by decide
  rcases cfg_delta_eq changes names formed 20 listed with ⟨after, now⟩
  have read (tree : Json) : (loadCfg before tree).relightDropC =
      deltaToC (jsonNum tree ["safety", "relight_drop"] 20) (settingsUnits tree) := rfl
  rw [read, read, after, now]
  exact close_deltaAfter changes 20

theorem cfg_ranges_close (formed : root.shaped = true) (before : StartupProfile) :
    (List.Forall₂ (Close u) (loadCfg before (root.inUnits u).toJson).ssRangesC
        (loadCfg before root.toJson).ssRangesC ↔
      ∀ x ∈ root.rangeNumbers ["startup", "smartstart", "temp_range_list"], Small u (x + 40)) ∧
    (List.Forall₂ (Close u) (loadCfg before (root.inUnits u).toJson).pwmRangesC
        (loadCfg before root.toJson).pwmRangesC ↔
      ∀ x ∈ root.rangeNumbers ["pwm", "temp_range_list"], Small u x) := by
  have ss (tree : Json) : (loadCfg before tree).ssRangesC =
      rangeList tree ["startup", "smartstart", "temp_range_list"]
        (toC · (settingsUnits tree)) := rfl
  have pwm (tree : Json) : (loadCfg before tree).pwmRangesC =
      rangeList tree ["pwm", "temp_range_list"] (deltaToC · (settingsUnits tree)) := rfl
  rw [ss, ss, pwm, pwm]
  constructor
  · apply ranges_close changes names formed
    · decide
    · decide
    · decide
    · decide
    · intro x
      exact close_kept_temp_iff changes x
  · apply ranges_close changes names formed
    · decide
    · decide
    · decide
    · decide
    · intro x
      exact close_kept_delta_iff changes x

/-- A valid tree means the same heat in either units exactly when what is listed
survives the rounding and what is not listed is small. -/
theorem cooksTheSame_iff (formed : root.shaped = true) (valid : Valid root) :
    CooksTheSame u root ↔ CookingKept u root := by
  constructor
  · rintro ⟨cfg, bands⟩
    rcases cfgClose_iff.mp (cfg ⟨0, 0⟩) with ⟨temps, drop, rises, lid, ss, pwm⟩
    rcases (cfg_rises_close changes names formed valid ⟨0, 0⟩).mp rises with ⟨prove, exit⟩
    rcases cfg_ranges_close changes names formed ⟨0, 0⟩ with ⟨ssKept, pwmKept⟩
    constructor
    · intro entry member
      exact (cfg_temp_close changes names formed member).mp (temps entry member)
    · exact (cfg_drop_close changes names formed _).mp drop
    · exact prove
    · exact exit
    · exact (cfg_lid_close changes names formed _).mp lid
    · exact ssKept.mp ss
    · exact pwmKept.mp pwm
    · intro controller builtin learning
      exact (band_close changes names builtin learning).mp (bands controller builtin learning)
  · intro kept
    constructor
    · intro before
      rcases cfg_ranges_close changes names formed before with ⟨ssKept, pwmKept⟩
      refine cfgClose_iff.mpr ⟨?_, ?_, ?_, ?_, ?_, ?_⟩
      · intro entry member
        exact (cfg_temp_close changes names formed member).mpr (kept.temps entry member)
      · exact (cfg_drop_close changes names formed before).mpr kept.relightDrop
      · exact (cfg_rises_close changes names formed valid before).mpr ⟨kept.prove, kept.exit⟩
      · exact (cfg_lid_close changes names formed before).mpr kept.lidResumeRise
      · exact ssKept.mpr kept.ssRanges
      · exact pwmKept.mpr kept.pwmRanges
    · intro controller builtin learning
      exact (band_close changes names builtin learning).mpr (kept.bands controller builtin learning)

end

/-- Settings in Fahrenheit in which nothing unlisted is a temperature, and both
controllers name their units. -/
def benchListed : Item :=
  object
    [("globals", object [("units", text "F")]),
      ("cycle_data", object [("LidOpenResumeRise", number 0)]),
      ("safety", object
        [("maxtemp", number 650), ("min_target", number 160), ("max_target", number 550),
          ("smoke_min", number 180), ("restart_hot_temp", number 150),
          ("relight_drop", number 20)]),
      ("startup", object
        [("start_to_mode", object [("primary_setpoint", number 165)]),
          ("smartstart", object [("prove_rise", number 3), ("exit_rise", number 12)])]),
      ("smoke_plus", object [("max_temp", number 220)]),
      ("keep_warm", object [("temp", number 165)]),
      ("controller", object
        [("config", object
          [("pid", object [("_units", text "F"), ("PB", number 60)]),
            ("adaptive", object [("_units", text "F"), ("PB", number 80)])])])]

/-- The Smart Start ranges as they ship. -/
def benchRanges : Item :=
  object
    [("globals", object [("units", text "F")]),
      ("startup", object
        [("smartstart", object
          [("temp_range_list", array [number 60, number 80, number 90])])])]

theorem cooksTheSame_on_bench : CooksTheSame .c benchListed := by
  apply (@cooksTheSame_iff .c benchListed (by decide) ⟨"F", rfl⟩
    (by decide +kernel) (by decide +kernel)).mpr
  constructor
  · intro entry member
    simp only [readTemps, List.mem_cons, List.not_mem_nil, or_false] at member
    rcases member with rfl | rfl | rfl | rfl | rfl | rfl | rfl | rfl
    all_goals exact Or.inl (by decide +kernel)
  · exact Or.inl (by decide +kernel)
  · exact ⟨by decide +kernel, Or.inl (by decide +kernel)⟩
  · exact Or.inl ⟨by decide +kernel, Or.inl (by decide +kernel)⟩
  · unfold Small
    decide +kernel
  · unfold Small
    decide
  · unfold Small
    decide
  · intro controller builtin learning
    left
    revert controller learning
    decide

/-- The ranges that ship are not converted: 60 °F becomes 60 °C. -/
theorem cooks_not_the_same :
    ¬∀ (u : Units) (root : Item), IsDocument root → Valid root → NamesUnits root →
      rootUnits root ≠ u → CooksTheSame u root := by
  intro same
  have names : NamesUnits benchRanges := ⟨"F", rfl⟩
  have changes : rootUnits benchRanges ≠ .c := by decide
  have cooks := same .c benchRanges ⟨rfl, by decide +kernel⟩ (by decide +kernel) names changes
  have ranges := (cooks.cfg ⟨0, 0⟩).ssRanges
  rw [(cfg_ranges_close changes names (by decide) ⟨0, 0⟩).1] at ranges
  have sixty : ∃ x ∈ benchRanges.rangeNumbers ["startup", "smartstart", "temp_range_list"],
      ¬Small .c (x + 40) := by
    unfold Small
    decide +kernel
  rcases sixty with ⟨x, member, large⟩
  exact large (ranges x member)

end PiFire.Settings
