import PiFire.Settings.Item

/-!
# Validation

A tree is accepted when every check passes; the first that fails gives the
error. The checks look only at the values read from the tree, most of them at
one of the safety limits, which have ceilings as well as floors.
-/

namespace PiFire.Settings

/-- The limits that fall back to what ships, in the order of the source's
table. -/
inductive Limit where
  | maxtemp
  | maxTarget
  | minTarget
  | smokeMin
  | augerMaxOn
  | igniterMaxOn
  | reigniteRetries
  | probeFault
  | powerLossMax
  | proveS
  | proveRise
  | exitRise
  | relightDrop
  | relightProve
  | manualOverride
  deriving DecidableEq

namespace Limit

def all : List Limit :=
  [maxtemp, maxTarget, minTarget, smokeMin, augerMaxOn, igniterMaxOn, reigniteRetries, probeFault,
    powerLossMax, proveS, proveRise, exitRise, relightDrop, relightProve, manualOverride]

/-- The group a limit is kept in. -/
def parent : Limit → List String
  | powerLossMax => ["safety", "power_loss"]
  | proveS | proveRise | exitRise => ["startup", "smartstart"]
  | _ => ["safety"]

/-- The member of its group a limit is. -/
def leaf : Limit → String
  | maxtemp => "maxtemp"
  | maxTarget => "max_target"
  | minTarget => "min_target"
  | smokeMin => "smoke_min"
  | augerMaxOn => "auger_max_on_s"
  | igniterMaxOn => "igniter_max_on_s"
  | reigniteRetries => "reigniteretries"
  | probeFault => "probe_fault_s"
  | powerLossMax => "max_s"
  | proveS => "prove_s"
  | proveRise => "prove_rise"
  | exitRise => "exit_rise"
  | relightDrop => "relight_drop"
  | relightProve => "relight_prove_s"
  | manualOverride => "manual_override_time"

/-- The path of a limit in the tree. -/
def path (l : Limit) : List String := l.parent ++ [l.leaf]

/-- The path as the source writes it. -/
def dotted (l : Limit) : String := ".".intercalate l.path

/-- What a limit falls back to. -/
def shipped (celsius : Bool) : Limit → ℚ
  | maxtemp => if celsius then 343 else 650
  | maxTarget => if celsius then 288 else 550
  | minTarget => if celsius then 71 else 160
  | smokeMin => if celsius then 82 else 180
  | augerMaxOn => 60
  | igniterMaxOn => 300
  | reigniteRetries => 1
  | probeFault => 10
  | powerLossMax => 300
  | proveS => 300
  | proveRise => if celsius then 2 else 3
  | exitRise => if celsius then 7 else 12
  | relightDrop => if celsius then 11 else 20
  | relightProve => 180
  | manualOverride => 30

/-- What validation takes a missing limit for: what ships, except that the
overheat limit is in Fahrenheit whatever the units. -/
def missing (celsius : Bool) : Limit → ℚ
  | maxtemp => 650
  | l => l.shipped celsius

end Limit

/-- The values validation looks at. -/
structure Readings where
  units : String
  uMin : ℚ
  uMax : ℚ
  holdCycle : ℚ
  splusMax : ℚ
  port : ℤ
  sample : ℚ
  password : String
  limit : Limit → ℚ

/-- Whether the units are Celsius. -/
def Readings.celsius (r : Readings) : Bool := r.units = "C"

/-- Read the values from a tree. -/
def readings (root : Item) : Readings :=
  let units := root.str ["globals", "units"] "F"
  let c : Bool := units = "C"
  { units := units
    uMin := root.num ["cycle_data", "u_min"] (1 / 10)
    uMax := root.num ["cycle_data", "u_max"] (9 / 10)
    holdCycle := root.num ["cycle_data", "HoldCycleTime"] 25
    splusMax := root.num ["smoke_plus", "max_temp"] (if c then 104 else 220)
    port := root.int ["web", "port"] 80
    sample := root.num ["history", "sample_s"] 3
    password := root.str ["network", "hotspot_password"] "pifire1234"
    limit := fun l => root.num l.path (l.missing c) }

/-- Whether a limit is within its bounds. -/
def Readings.within (r : Readings) : Limit → Bool
  | .maxtemp =>
      r.limit .maxtemp > (if r.celsius then 65 else 150) ∧
        r.limit .maxtemp ≤ (if r.celsius then 343 else 650)
  | .maxTarget =>
      r.limit .maxTarget > r.limit .minTarget ∧ r.limit .maxTarget < r.limit .maxtemp
  | .minTarget => r.limit .minTarget ≥ (if r.celsius then 38 else 100)
  | .smokeMin =>
      r.limit .smokeMin ≥ (if r.celsius then 38 else 100) ∧
        r.limit .smokeMin < r.limit .maxTarget
  | .proveS => 60 ≤ r.limit .proveS ∧ r.limit .proveS ≤ 300
  | .proveRise =>
      0 < r.limit .proveRise ∧ r.limit .proveRise ≤ (if r.celsius then 14 else 25)
  | .exitRise =>
      r.limit .exitRise > r.limit .proveRise ∧
        r.limit .exitRise ≤ (if r.celsius then 28 else 50)
  | .relightDrop =>
      r.limit .relightDrop ≥ (if r.celsius then 3 else 5) ∧
        r.limit .relightDrop ≤ (if r.celsius then 28 else 50)
  | .relightProve => 0 ≤ r.limit .relightProve ∧ r.limit .relightProve ≤ 300
  | .augerMaxOn => 5 ≤ r.limit .augerMaxOn ∧ r.limit .augerMaxOn ≤ 120
  | .igniterMaxOn => 60 ≤ r.limit .igniterMaxOn ∧ r.limit .igniterMaxOn ≤ 300
  | .reigniteRetries => 0 ≤ r.limit .reigniteRetries ∧ r.limit .reigniteRetries ≤ 3
  | .probeFault => 2 ≤ r.limit .probeFault ∧ r.limit .probeFault ≤ 60
  | .powerLossMax => 0 ≤ r.limit .powerLossMax ∧ r.limit .powerLossMax ≤ 900
  | .manualOverride => 5 ≤ r.limit .manualOverride ∧ r.limit .manualOverride ≤ 600

/-- The checks of a tree. -/
inductive Check where
  | units
  | fractions
  | holdCycle
  | limit (l : Limit)
  | smokePlus
  | port
  | sample
  | password
  deriving DecidableEq

namespace Check

/-- The checks in their order. -/
def order : List Check :=
  [units, fractions, holdCycle, limit .maxtemp, limit .maxTarget, limit .minTarget, smokePlus,
    limit .smokeMin, limit .proveS, limit .proveRise, limit .exitRise, limit .relightDrop,
    limit .relightProve, limit .augerMaxOn, limit .igniterMaxOn, limit .reigniteRetries,
    limit .probeFault, limit .powerLossMax, limit .manualOverride, port, sample, password]

/-- Whether the values read pass a check. -/
def holds (r : Readings) : Check → Bool
  | units => r.units = "F" ∨ r.units = "C"
  | fractions => 0 ≤ r.uMin ∧ r.uMin < r.uMax ∧ r.uMax ≤ 1
  | holdCycle => r.holdCycle ≥ 5
  | limit l => r.within l
  | smokePlus => r.splusMax > r.limit .minTarget
  | port => 0 < r.port ∧ r.port < 65536
  | sample => r.sample ≥ 1
  | password => 8 ≤ r.password.length

/-- The error of a check. -/
def message (c : Bool) : Check → String
  | units => "globals.units must be F or C"
  | fractions => "cycle_data.u_min/u_max must satisfy 0 <= u_min < u_max <= 1"
  | holdCycle => "cycle_data.HoldCycleTime must be >= 5 s"
  | limit .maxtemp =>
      "safety.maxtemp must be between " ++ if c then "66 and 343 C" else "151 and 650 F"
  | limit .maxTarget =>
      "safety.max_target must be above the minimum target and below the overheat limit"
  | limit .minTarget => "safety.min_target must be at least " ++ if c then "38 C" else "100 F"
  | smokePlus => "smoke_plus.max_temp must be above the minimum set point"
  | limit .smokeMin =>
      "safety.smoke_min must be at least " ++ (if c then "38 C" else "100 F") ++
        " and below the maximum target"
  | limit .proveS => "startup.smartstart.prove_s must be 60-300 s"
  | limit .proveRise =>
      "startup.smartstart.prove_rise must be above 0 and at most " ++ if c then "14 C" else "25 F"
  | limit .exitRise =>
      "startup.smartstart.exit_rise must be above the ignition rise and at most " ++
        if c then "28 C" else "50 F"
  | limit .relightDrop => "safety.relight_drop must be " ++ if c then "3-28 C" else "5-50 F"
  | limit .relightProve => "safety.relight_prove_s must be 0-300 s"
  | limit .augerMaxOn => "safety.auger_max_on_s must be 5-120 s"
  | limit .igniterMaxOn => "safety.igniter_max_on_s must be 60-300 s"
  | limit .reigniteRetries => "safety.reigniteretries must be 0-3"
  | limit .probeFault => "safety.probe_fault_s must be 2-60 s"
  | limit .powerLossMax => "safety.power_loss.max_s must be 0-900 s"
  | limit .manualOverride => "safety.manual_override_time must be 5-600 s"
  | port => "web.port out of range"
  | sample => "history.sample_s must be >= 1"
  | password => "network.hotspot_password must be at least 8 characters"

end Check

/-- The first check that fails. -/
def Readings.failing (r : Readings) : Option Check := Check.order.find? fun check => !check.holds r

/-- The error of a tree, if it has one. -/
def validate (root : Item) : Option String :=
  let r := readings root
  r.failing.map (Check.message r.celsius)

/-- The tree passes every check. -/
def Valid (root : Item) : Prop := validate root = none

instance (root : Item) : Decidable (Valid root) := inferInstanceAs (Decidable (_ = none))

theorem Check.mem_order (check : Check) : check ∈ Check.order := by
  cases check with
  | limit l => cases l <;> decide
  | _ => decide

theorem failing_eq_none (r : Readings) :
    r.failing = none ↔ ∀ check : Check, check.holds r = true := by
  simp [Readings.failing, Check.mem_order]

/-- A tree is accepted exactly when the values read from it pass every check. -/
theorem valid_iff (root : Item) : Valid root ↔ ∀ check : Check, check.holds (readings root) := by
  rw [Valid, validate, Option.map_eq_none_iff, failing_eq_none]

end PiFire.Settings
