import PiFire.Settings.Reset

/-!
# Whether the repair reaches safe limits

The repair resets the limit that the first failing check is about, and starts
over. A stretch of the checks is swept once, each limit reset when it is out of
its bounds, as long as a reset limit is then within them and no reset undoes an
earlier check. Only the reset of the lowest set point does that, and the highest
one is looked at again.
-/

namespace PiFire.Settings

/-! ## What a check looks at -/

/-- The limits a check looks at. -/
def Check.reads : Check → List Limit
  | .limit .maxtemp => [.maxtemp]
  | .limit .maxTarget => [.minTarget, .maxTarget, .maxtemp]
  | .limit .smokeMin => [.smokeMin, .maxTarget]
  | .limit .exitRise => [.exitRise, .proveRise]
  | .limit l => [l]
  | .smokePlus => [.minTarget]
  | _ => []

namespace Readings

@[simp] theorem celsius_reset (r : Readings) (l : Limit) : (r.reset l).celsius = r.celsius := rfl

@[simp] theorem limit_reset_self (r : Readings) (l : Limit) :
    (r.reset l).limit l = l.shipped r.celsius := Function.update_self _ _ _

theorem limit_reset_ne (r : Readings) {l other : Limit} (different : other ≠ l) :
    (r.reset l).limit other = r.limit other := Function.update_of_ne different _ _

theorem reset_reset (r : Readings) (l : Limit) : (r.reset l).reset l = r.reset l := by
  unfold reset
  simp only [Readings.mk.injEq, true_and]
  exact Function.update_idem _ _ _

theorem holds_reset {check : Check} {l : Limit} (apart : l ∉ check.reads) (r : Readings) :
    check.holds (r.reset l) = check.holds r := by
  have other {read : Limit} (member : read ∈ check.reads) :
      (r.reset l).limit read = r.limit read :=
    limit_reset_ne r fun same => apart (same ▸ member)
  cases check with
  | limit own =>
      cases own <;>
        simp only [Check.reads, List.mem_cons, List.not_mem_nil, or_false, forall_eq_or_imp,
          forall_eq] at other <;>
        simp only [Check.holds, within, other] <;>
        rfl
  | smokePlus =>
      simp only [Check.reads, List.mem_singleton, forall_eq] at other
      simp only [Check.holds, other]
      rfl
  | _ => rfl

/-! ## A stretch of the checks -/

/-- Every limit is within its bounds after as many passes. -/
def Good (passes : ℕ) (r : Readings) : Prop := ∀ l : Limit, (r.repairLoop passes).within l

/-- A limit out of its bounds is reset. -/
def mend (r : Readings) (l : Limit) : Readings := if r.within l then r else r.reset l

/-- The resets that mending a limit takes. -/
def price (r : Readings) (l : Limit) : ℕ := if r.within l then 0 else 1

/-- Limits mended one after another. -/
def mendAll : Readings → List Limit → Readings
  | r, [] => r
  | r, l :: rest => mendAll (r.mend l) rest

/-- The resets that takes. -/
def priceAll : Readings → List Limit → ℕ
  | _, [] => 0
  | r, l :: rest => r.price l + priceAll (r.mend l) rest

/-- Each limit is within its bounds once it is mended. -/
def Mends : Readings → List Limit → Prop
  | _, [] => True
  | r, l :: rest => (r.mend l).within l ∧ Mends (r.mend l) rest

theorem holds_mend {check : Check} {l : Limit} (apart : l ∉ check.reads) (r : Readings) :
    check.holds (r.mend l) = check.holds r := by
  unfold mend
  split_ifs
  · rfl
  · exact holds_reset apart r

theorem failing_of_clear {r : Readings} {check : Check} {before after : List Check}
    (split : Check.order = before ++ check :: after)
    (clear : ∀ earlier ∈ before, earlier.holds r = true) (out : check.holds r = false) :
    r.failing = some check := by
  rw [failing, split, List.find?_append]
  have none_ : before.find? (fun check => !check.holds r) = none := by
    simpa using clear
  rw [none_]
  simp [out]

theorem repairLoop_succ_of_failing {r : Readings} {l : Limit}
    (failing : r.failing = some (.limit l)) (passes : ℕ) :
    r.repairLoop (passes + 1) = (r.reset l).repairLoop passes := by
  rw [repairLoop, pass, failing]

theorem stuck {r : Readings} {l : Limit} (still : (r.reset l).failing = some (.limit l)) (out : (r.reset l).within l = false)
    (passes : ℕ) : ((r.reset l).repairLoop passes).within l = false := by
  induction passes with
  | zero => exact out
  | succ passes ih =>
      rw [repairLoop_succ_of_failing still, reset_reset]
      exact ih

theorem good_mend {r : Readings} {l : Limit} {before after : List Check}
    (split : Check.order = before ++ .limit l :: after)
    (clear : ∀ check ∈ before, check.holds r = true)
    (apart : ∀ check ∈ before, l ∉ check.reads) (passes : ℕ) :
    Good passes r ↔
      (r.mend l).within l ∧ r.price l ≤ passes ∧ Good (passes - r.price l) (r.mend l) := by
  unfold mend price
  by_cases inside : r.within l = true
  · simp [inside]
  · have out : r.within l = false := by simpa using inside
    have failing := failing_of_clear split clear out
    simp only [out, Bool.false_eq_true, if_false]
    cases passes with
    | zero =>
        constructor
        · intro good
          have here := good l
          rw [repairLoop, out] at here
          cases here
        · rintro ⟨_, impossible, _⟩
          cases impossible
    | succ passes =>
        have moved : Good (passes + 1) r ↔ Good passes (r.reset l) := by
          unfold Good
          rw [repairLoop_succ_of_failing failing]
        rw [moved]
        constructor
        · intro good
          refine ⟨?_, Nat.le_add_left 1 passes, good⟩
          by_contra outside
          have clearAfter : ∀ check ∈ before, check.holds (r.reset l) = true := by
            intro check member
            rw [holds_reset (apart check member)]
            exact clear check member
          have outAfter : (r.reset l).within l = false := by simpa using outside
          have still := failing_of_clear split clearAfter outAfter
          have never := stuck still outAfter passes
          rw [good l] at never
          cases never
        · rintro ⟨_, _, good⟩
          exact good

theorem good_mendAll {r : Readings} {limits : List Limit} {before after : List Check}
    (split : Check.order = before ++ (limits.map Check.limit ++ after))
    (clear : ∀ check ∈ before, check.holds r = true)
    (apart : ∀ l ∈ limits, ∀ check ∈ before, l ∉ check.reads)
    (onward : limits.Pairwise fun earlier later => later ∉ (Check.limit earlier).reads)
    (passes : ℕ) :
    Good passes r ↔
      Mends r limits ∧ r.priceAll limits ≤ passes ∧
        Good (passes - r.priceAll limits) (r.mendAll limits) := by
  induction limits generalizing r before passes with
  | nil => simp [Mends, priceAll, mendAll]
  | cons l rest ih =>
      rw [List.pairwise_cons] at onward
      rw [good_mend split clear (apart l (by simp)), Mends, priceAll, mendAll]
      by_cases inside : (r.mend l).within l = true
      · have clearNext : ∀ check ∈ before ++ [Check.limit l], check.holds (r.mend l) = true := by
          intro check member
          rcases List.mem_append.mp member with old | new
          · rw [holds_mend (apart l (by simp) check old)]
            exact clear check old
          · rw [List.mem_singleton.mp new]
            exact inside
        have apartNext : ∀ other ∈ rest, ∀ check ∈ before ++ [Check.limit l],
            other ∉ check.reads := by
          intro other later check member
          rcases List.mem_append.mp member with old | new
          · exact apart other (by simp [later]) check old
          · rw [List.mem_singleton.mp new]
            exact onward.1 other later
        rw [ih (by simpa using split) clearNext apartNext onward.2]
        simp only [inside, true_and]
        constructor
        · rintro ⟨enough, mends, more, good⟩
          refine ⟨mends, by omega, ?_⟩
          rwa [← Nat.sub_sub]
        · rintro ⟨mends, enough, good⟩
          refine ⟨by omega, mends, by omega, ?_⟩
          rwa [Nat.sub_sub]
      · simp [inside]

theorem clear_mendAll {r : Readings} {limits : List Limit} {before : List Check}
    (clear : ∀ check ∈ before, check.holds r = true)
    (apart : ∀ l ∈ limits, ∀ check ∈ before, l ∉ check.reads)
    (onward : limits.Pairwise fun earlier later => later ∉ (Check.limit earlier).reads)
    (mends : Mends r limits) :
    ∀ check ∈ before ++ limits.map Check.limit, check.holds (r.mendAll limits) = true := by
  induction limits generalizing r before with
  | nil => simpa [mendAll] using clear
  | cons l rest ih =>
      rw [List.pairwise_cons] at onward
      have clearNext : ∀ check ∈ before ++ [Check.limit l], check.holds (r.mend l) = true := by
        intro check member
        rcases List.mem_append.mp member with old | new
        · rw [holds_mend (apart l (by simp) check old)]
          exact clear check old
        · rw [List.mem_singleton.mp new]
          exact mends.1
      have apartNext : ∀ other ∈ rest, ∀ check ∈ before ++ [Check.limit l],
          other ∉ check.reads := by
        intro other later check member
        rcases List.mem_append.mp member with old | new
        · exact apart other (by simp [later]) check old
        · rw [List.mem_singleton.mp new]
          exact onward.1 other later
      have later := ih clearNext apartNext onward.2 mends.2
      simpa [mendAll] using later

/-! ## The limits the repair arrives at -/

/-- A limit that stands or falls back to what ships. -/
def orShipped (r : Readings) (l : Limit) (stands : Bool) : ℚ :=
  if stands then r.limit l else l.shipped r.celsius

/-- The overheat limit after the repair. -/
def overheat (r : Readings) : ℚ := r.orShipped .maxtemp (r.within .maxtemp)

/-- Whether the highest set point stands at first: over the lowest and under the
overheat limit. -/
def topStands (r : Readings) : Bool :=
  r.limit .minTarget < r.limit .maxTarget ∧ r.limit .maxTarget < r.overheat

/-- The highest set point at first. -/
def top (r : Readings) : ℚ := r.orShipped .maxTarget r.topStands

/-- The lowest set point after the repair. -/
def bottom (r : Readings) : ℚ := r.orShipped .minTarget (r.within .minTarget)

/-- The highest set point after the repair: it is looked at again when the
lowest one has changed. -/
def ceiling (r : Readings) : ℚ :=
  if r.bottom < r.top then r.top else Limit.shipped r.celsius .maxTarget

/-- The values read with the set point limits repaired. -/
def targeted (r : Readings) : Readings :=
  { r with
    limit := fun
      | .maxtemp => r.overheat
      | .maxTarget => r.ceiling
      | .minTarget => r.bottom
      | l => r.limit l }

/-- The rise that proves ignition after the repair. -/
def ignition (r : Readings) : ℚ := r.orShipped .proveRise (r.within .proveRise)

/-- Whether a limit that is checked after the set points stands. -/
def stands (r : Readings) : Limit → Bool
  | .smokeMin =>
      (if r.celsius then 38 else 100) ≤ r.limit .smokeMin ∧ r.limit .smokeMin < r.ceiling
  | .exitRise =>
      r.ignition < r.limit .exitRise ∧ r.limit .exitRise ≤ (if r.celsius then 28 else 50)
  | l => r.within l

/-- The limits that are checked after the set points. -/
def later : List Limit :=
  [.smokeMin, .proveS, .proveRise, .exitRise, .relightDrop, .relightProve, .augerMaxOn,
    .igniterMaxOn, .reigniteRetries, .probeFault, .powerLossMax, .manualOverride]

/-- How many resets the set point limits take. -/
def targetResets (r : Readings) : ℕ :=
  [r.within .maxtemp, r.topStands, r.within .minTarget, r.bottom < r.top].countP fun stands =>
    !stands

/-- How many resets the limits after them take. -/
def laterResets (r : Readings) : ℕ := later.countP fun l => !r.stands l

/-- When the repair reaches safe limits: nothing but the limits stands in its
way, what they fall back to is in order with what stands, and there are enough
passes. -/
structure Repairable (r : Readings) : Prop where
  units : Check.units.holds r
  fractions : Check.fractions.holds r
  holdCycle : Check.holdCycle.holds r
  /-- The highest set point, as it is or as it ships, lies between the others. -/
  targets : r.limit .minTarget < r.top ∧ r.top < r.overheat
  again : r.ceiling < r.overheat
  /-- A bound of Smoke+ that is too low ends the repair. -/
  smokePlus : r.bottom < r.splusMax ∨ r.laterResets = 0
  smoke : r.orShipped .smokeMin (r.stands .smokeMin) < r.ceiling
  rises : r.ignition < r.orShipped .exitRise (r.stands .exitRise)
  few : r.targetResets + r.laterResets ≤ repairPasses

/-! ### The set points -/

theorem limit_mend (r : Readings) (l : Limit) :
    (r.mend l).limit l = r.orShipped l (r.within l) := by
  unfold mend orShipped
  split_ifs
  · rfl
  · exact limit_reset_self r l

theorem limit_mend_ne (r : Readings) {l other : Limit} (different : other ≠ l) :
    (r.mend l).limit other = r.limit other := by
  unfold mend
  split_ifs
  · rfl
  · exact limit_reset_ne r different

@[simp] theorem celsius_mend (r : Readings) (l : Limit) : (r.mend l).celsius = r.celsius := by
  unfold mend
  split_ifs <;> rfl

theorem within_mend_maxtemp (r : Readings) : (r.mend .maxtemp).within .maxtemp = true := by
  unfold mend
  split_ifs with inside
  · exact inside
  · cases c : r.celsius <;> simp [within, Limit.shipped, c] <;> norm_num

theorem within_mend_minTarget (r : Readings) : (r.mend .minTarget).within .minTarget = true := by
  unfold mend
  split_ifs with inside
  · exact inside
  · cases c : r.celsius <;> simp [within, Limit.shipped, c] <;> norm_num

theorem within_mend_alone {l : Limit} (alone : l ∈ later) (notSmoke : l ≠ .smokeMin)
    (notExit : l ≠ .exitRise) (r : Readings) : (r.mend l).within l = true := by
  unfold mend
  split_ifs with inside
  · exact inside
  · cases l <;> first
      | exact absurd rfl notSmoke
      | exact absurd rfl notExit
      | exact absurd alone (by decide)
      | (cases c : r.celsius <;> simp [within, Limit.shipped, c] <;> norm_num)

theorem mend_eq (r : Readings) (l : Limit) :
    r.mend l = { r with limit := Function.update r.limit l (r.orShipped l (r.within l)) } := by
  unfold mend orShipped
  split_ifs
  · rw [Function.update_eq_self]
  · rfl

theorem good_reset {r : Readings} {l : Limit} (failing : r.failing = some (.limit l))
    (out : r.within l = false) (passes : ℕ) :
    Good passes r ↔ 1 ≤ passes ∧ Good (passes - 1) (r.reset l) := by
  cases passes with
  | zero =>
      constructor
      · intro good
        have here := good l
        rw [repairLoop, out] at here
        cases here
      · rintro ⟨impossible, _⟩
        cases impossible
  | succ passes =>
      unfold Good
      rw [repairLoop_succ_of_failing failing]
      simp

section

variable {r : Readings}

theorem mendAll_first (r : Readings) :
    r.mendAll [.maxtemp, .maxTarget] =
        { r with
          limit := Function.update (Function.update r.limit .maxtemp r.overheat) .maxTarget
            r.top } ∧
      r.priceAll [.maxtemp, .maxTarget] =
        (if r.within .maxtemp then 0 else 1) + (if r.topStands then 0 else 1) ∧
      (Mends r [.maxtemp, .maxTarget] ↔
        r.limit .minTarget < r.top ∧ r.top < r.overheat) := by
  have overheated : (r.mend .maxtemp).limit .maxtemp = r.overheat := limit_mend r .maxtemp
  have bottomKept : (r.mend .maxtemp).limit .minTarget = r.limit .minTarget :=
    limit_mend_ne r (by decide)
  have topKept : (r.mend .maxtemp).limit .maxTarget = r.limit .maxTarget :=
    limit_mend_ne r (by decide)
  have stands : (r.mend .maxtemp).within .maxTarget = r.topStands := by
    simp only [within, topStands, overheated, bottomKept, topKept, gt_iff_lt]
  have mended : ((r.mend .maxtemp).mend .maxTarget).limit .maxTarget = r.top := by
    rw [limit_mend, stands, orShipped, topKept, celsius_mend]
    rfl
  refine ⟨?_, ?_, ?_⟩
  · rw [mendAll, mendAll, mendAll, mend_eq (r.mend .maxtemp), stands]
    have value : (r.mend .maxtemp).orShipped .maxTarget r.topStands = r.top := by
      rw [orShipped, topKept, celsius_mend]
      rfl
    rw [value, mend_eq r]
    rfl
  · rw [priceAll, priceAll, priceAll, price, price, stands, Nat.add_zero]
  · simp only [Mends, within_mend_maxtemp, true_and, and_true]
    simp only [within, mended, limit_mend_ne (r.mend .maxtemp) (show Limit.minTarget ≠ .maxTarget by decide),
      limit_mend_ne (r.mend .maxtemp) (show Limit.maxtemp ≠ .maxTarget by decide), overheated,
      bottomKept, gt_iff_lt, decide_eq_true_eq]

theorem shipped_targets (c : Bool) :
    Limit.shipped c .minTarget < Limit.shipped c .maxTarget := by
  cases c <;> norm_num [Limit.shipped]

theorem bottom_lt_ceiling (targets : r.limit .minTarget < r.top) : r.bottom < r.ceiling := by
  unfold ceiling
  split_ifs with under
  · exact under
  · unfold bottom orShipped at under ⊢
    split_ifs at under ⊢ with inside
    · exact absurd targets under
    · exact shipped_targets r.celsius

/-- The checks of the set points, in their order. -/
def targetChecks : List Check :=
  [.units, .fractions, .holdCycle, .limit .maxtemp, .limit .maxTarget, .limit .minTarget]

theorem clear_targeted (units : Check.units.holds r) (fractions : Check.fractions.holds r)
    (holdCycle : Check.holdCycle.holds r) (targets : r.limit .minTarget < r.top)
    (again : r.ceiling < r.overheat) :
    ∀ check ∈ targetChecks, check.holds r.targeted = true := by
  have overheat := within_mend_maxtemp r
  have floor := within_mend_minTarget r
  simp only [within, limit_mend, celsius_mend] at overheat floor
  simp only [targetChecks, List.mem_cons, List.not_mem_nil, or_false, forall_eq_or_imp, forall_eq]
  refine ⟨units, fractions, holdCycle, overheat, ?_, floor⟩
  show decide (r.ceiling > r.bottom ∧ r.ceiling < r.overheat) = true
  exact decide_eq_true ⟨bottom_lt_ceiling targets, again⟩

theorem targeted_of_inside (inside : r.within .minTarget = true)
    (targets : r.limit .minTarget < r.top) :
    r.bottom < r.top ∧
      r.targeted =
        { r with
          limit := Function.update (Function.update r.limit .maxtemp r.overheat) .maxTarget
            r.top } := by
  have kept : r.bottom = r.limit .minTarget := by rw [bottom, orShipped, if_pos inside]
  have under : r.bottom < r.top := by rwa [kept]
  refine ⟨under, ?_⟩
  have same : r.ceiling = r.top := if_pos under
  rw [targeted, same, kept]
  congr 1
  funext l
  cases l <;> rfl

theorem targeted_of_outside (outside : r.within .minTarget = false) (settled : r.top < r.overheat)
    {s : Readings}
    (state : s =
      { r with
        limit := Function.update (Function.update r.limit .maxtemp r.overheat) .maxTarget r.top }) :
    (s.reset .minTarget).within .maxTarget = decide (r.bottom < r.top) ∧
      (s.reset .minTarget).mend .maxTarget = r.targeted := by
  have dropped : r.bottom = Limit.shipped r.celsius .minTarget := by
    rw [bottom, orShipped, if_neg (by simp [outside])]
  have stands : (s.reset .minTarget).within .maxTarget = decide (r.bottom < r.top) := by
    subst state
    show decide (r.top > Limit.shipped r.celsius .minTarget ∧ r.top < r.overheat) = _
    rw [dropped]
    simp [settled]
  refine ⟨stands, ?_⟩
  rw [mend_eq, stands]
  subst state
  show ({ r with limit := _ } : Readings) = { r with limit := _ }
  congr 1
  funext l
  cases l with
  | maxTarget =>
      rw [Function.update_self]
      unfold orShipped
      show _ = r.ceiling
      rw [ceiling]
      by_cases under : r.bottom < r.top
      · rw [if_pos under, if_pos (decide_eq_true under)]
        rfl
      · rw [if_neg under, if_neg (by simpa using under)]
        rfl
  | minTarget =>
      show Limit.shipped r.celsius .minTarget = r.bottom
      exact dropped.symm
  | _ => rfl

theorem good_targets (units : Check.units.holds r) (fractions : Check.fractions.holds r)
    (holdCycle : Check.holdCycle.holds r) (passes : ℕ) :
    Good passes r ↔
      (r.limit .minTarget < r.top ∧ r.top < r.overheat) ∧ r.ceiling < r.overheat ∧
        r.targetResets ≤ passes ∧ Good (passes - r.targetResets) r.targeted := by
  have clear : ∀ check ∈ [Check.units, .fractions, .holdCycle], check.holds r = true := by
    simp only [List.mem_cons, List.not_mem_nil, or_false, forall_eq_or_imp, forall_eq]
    exact ⟨units, fractions, holdCycle⟩
  rcases mendAll_first r with ⟨state, cost, mends⟩
  rw [@good_mendAll r [.maxtemp, .maxTarget] [.units, .fractions, .holdCycle] _ rfl clear
    (by decide) (by decide), mends]
  refine and_congr_right fun targets => ?_
  have cleared := @clear_mendAll r [.maxtemp, .maxTarget] _ clear (by decide) (by decide)
    (mends.mpr targets)
  cases inside : r.within .minTarget with
  | true =>
      rcases targeted_of_inside inside targets.1 with ⟨under, same⟩
      have resets : r.targetResets = r.priceAll [.maxtemp, .maxTarget] := by
        rw [cost, targetResets, inside]
        cases r.within .maxtemp <;> cases r.topStands <;> simp [under]
      have again : r.ceiling < r.overheat := by
        rw [ceiling, if_pos under]
        exact targets.2
      rw [resets, same, ← state]
      exact (and_iff_right again).symm
  | false =>
      rcases targeted_of_outside inside targets.2 state with ⟨stands, same⟩
      have out : (r.mendAll [.maxtemp, .maxTarget]).within .minTarget = false := by
        rw [state]
        exact inside
      have failing := @failing_of_clear _ _ [.units, .fractions, .holdCycle, .limit .maxtemp,
        .limit .maxTarget] _ rfl cleared out
      have clearAgain : ∀ check ∈ [Check.units, .fractions, .holdCycle, .limit .maxtemp],
          check.holds ((r.mendAll [.maxtemp, .maxTarget]).reset .minTarget) = true := by
        intro check member
        have apart : ∀ check ∈ [Check.units, .fractions, .holdCycle, .limit .maxtemp],
            Limit.minTarget ∉ check.reads := by decide
        rw [holds_reset (apart check member)]
        exact cleared check (by
          simp only [List.mem_cons, List.not_mem_nil, or_false] at member
          rcases member with rfl | rfl | rfl | rfl <;> decide)
      rw [good_reset failing out, @good_mendAll _ [.maxTarget] [.units, .fractions, .holdCycle,
        .limit .maxtemp] _ rfl clearAgain (by decide) (by decide)]
      have again : ((r.mendAll [.maxtemp, .maxTarget]).reset .minTarget).Mends [.maxTarget] ↔
          r.ceiling < r.overheat := by
        rw [Mends, same]
        show (decide (r.ceiling > r.bottom ∧ r.ceiling < r.overheat) = true ∧ True) ↔ _
        simp [bottom_lt_ceiling targets.1]
      have secondCost : ((r.mendAll [.maxtemp, .maxTarget]).reset .minTarget).priceAll
          [.maxTarget] = if r.bottom < r.top then 0 else 1 := by
        rw [priceAll, priceAll, Nat.add_zero, price, stands]
        simp
      have resets : r.targetResets = r.priceAll [.maxtemp, .maxTarget] + 1 +
          if r.bottom < r.top then 0 else 1 := by
        rw [cost, targetResets, inside]
        cases r.within .maxtemp <;> cases r.topStands <;> by_cases under : r.bottom < r.top <;>
          simp [under]
      rw [again, secondCost, resets, mendAll, mendAll, same]
      generalize (if r.bottom < r.top then 0 else 1) = second
      generalize r.priceAll [.maxtemp, .maxTarget] = first
      rw [show passes - (first + 1 + second) = passes - first - 1 - second by omega]
      constructor
      · rintro ⟨_, _, settles, _, good⟩
        exact ⟨settles, by omega, good⟩
      · rintro ⟨settles, _, good⟩
        exact ⟨by omega, by omega, settles, by omega, good⟩

/-! ### The limits after them -/

theorem within_mendAll {l : Limit} {limits : List Limit}
    (apart : ∀ mended ∈ limits, mended ∉ (Check.limit l).reads) (s : Readings) :
    (s.mendAll limits).within l = s.within l := by
  induction limits generalizing s with
  | nil => rfl
  | cons mended rest ih =>
      rw [mendAll, ih fun other member => apart other (by simp [member])]
      exact @holds_mend (.limit l) mended (apart mended (by simp)) s

theorem limit_mendAll_ne {l : Limit} {limits : List Limit} (apart : l ∉ limits) (s : Readings) :
    (s.mendAll limits).limit l = s.limit l := by
  induction limits generalizing s with
  | nil => rfl
  | cons mended rest ih =>
      simp only [List.mem_cons, not_or] at apart
      rw [mendAll, ih apart.2, limit_mend_ne s apart.1]

theorem priceAll_append (s : Readings) (front back : List Limit) :
    s.priceAll (front ++ back) = s.priceAll front + (s.mendAll front).priceAll back := by
  induction front generalizing s with
  | nil => simp [priceAll, mendAll]
  | cons l rest ih =>
      rw [List.cons_append, priceAll, ih, priceAll, mendAll, Nat.add_assoc]

theorem mends_append (s : Readings) (front back : List Limit) :
    s.Mends (front ++ back) ↔ s.Mends front ∧ (s.mendAll front).Mends back := by
  induction front generalizing s with
  | nil => simp [Mends, mendAll]
  | cons l rest ih => rw [List.cons_append, Mends, ih, Mends, mendAll, and_assoc]

/-- Limits that do not look at each other cost a reset for each that is out. -/
theorem priceAll_eq_countP {limits : List Limit}
    (onward : limits.Pairwise fun earlier later => earlier ∉ (Check.limit later).reads)
    (s : Readings) : s.priceAll limits = limits.countP fun l => !s.within l := by
  induction limits generalizing s with
  | nil => rfl
  | cons l rest ih =>
      rw [List.pairwise_cons] at onward
      have same : rest.countP (fun other => !(s.mend l).within other) =
          rest.countP fun other => !s.within other :=
        List.countP_congr fun other member => by
          rw [show (s.mend l).within other = s.within other from
            @holds_mend (.limit other) l (onward.1 other member) s]
      rw [priceAll, ih onward.2, same, List.countP_cons, price]
      cases s.within l <;> simp [Nat.add_comm]

theorem mends_of_alone {limits : List Limit}
    (alone : ∀ l ∈ limits, l ∈ later ∧ l ≠ .smokeMin ∧ l ≠ .exitRise) (s : Readings) :
    s.Mends limits := by
  induction limits generalizing s with
  | nil => trivial
  | cons l rest ih =>
      rcases alone l (by simp) with ⟨listed, notSmoke, notExit⟩
      exact ⟨within_mend_alone listed notSmoke notExit s,
        ih (fun other member => alone other (by simp [member])) _⟩

theorem mends_of_within {s : Readings} (inside : ∀ l, s.within l = true) (limits : List Limit) :
    s.Mends limits := by
  induction limits with
  | nil => trivial
  | cons l rest ih =>
      have same : s.mend l = s := if_pos (inside l)
      rw [Mends, same]
      exact ⟨inside l, ih⟩

theorem within_targeted {l : Limit} (listed : l ∈ later) (notExit : l ≠ .exitRise) :
    r.targeted.within l = r.stands l := by
  cases l <;> first
    | exact absurd rfl notExit
    | exact absurd listed (by decide)
    | rfl

theorem limit_proveRise :
    (r.targeted.mendAll [.smokeMin, .proveS, .proveRise]).limit .proveRise = r.ignition := by
  have before : (r.targeted.mendAll [.smokeMin, .proveS]).within .proveRise =
      r.within .proveRise := within_mendAll (by decide) r.targeted
  have kept : (r.targeted.mendAll [.smokeMin, .proveS]).limit .proveRise =
      r.limit .proveRise := limit_mendAll_ne (by decide) r.targeted
  show ((r.targeted.mendAll [.smokeMin, .proveS]).mend .proveRise).limit .proveRise = _
  rw [limit_mend, before, orShipped, kept]
  simp only [mendAll, celsius_mend]
  rfl

theorem within_exitRise :
    (r.targeted.mendAll [.smokeMin, .proveS, .proveRise]).within .exitRise =
      r.stands .exitRise := by
  have exit : (r.targeted.mendAll [.smokeMin, .proveS, .proveRise]).limit .exitRise =
      r.limit .exitRise := limit_mendAll_ne (by decide) r.targeted
  have units : (r.targeted.mendAll [.smokeMin, .proveS, .proveRise]).celsius = r.celsius := by
    simp only [mendAll, celsius_mend]
    rfl
  simp only [within, exit, limit_proveRise, stands, gt_iff_lt]
  cases c : r.celsius <;> simp [units, c]

/-- The limits after the rise that ends startup. -/
def afterExit : List Limit :=
  [.relightDrop, .relightProve, .augerMaxOn, .igniterMaxOn, .reigniteRetries, .probeFault,
    .powerLossMax, .manualOverride]

theorem later_eq : later = [.smokeMin, .proveS, .proveRise] ++ .exitRise :: afterExit := rfl

theorem priceAll_later : r.targeted.priceAll later = r.laterResets := by
  have first : r.targeted.priceAll [.smokeMin, .proveS, .proveRise] =
      [Limit.smokeMin, .proveS, .proveRise].countP fun l => !r.stands l := by
    rw [priceAll_eq_countP (by decide)]
    refine List.countP_congr fun l member => ?_
    have facts : ∀ l ∈ [Limit.smokeMin, .proveS, .proveRise], l ∈ later ∧ l ≠ .exitRise := by
      decide
    rw [within_targeted (facts l member).1 (facts l member).2]
  have last : ((r.targeted.mendAll [.smokeMin, .proveS, .proveRise]).mend .exitRise).priceAll
      afterExit = afterExit.countP fun l => !r.stands l := by
    rw [priceAll_eq_countP (by decide)]
    refine List.countP_congr fun l member => ?_
    have facts : ∀ l ∈ afterExit, (l ∈ later ∧ l ≠ .exitRise) ∧
        ∀ mended ∈ [Limit.smokeMin, .proveS, .proveRise, .exitRise],
          mended ∉ (Check.limit l).reads := by
      decide
    rcases facts l member with ⟨⟨listed, notExit⟩, apart⟩
    have same : ((r.targeted.mendAll [.smokeMin, .proveS, .proveRise]).mend .exitRise).within l =
        r.targeted.within l :=
      @within_mendAll l [.smokeMin, .proveS, .proveRise, .exitRise] apart r.targeted
    rw [same, within_targeted listed notExit]
  have exit : (Limit.exitRise :: afterExit).countP (fun l => !r.stands l) =
      (if r.stands .exitRise then 0 else 1) + afterExit.countP fun l => !r.stands l := by
    rw [List.countP_cons, Nat.add_comm]
    cases r.stands .exitRise <;> rfl
  rw [later_eq, priceAll_append, first, priceAll, last, price, within_exitRise, laterResets,
    later_eq, List.countP_append, exit]

theorem mends_smokeMin :
    (r.targeted.mend .smokeMin).within .smokeMin = true ↔
      r.orShipped .smokeMin (r.stands .smokeMin) < r.ceiling := by
  have value : (r.targeted.mend .smokeMin).limit .smokeMin =
      r.orShipped .smokeMin (r.stands .smokeMin) := by
    rw [limit_mend, within_targeted (by decide) (by decide)]
    rfl
  have top : (r.targeted.mend .smokeMin).limit .maxTarget = r.ceiling :=
    limit_mend_ne r.targeted (by decide)
  have floor : (if r.celsius then 38 else 100) ≤ r.orShipped .smokeMin (r.stands .smokeMin) := by
    unfold orShipped
    split_ifs with c stands stands
    · simp only [Readings.stands, c, if_true, decide_eq_true_eq] at stands
      exact stands.1
    · norm_num [Limit.shipped, c]
    · simp only [Readings.stands, c, decide_eq_true_eq] at stands
      exact stands.1
    · norm_num [Limit.shipped, c]
  have units : (r.targeted.mend .smokeMin).celsius = r.celsius := celsius_mend _ _
  rw [← units] at floor
  simp only [within, value, top, ge_iff_le, decide_eq_true_eq]
  constructor
  · rintro ⟨_, under⟩
    exact under
  · intro under
    exact ⟨floor, under⟩

theorem mends_exitRise :
    ((r.targeted.mendAll [.smokeMin, .proveS, .proveRise]).mend .exitRise).within .exitRise =
        true ↔
      r.ignition < r.orShipped .exitRise (r.stands .exitRise) := by
  have exitKept : (r.targeted.mendAll [.smokeMin, .proveS, .proveRise]).limit .exitRise =
      r.limit .exitRise := limit_mendAll_ne (by decide) r.targeted
  have units : (r.targeted.mendAll [.smokeMin, .proveS, .proveRise]).celsius = r.celsius := by
    simp only [mendAll, celsius_mend]
    rfl
  have value : ((r.targeted.mendAll [.smokeMin, .proveS, .proveRise]).mend .exitRise).limit
      .exitRise = r.orShipped .exitRise (r.stands .exitRise) := by
    rw [limit_mend, within_exitRise, orShipped, exitKept, units]
    rfl
  have prove : ((r.targeted.mendAll [.smokeMin, .proveS, .proveRise]).mend .exitRise).limit
      .proveRise = r.ignition := by
    rw [limit_mend_ne _ (by decide)]
    exact limit_proveRise
  have top : r.orShipped .exitRise (r.stands .exitRise) ≤ if r.celsius then 28 else 50 := by
    unfold orShipped
    split_ifs with stands c c
    · simp only [Readings.stands, c, if_true, decide_eq_true_eq] at stands
      exact stands.2
    · simp only [Readings.stands, c, decide_eq_true_eq] at stands
      exact stands.2
    · norm_num [Limit.shipped, c]
    · norm_num [Limit.shipped, c]
  have unitsAfter := (celsius_mend (r.targeted.mendAll [.smokeMin, .proveS, .proveRise])
    .exitRise).trans units
  rw [← unitsAfter] at top
  simp only [within, value, prove, gt_iff_lt, decide_eq_true_eq]
  constructor
  · rintro ⟨above, _⟩
    exact above
  · intro above
    exact ⟨above, top⟩

theorem mends_later :
    r.targeted.Mends later ↔
      r.orShipped .smokeMin (r.stands .smokeMin) < r.ceiling ∧
        r.ignition < r.orShipped .exitRise (r.stands .exitRise) := by
  have first : r.targeted.Mends [.smokeMin, .proveS, .proveRise] ↔
      (r.targeted.mend .smokeMin).within .smokeMin = true := by
    rw [Mends]
    exact and_iff_left (mends_of_alone (by decide) _)
  rw [later_eq, mends_append, first, mends_smokeMin, Mends, mends_exitRise]
  exact and_congr_right fun _ => and_iff_left (mends_of_alone (by decide) _)

/-! ### The repair as a whole -/

theorem repairLoop_of_pass {s : Readings} (done : s.pass = none) (passes : ℕ) :
    s.repairLoop passes = s := by
  cases passes with
  | zero => rfl
  | succ passes => rw [repairLoop, done]

theorem good_of_other {s : Readings} {check : Check} (failing : s.failing = some check)
    (other : ∀ l, check ≠ .limit l) (passes : ℕ) : Good passes s ↔ ∀ l, s.within l = true := by
  have done : s.pass = none := by
    rw [pass, failing]
    cases check with
    | limit l => exact absurd rfl (other l)
    | _ => rfl
  unfold Good
  rw [repairLoop_of_pass done]

theorem good_of_within {s : Readings} (inside : ∀ l, s.within l = true) (passes : ℕ) :
    Good passes s := by
  have done : s.pass = none := by
    rw [pass]
    cases failing : s.failing with
    | none => rfl
    | some check =>
        cases check with
        | limit l =>
            have fails := List.find?_some failing
            simp [Check.holds, inside l] at fails
        | _ => rfl
  intro l
  rw [repairLoop_of_pass done]
  exact inside l

theorem laterResets_eq_zero : r.laterResets = 0 ↔ ∀ l ∈ later, r.stands l = true := by
  simp [laterResets, List.countP_eq_zero]

theorem targetResets_le (r : Readings) : r.targetResets ≤ 4 :=
  List.countP_le_length

/-- Nothing after the set points takes a reset exactly when it is all within its
bounds beside them. -/
theorem laterResets_eq_zero_iff :
    r.laterResets = 0 ↔ ∀ l ∈ later, r.targeted.within l = true := by
  have ignited : r.within .proveRise = true → r.ignition = r.limit .proveRise := by
    intro inside
    rw [ignition, orShipped, if_pos inside]
  have exit : r.within .proveRise = true → r.targeted.within .exitRise = r.stands .exitRise := by
    intro inside
    simp only [within, stands, ignited inside, gt_iff_lt]
    rfl
  rw [laterResets_eq_zero]
  constructor
  · intro stand l listed
    by_cases same : l = .exitRise
    · subst same
      rw [exit (stand .proveRise (by decide))]
      exact stand _ listed
    · rw [within_targeted listed same]
      exact stand l listed
  · intro inside l listed
    by_cases same : l = .exitRise
    · subst same
      have proves := inside .proveRise (by decide)
      rw [within_targeted (by decide) (by decide)] at proves
      rw [← exit proves]
      exact inside _ listed
    · rw [← within_targeted listed same]
      exact inside l listed

theorem good_later (clear : ∀ check ∈ targetChecks, check.holds r.targeted = true)
    (passes : ℕ) :
    Good passes r.targeted ↔
      (r.bottom < r.splusMax ∨ r.laterResets = 0) ∧
        r.orShipped .smokeMin (r.stands .smokeMin) < r.ceiling ∧
          r.ignition < r.orShipped .exitRise (r.stands .exitRise) ∧ r.laterResets ≤ passes := by
  have orderly := @mends_later r
  cases splus : Check.smokePlus.holds r.targeted with
  | true =>
      have under : r.bottom < r.splusMax := of_decide_eq_true splus
      have clearNext : ∀ check ∈ targetChecks ++ [Check.smokePlus],
          check.holds r.targeted = true := by
        intro check member
        rcases List.mem_append.mp member with old | new
        · exact clear check old
        · rw [List.mem_singleton.mp new]
          exact splus
      rw [@good_mendAll r.targeted later (targetChecks ++ [Check.smokePlus]) _ rfl clearNext
        (by decide) (by decide), priceAll_later, orderly]
      constructor
      · rintro ⟨⟨smoke, rises⟩, enough, _⟩
        exact ⟨Or.inl under, smoke, rises, enough⟩
      · rintro ⟨_, smoke, rises, enough⟩
        refine ⟨⟨smoke, rises⟩, enough, good_of_within ?_ _⟩
        intro l
        have passed := clear_mendAll clearNext (by decide) (by decide)
          (orderly.mpr ⟨smoke, rises⟩) (.limit l)
        exact passed (by cases l <;> decide)
  | false =>
      have isOver : ¬r.bottom < r.splusMax := of_decide_eq_false splus
      have failing := failing_of_clear rfl clear splus
      rw [good_of_other failing (by intro l; simp)]
      constructor
      · intro inside
        have none_ := laterResets_eq_zero_iff.mpr fun l _ => inside l
        rcases orderly.mp (mends_of_within inside later) with ⟨smoke, rises⟩
        exact ⟨Or.inr none_, smoke, rises, by omega⟩
      · rintro ⟨below | none_, _⟩
        · exact absurd below isOver
        · intro l
          by_cases listed : l ∈ later
          · exact laterResets_eq_zero_iff.mp none_ l listed
          · have first : Check.limit l ∈ targetChecks := by
              cases l <;> first
                | exact absurd (by decide) listed
                | decide
            exact clear _ first

/-- The repair reaches safe limits exactly when nothing but the limits stands in
its way and what they fall back to fits, or they were safe already. -/
theorem good_repair_iff (r : Readings) :
    Good repairPasses r ↔ (∀ l, r.within l = true) ∨ Repairable r := by
  have early {check : Check} {before after : List Check} (other : ∀ l, check ≠ .limit l)
      (split : Check.order = before ++ check :: after)
      (clear : ∀ earlier ∈ before, earlier.holds r = true) (out : check.holds r = false)
      (needed : Repairable r → check.holds r = true) :
      Good repairPasses r ↔ (∀ l, r.within l = true) ∨ Repairable r := by
    rw [good_of_other (failing_of_clear split clear out) other]
    constructor
    · intro inside
      exact Or.inl inside
    · rintro (inside | repairable)
      · exact inside
      · rw [needed repairable] at out
        cases out
  cases units : Check.units.holds r with
  | false => exact @early .units [] _ (by simp) rfl (by simp) units Repairable.units
  | true =>
  cases fractions : Check.fractions.holds r with
  | false =>
      exact @early .fractions [.units] _ (by simp) rfl (by simpa using units) fractions
        Repairable.fractions
  | true =>
  cases holdCycle : Check.holdCycle.holds r with
  | false =>
      exact @early .holdCycle [.units, .fractions] _ (by simp) rfl
        (by simpa using ⟨units, fractions⟩) holdCycle Repairable.holdCycle
  | true =>
      have few := targetResets_le r
      have settled (targets : r.limit .minTarget < r.top) (again : r.ceiling < r.overheat) :=
        good_later (clear_targeted units fractions holdCycle targets again)
          (repairPasses - r.targetResets)
      rw [good_targets units fractions holdCycle]
      constructor
      · rintro ⟨targets, again, _, good⟩
        rcases (settled targets.1 again).mp good with ⟨splus, smoke, rises, enough⟩
        refine Or.inr ⟨units, fractions, holdCycle, targets, again, splus, smoke, rises, ?_⟩
        have limit : repairPasses = 12 := rfl
        omega
      · rintro (inside | repairable)
        · exact (good_targets units fractions holdCycle repairPasses).mp (good_of_within inside _)
        · have limit : repairPasses = 12 := rfl
          have enough := repairable.few
          refine ⟨repairable.targets, repairable.again, by omega, ?_⟩
          exact (settled repairable.targets.1 repairable.again).mpr
            ⟨repairable.smokePlus, repairable.smoke, repairable.rises, by omega⟩

end

end Readings

/-! ## Loading any file -/

/-- The safety limits of a tree are within their bounds. -/
def SafeLimits (root : Item) : Prop := ∀ l : Limit, (readings root).within l = true

/-- An overheat limit of 900 °F and a set point as low as 20 °F. -/
def benchUnsafe : Json :=
  .obj
    [("schema_version", .num 30),
      ("safety", .obj [("maxtemp", .num 900), ("min_target", .num 20)])]

/-- A lowest set point above every highest one. -/
def benchOverTop : Json := .obj [("safety", .obj [("min_target", .num 600)])]

end PiFire.Settings
