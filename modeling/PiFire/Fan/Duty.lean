import PiFire.Control.Life

/-!
# The fan's divisions and duties

The fan logic divides by settings that no check keeps from zero, and works out duties from
others that no check keeps in order. This file has the logic with each division checked and
each duty written down, and says in which states and under which settings nothing is divided
by zero and every duty lies between the least and the greatest.
-/

namespace PiFire

open Transition

/-- A division, unless it is by zero. -/
def div? (x y : ℚ) : Option ℚ := if y = 0 then none else some (x / y)

/-- A state with the duties that were set on the way to it. -/
abbrev Driven := Control × List ℤ

/-- The duty the fan is switched on at, when it has one. -/
def onDuty (pct : ℤ) : ℤ := if pct > 0 then pct else 100

def fanOnDriven (pct : ℤ) (c : Control) : Driven :=
  (fanOn pct c, if c.cfg.dcFan then [onDuty pct] else [])

/-- The time to update the duty by the pit. -/
def choosesDuty (t : Tick) (c : Control) : Bool :=
  c.cfg.dcFan && c.mode == .hold && c.pwmControl && t.now - c.fanUpdateT > c.cfg.pwmUpdateS

def chooseDriven (t : Tick) (c : Control) : Driven :=
  (choosePwmDuty t c, if choosesDuty t c then [pwmDuty c] else [])

/-- The fan below the least feed: on for this part of the seconds, then off. -/
def modulateDriven (t : Tick) (total ratio : ℚ) (c : Control) : Driven :=
  if c.outputs.fan ∧ t.now - c.fanToggleT > total * ratio then
    ({ setOutput .fan false c with fanToggleT := t.now }, [])
  else if c.outputs.fan = false ∧ t.now - c.fanToggleT > total * (1 - ratio) then
    ({ fanOn c.dutyCycle c with fanToggleT := t.now }, (fanOnDriven c.dutyCycle c).2)
  else (c, [])

def fanPidChecked (t : Tick) (c : Control) : Option Driven :=
  let g := c.cfg
  let total := if c.sPlus then g.splusOnS + g.splusOffS else c.ccfg.cycleS
  (if c.sPlus then div? g.splusOnS total else some 1).bind fun maxRatio =>
    (div? c.uRaw g.uMin).map fun share => modulateDriven t total (max 0 share * maxRatio) c

def splusOnDriven (t : Tick) (c : Control) : Driven :=
  (splusFanOn t c,
    if c.cfg.dcFan ∧ c.cfg.splusRamp ∧ (c.mode = .smoke ∨ c.pwmControl = false) then
      [c.cfg.pwmMinDuty]
    else (fanOnDriven c.dutyCycle c).2)

def splusDriven (t : Tick) (c : Control) : Driven :=
  let g := c.cfg
  let fan := c.outputs.fan
  if readsAbove c.pitC g.splusMaxC ∨ readsBelow c.pitC g.minTargetC then
    if fan then (c, []) else fanOnDriven c.dutyCycle c
  else if fan ∧ t.now - c.fanToggleT > g.splusOnS then
    ({ setOutput .fan false c with fanToggleT := t.now }, [])
  else if fan = false ∧ t.now - c.fanToggleT > g.splusOffS then splusOnDriven t c
  else (c, [])

/-- The duty at the end of a ramp. -/
def rampTarget (g : Cfg) : ℤ := truncate (g.pwmMaxDuty * g.splusDuty / 100)

def rampChecked (t : Tick) (c : Control) : Option Driven :=
  if c.fanRamping then
    (div? (max 0 (c.rampEndT - t.now)) c.cfg.splusOnS).map fun left =>
      let frac := 1 - left
      let pct := truncate (c.cfg.pwmMinDuty + (rampTarget c.cfg - c.cfg.pwmMinDuty) * frac)
      let driven := setFanPct pct c
      (if frac ≥ 1 then { driven with fanRamping := false } else driven, [pct])
  else some (c, [])

def defaultDriven (c : Control) : Driven :=
  if c.outputs.fan = false then fanOnDriven c.dutyCycle c
  else
    (defaultFan c,
      if c.cfg.dcFan then
        let want := if c.pwmControl ∧ c.mode = .hold then c.dutyCycle else c.cfg.pwmMaxDuty
        (if c.pwmControl then [] else [c.cfg.pwmMaxDuty]) ++
          if c.outputs.fanPct ≠ want then [want] else []
      else [])

/-- `run_fan_logic`, and the duties it sets, unless it divides by zero. -/
def fanLogicChecked (t : Tick) (c : Control) : Option Driven :=
  if c.manualUntil.fan > t.now ∨ c.lidOpen then some (c, [])
  else
    let chosen := chooseDriven t c
    (if c.mode = .hold ∧ c.fanPidActive then fanPidChecked t chosen.1
    else if splusPhase c then
      let toggled := splusDriven t chosen.1
      (rampChecked t toggled.1).map fun ramped => (ramped.1, toggled.2 ++ ramped.2)
    else some (defaultDriven chosen.1)).map fun driven => (driven.1, chosen.2 ++ driven.2)

theorem splusDriven_eq (t : Tick) (c : Control) : (splusDriven t c).1 = splusToggle t c := by
  simp only [splusDriven, splusToggle]
  split_ifs <;> rfl

/-- A duty between the least and the greatest. -/
def Within (g : Cfg) (pct : ℤ) : Prop := g.pwmMinDuty ≤ pct ∧ pct ≤ g.pwmMaxDuty

instance (g : Cfg) (pct : ℤ) : Decidable (Within g pct) := inferInstanceAs (Decidable (_ ∧ _))

/-- Nothing is divided by zero, and every duty is within its limits. -/
def FanSound (t : Tick) (c : Control) : Prop :=
  ∃ d ∈ fanLogicChecked t c, ∀ pct ∈ d.2, Within c.cfg pct

instance (t : Tick) (c : Control) : Decidable (FanSound t c) :=
  inferInstanceAs (Decidable (∃ d ∈ fanLogicChecked t c, _))

/-- Settings under which the fan's divisors are not zero and its duties in order. -/
structure FanSettings (g : Cfg) : Prop where
  modulates : g.fanPid → g.uMin ≠ 0 ∧ g.splusOnS + g.splusOffS ≠ 0
  ordered : g.dcFan → g.pwmMinDuty ≤ g.pwmMaxDuty
  full : g.dcFan → 0 < g.pwmMinDuty ∨ 100 ≤ g.pwmMaxDuty
  ramps : g.dcFan → g.splusRamp → g.splusOnS ≠ 0 ∧ Within g (rampTarget g)

/-- What the fan logic goes by. -/
structure Blower where
  cfg : Cfg
  duty : ℤ
  pidActive : Bool
  ramping : Bool
  rampEndT : ℚ

/-- The duty in force is within its limits, and what is under way goes well by these
settings. -/
structure Blower.Fits (now : ℚ) (b : Blower) : Prop where
  settings : FanSettings b.cfg
  duty : b.cfg.dcFan → Within b.cfg b.duty
  modulated : b.pidActive → b.cfg.uMin ≠ 0 ∧ b.cfg.splusOnS + b.cfg.splusOffS ≠ 0
  ramp : b.ramping →
    b.cfg.splusOnS ≠ 0 ∧ Within b.cfg (rampTarget b.cfg) ∧ b.rampEndT - now ≤ b.cfg.splusOnS

/-- The fan is in order at this time. -/
def FanFits (now : ℚ) (c : Control) : Prop :=
  Blower.Fits now
    { cfg := c.cfg, duty := c.dutyCycle, pidActive := c.fanPidActive, ramping := c.fanRamping
      rampEndT := c.rampEndT }

section Duties

variable {t : Tick} {c : Control} {now : ℚ}

theorem FanFits.of (fits : Blower.Fits now
    { cfg := c.cfg, duty := c.dutyCycle, pidActive := c.fanPidActive, ramping := c.fanRamping
      rampEndT := c.rampEndT }) : FanFits now c := fits

theorem FanFits.ite {p : Prop} [Decidable p] {yes no : Control} (ifYes : FanFits now yes)
    (ifNo : FanFits now no) : FanFits now (if p then yes else no) := by
  split
  · exact ifYes
  · exact ifNo

theorem within_truncate {g : Cfg} {x : ℚ} (least : g.pwmMinDuty ≤ x) (most : x ≤ g.pwmMaxDuty) :
    Within g (truncate x) := by
  rw [truncate]
  split
  · constructor
    · exact Int.cast_le.mp (least.trans (Int.le_ceil x))
    · exact Int.ceil_le.mpr most
  · constructor
    · exact Int.le_floor.mpr least
    · exact Int.cast_le.mp ((Int.floor_le x).trans most)

theorem within_onDuty {g : Cfg} {pct : ℤ} (full : 0 < g.pwmMinDuty ∨ 100 ≤ g.pwmMaxDuty)
    (within : Within g pct) : Within g (onDuty pct) := by
  obtain ⟨least, most⟩ := within
  rw [onDuty]
  split
  · exact ⟨least, most⟩
  · constructor <;> omega

theorem within_fanOn (fits : FanFits now c) :
    ∀ pct ∈ (fanOnDriven c.dutyCycle c).2, Within c.cfg pct := by
  intro pct driven
  rw [fanOnDriven] at driven
  split at driven
  · next dc =>
      rw [List.mem_singleton.mp driven]
      exact within_onDuty (fits.settings.full dc) (fits.duty dc)
  · exact absurd driven List.not_mem_nil

theorem within_least {g : Cfg} (ordered : g.pwmMinDuty ≤ g.pwmMaxDuty) :
    Within g g.pwmMinDuty := ⟨le_rfl, ordered⟩

theorem within_most {g : Cfg} (ordered : g.pwmMinDuty ≤ g.pwmMaxDuty) :
    Within g g.pwmMaxDuty := ⟨ordered, le_rfl⟩

theorem within_clamp {g : Cfg} (x : ℚ) (ordered : g.pwmMinDuty ≤ g.pwmMaxDuty) :
    Within g (truncate (clamp x g.pwmMinDuty g.pwmMaxDuty)) := by
  have held : (g.pwmMinDuty : ℚ) ≤ clamp x g.pwmMinDuty g.pwmMaxDuty ∧
      clamp x g.pwmMinDuty g.pwmMaxDuty ≤ g.pwmMaxDuty := clamp_mem (Int.cast_le.mpr ordered)
  exact within_truncate held.1 held.2

theorem ramp_left {left span : ℚ} (some_ : span ≠ 0) (inside : left ≤ span) :
    0 ≤ max 0 left / span ∧ max 0 left / span ≤ 1 := by
  rcases lt_or_gt_of_ne some_ with negative | positive
  · rw [max_eq_left (inside.trans negative.le), zero_div]
    exact ⟨le_rfl, zero_le_one⟩
  · constructor
    · exact div_nonneg (le_max_left 0 left) positive.le
    · rw [div_le_one positive]
      exact max_le positive.le inside

theorem within_ramp {g : Cfg} {left : ℚ} (nonneg : 0 ≤ left) (most : left ≤ 1)
    (target : Within g (rampTarget g)) :
    Within g (truncate (g.pwmMinDuty + (rampTarget g - g.pwmMinDuty) * (1 - left))) := by
  have above : (g.pwmMinDuty : ℚ) ≤ rampTarget g := Int.cast_le.mpr target.1
  have below : (rampTarget g : ℚ) ≤ g.pwmMaxDuty := Int.cast_le.mpr target.2
  have climb : 0 ≤ (rampTarget g - g.pwmMinDuty : ℚ) := sub_nonneg.mpr above
  apply within_truncate
  · have risen : 0 ≤ (rampTarget g - g.pwmMinDuty : ℚ) * (1 - left) :=
      mul_nonneg climb (sub_nonneg.mpr most)
    linarith
  · have short : (rampTarget g - g.pwmMinDuty : ℚ) * (1 - left) ≤ rampTarget g - g.pwmMinDuty :=
      mul_le_of_le_one_right climb (by linarith)
    linarith

theorem fits_unramped (fits : FanFits now c) : FanFits now { c with fanRamping := false } := by
  constructor
  · exact fits.settings
  · exact fits.duty
  · exact fits.modulated
  · exact fun ramping => Bool.noConfusion ramping

theorem fits_fanOn (pct : ℤ) (fits : FanFits now c) : FanFits now (fanOn pct c) := by
  unfold fanOn
  simp only
  split
  · exact fits_unramped fits
  · exact fits_unramped fits

theorem fits_choosePwmDuty (fits : FanFits now c) : FanFits now (choosePwmDuty t c) := by
  refine FanFits.ite ?_ fits
  constructor
  · exact fits.settings
  · intro dc
    exact within_clamp _ (fits.settings.ordered dc)
  · exact fits.modulated
  · exact fits.ramp

theorem fits_fanPidLogic (fits : FanFits now c) : FanFits now (fanPidLogic t c) := by
  have blown : FanFits now (fanOn c.dutyCycle c) := fits_fanOn _ fits
  exact FanFits.ite fits (FanFits.ite blown fits)

theorem fits_splusFanOn (fits : FanFits t.now c) : FanFits t.now (splusFanOn t c) := by
  rw [splusFanOn]
  dsimp only
  split
  · next ramps =>
      constructor
      · exact fits.settings
      · exact fits.duty
      · exact fits.modulated
      · intro _
        obtain ⟨some_, target⟩ := fits.settings.ramps ramps.1 ramps.2.1
        refine ⟨some_, target, ?_⟩
        exact (add_sub_cancel_left t.now c.cfg.splusOnS).le
  · apply fits_fanOn
    exact fits

theorem fits_splusToggle (fits : FanFits t.now c) : FanFits t.now (splusToggle t c) := by
  refine FanFits.ite (FanFits.ite fits (fits_fanOn _ fits)) (FanFits.ite fits ?_)
  exact FanFits.ite (fits_splusFanOn fits) fits

theorem fits_rampFan (fits : FanFits now c) : FanFits now (rampFan t c) := by
  exact FanFits.ite (FanFits.ite (fits_unramped fits) fits) fits

theorem fits_defaultFan (fits : FanFits now c) : FanFits now (defaultFan c) := by
  have held :
      FanFits now (if c.pwmControl then c else { c with dutyCycle := c.cfg.pwmMaxDuty }) := by
    refine FanFits.ite fits ?_
    constructor
    · exact fits.settings
    · exact fun dc => within_most (fits.settings.ordered dc)
    · exact fits.modulated
    · exact fits.ramp
  exact FanFits.ite (fits_fanOn _ fits) (FanFits.ite (FanFits.ite held held) fits)

theorem fits_runFan (fits : FanFits t.now c) : FanFits t.now (runFan t c) := by
  have chosen := fits_choosePwmDuty (t := t) fits
  unfold runFan runFanLogic
  refine FanFits.ite (FanFits.ite fits ?_) fits
  refine FanFits.ite (fits_fanPidLogic chosen) (FanFits.ite ?_ (fits_defaultFan chosen))
  exact fits_rampFan (fits_splusToggle chosen)

theorem choosePwmDuty_cfg (t : Tick) (c : Control) : (choosePwmDuty t c).cfg = c.cfg := by
  unfold choosePwmDuty
  split <;> rfl

theorem sound_choose (fits : FanFits now c) :
    ∀ pct ∈ (chooseDriven t c).2, Within c.cfg pct := by
  intro pct driven
  rw [chooseDriven] at driven
  split at driven
  · next due =>
      have dc : c.cfg.dcFan = true := by
        simp only [choosesDuty, Bool.and_eq_true] at due
        exact due.1.1.1
      rw [List.mem_singleton.mp driven]
      exact within_clamp _ (fits.settings.ordered dc)
  · exact absurd driven List.not_mem_nil

theorem sound_modulate (fits : FanFits now c) (total ratio : ℚ) :
    ∀ pct ∈ (modulateDriven t total ratio c).2, Within c.cfg pct := by
  intro pct driven
  rw [modulateDriven] at driven
  split_ifs at driven
  · exact absurd driven List.not_mem_nil
  · exact within_fanOn fits pct driven
  · exact absurd driven List.not_mem_nil

theorem sound_fanPid (fits : FanFits now c) (modulated : c.fanPidActive = true) :
    ∃ d, fanPidChecked t c = some d ∧ ∀ pct ∈ d.2, Within c.cfg pct := by
  obtain ⟨least, cycle⟩ := fits.modulated modulated
  have share : div? c.uRaw c.cfg.uMin = some (c.uRaw / c.cfg.uMin) := if_neg least
  rw [fanPidChecked, share]
  cases plus : c.sPlus with
  | false => exact ⟨_, rfl, sound_modulate fits _ _⟩
  | true =>
      have most : div? c.cfg.splusOnS (c.cfg.splusOnS + c.cfg.splusOffS) = some _ := if_neg cycle
      simp only [if_true, most]
      exact ⟨_, rfl, sound_modulate fits _ _⟩

theorem sound_splus (fits : FanFits now c) :
    ∀ pct ∈ (splusDriven t c).2, Within c.cfg pct := by
  have on := within_fanOn fits
  intro pct driven
  simp only [splusDriven, splusOnDriven] at driven
  split_ifs at driven with outside off due ripe ramps
  · exact absurd driven List.not_mem_nil
  · exact on pct driven
  · exact absurd driven List.not_mem_nil
  · rw [List.mem_singleton.mp driven]
    exact within_least (fits.settings.ordered ramps.1)
  · exact on pct driven
  · exact absurd driven List.not_mem_nil

theorem sound_ramp (fits : FanFits t.now c) :
    ∃ d, rampChecked t c = some d ∧ ∀ pct ∈ d.2, Within c.cfg pct := by
  rw [rampChecked]
  split
  · next ramping =>
      obtain ⟨some_, target, inside⟩ := fits.ramp ramping
      have left : div? (max 0 (c.rampEndT - t.now)) c.cfg.splusOnS =
          some (max 0 (c.rampEndT - t.now) / c.cfg.splusOnS) := if_neg some_
      obtain ⟨nonneg, most⟩ := ramp_left some_ inside
      rw [left]
      refine ⟨_, rfl, ?_⟩
      intro pct driven
      rw [List.mem_singleton.mp driven]
      exact within_ramp nonneg most target
  · exact ⟨_, rfl, fun pct none_ => absurd none_ List.not_mem_nil⟩

theorem sound_default (fits : FanFits now c) :
    ∀ pct ∈ (defaultDriven c).2, Within c.cfg pct := by
  intro pct driven
  have most (dc : c.cfg.dcFan = true) := within_most (fits.settings.ordered dc)
  have wanted (dc : c.cfg.dcFan = true) : Within c.cfg
      (if c.pwmControl ∧ c.mode = .hold then c.dutyCycle else c.cfg.pwmMaxDuty) := by
    split
    · exact fits.duty dc
    · exact most dc
  simp only [defaultDriven] at driven
  split at driven
  · exact within_fanOn fits pct driven
  · dsimp only at driven
    split at driven
    · next dc =>
        rcases List.mem_append.mp driven with settled | wants
        · rw [List.mem_singleton.mp (List.mem_ite_nil_left.mp settled).2]
          exact most dc
        · rw [List.mem_singleton.mp (List.mem_ite_nil_right.mp wants).2]
          exact wanted dc
    · exact absurd driven List.not_mem_nil

theorem choosePwmDuty_pid (t : Tick) (c : Control) :
    (choosePwmDuty t c).fanPidActive = c.fanPidActive := by
  unfold choosePwmDuty
  split <;> rfl

theorem splusToggle_cfg (t : Tick) (c : Control) : (splusToggle t c).cfg = c.cfg := by
  have blown (pct : ℤ) (c : Control) : (fanOn pct c).cfg = c.cfg := by
    unfold fanOn
    simp only
    split <;> rfl
  simp only [splusToggle, splusFanOn]
  split_ifs
  all_goals first
    | rfl
    | exact blown _ _

/-- With the fan in order nothing is divided by zero and every duty is within its limits. -/
theorem fanSound_of_fits (fits : FanFits t.now c) : FanSound t c := by
  have chosen := fits_choosePwmDuty (t := t) fits
  have cfg := choosePwmDuty_cfg t c
  have duties := sound_choose (t := t) fits
  rw [FanSound]
  simp only [fanLogicChecked, Option.mem_def]
  split
  · exact ⟨_, rfl, fun pct none_ => absurd none_ List.not_mem_nil⟩
  · have done : ∃ d, (if c.mode = .hold ∧ c.fanPidActive then fanPidChecked t (chooseDriven t c).1
        else if splusPhase c then
          (rampChecked t (splusDriven t (chooseDriven t c).1).1).map fun ramped =>
            (ramped.1, (splusDriven t (chooseDriven t c).1).2 ++ ramped.2)
        else some (defaultDriven (chooseDriven t c).1)) = some d ∧
          ∀ pct ∈ d.2, Within c.cfg pct := by
      rw [← cfg]
      split_ifs with modulated phase
      · apply sound_fanPid chosen
        rw [choosePwmDuty_pid]
        exact modulated.2
      · have toggled := fits_splusToggle chosen
        have same := splusToggle_cfg t (choosePwmDuty t c)
        rw [← splusDriven_eq] at toggled same
        obtain ⟨ramped, drives, within⟩ := sound_ramp toggled
        refine ⟨_, congrArg (Option.map _) drives, ?_⟩
        intro pct inside
        rcases List.mem_append.mp inside with toggles | ramps
        · exact sound_splus chosen pct toggles
        · exact same ▸ within pct ramps
      · exact ⟨_, rfl, sound_default chosen⟩
    obtain ⟨d, driven, within⟩ := done
    rw [driven]
    refine ⟨_, rfl, ?_⟩
    intro pct inside
    rcases List.mem_append.mp inside with chose | then_
    · exact duties pct chose
    · exact within pct then_

end Duties

end PiFire
