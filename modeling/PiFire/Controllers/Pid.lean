import PiFire.Settings.Celsius
import PiFire.Transition.Run
import Mathlib.Tactic.FieldSimp

/-!
# The standard controller

A proportional band with an integral and a derivative. The gains come from the
configuration, and so does how far the integrator may wind: as far as the centre,
or as far as a full output where there is no centre. A controller that is handed
over a running grill starts its integrator where the output does not jump.

The bound is kept at every update that has a centre. Without one, only the hand-over
keeps it.
-/

namespace PiFire.Pid

open Transition Settings

/-! ## Doubles that may be NaN -/

def fmax : Option ℚ → Option ℚ → Option ℚ
  | none, y => y
  | some x, none => some x
  | some x, some y => some (max x y)

def fmin : Option ℚ → Option ℚ → Option ℚ
  | none, y => y
  | some x, none => some x
  | some x, some y => some (min x y)

/-- The difference of two doubles. -/
def minus : Option ℚ → Option ℚ → Option ℚ
  | some x, some y => some (x - y)
  | _, _ => none

/-! ## The controller -/

/-- `pid_t_`. -/
structure Controller where
  pbC : ℚ := 0
  ti : ℚ := 0
  td : ℚ := 0
  center : ℚ := 0
  kp : ℚ := 0
  ki : ℚ := 0
  kd : ℚ := 0
  inter : Option ℚ := some 0
  interMax : ℚ := 0
  lastPit : Option ℚ := some 0
  lastT : ℚ := 0
  haveLast : Bool := false
  p : Option ℚ := some 0
  i : Option ℚ := some 0
  d : Option ℚ := some 0
  u : Option ℚ := some 0

/-- What the controller reads of `pf_ctrl_in`. -/
structure CtrlIn where
  nowS : ℚ
  pitC : Option ℚ
  setpointC : Option ℚ
  uPrevApplied : Option ℚ
  cycleTimeS : ℚ

/-- What an update leaves in `pf_ctrl_dbg`. -/
structure CtrlDbg where
  p : Option ℚ
  i : Option ℚ
  d : Option ℚ
  ff : ℚ
  error : Option ℚ
  derivative : Option ℚ
  integral : Option ℚ

/-- `pf_pid_cfg_num`, also of a configuration that does not parse. -/
def cfgNum (c : Option Item) (key : String) (dflt : ℚ) : ℚ :=
  c.elim dflt fun c => pidCfgNum c key dflt

/-- `pf_pid_cfg_units`, also of a configuration that does not parse. -/
def cfgUnits (c : Option Item) : Units := c.elim .f pidCfgUnits

/-- How far the integrator may wind. -/
def windLimit (center ki : ℚ) : ℚ :=
  if ki ≠ 0 then |(if center ≠ 0 then center else 1) / ki| else 0

def calcGains (s : Controller) : Controller :=
  let kp := if s.pbC = 0 then 0 else -1 / s.pbC
  let ki := if s.ti = 0 then 0 else kp / s.ti
  { s with kp := kp, ki := ki, kd := kp * s.td, interMax := windLimit s.center ki }

def applyConfig (s : Controller) (c : Option Item) : Controller :=
  calcGains
    { s with
      pbC := deltaToC (cfgNum c "PB" 60) (cfgUnits c)
      ti := cfgNum c "Ti" 180
      td := cfgNum c "Td" 45
      center := cfgNum c "center" (1 / 2) }

def create (c : Option Item) : Controller := applyConfig {} c

/-- An integrator held within how far it may wind. -/
def Controller.hold (s : Controller) (x : Option ℚ) : Option ℚ :=
  fmax (some (-s.interMax)) (fmin (some s.interMax) x)

def reset (s : Controller) (input : CtrlIn) : Controller :=
  let e := minus input.pitC input.setpointC
  let p := e.map fun e => s.kp * e + s.center
  let wantI := minus input.uPrevApplied p
  let inter := if s.ki ≠ 0 then wantI.map (· / s.ki) else some 0
  { s with
    lastPit := input.pitC
    lastT := input.nowS
    haveLast := true
    inter := if 0 < s.interMax then s.hold inter else inter }

/-- The seconds an update integrates. -/
def elapsed (s : Controller) (input : CtrlIn) : ℚ :=
  let dt := input.nowS - s.lastT
  if dt ≤ 0 then (if 0 < input.cycleTimeS then input.cycleTimeS else 1) else dt

/-- The integrator after an update. An accumulator that is no number is thrown away, and
an error that is none is not integrated. -/
def Controller.integrate (s : Controller) (e : Option ℚ) (dt : ℚ) : Option ℚ :=
  let inter := some (s.inter.getD 0 + e.elim 0 (· * dt))
  -- the clamp is left out where there is no centre, though the limit is worked out there too
  if s.center ≠ 0 then s.hold inter else inter

def update (s : Controller) (input : CtrlIn) : Controller × CtrlDbg :=
  let s := if s.haveLast then s else reset s input
  let dt := elapsed s input
  let e := minus input.pitC input.setpointC
  let p := e.map fun e => s.kp * e + s.center
  let inter := s.integrate e dt
  let i := inter.map (s.ki * ·)
  let derv := (minus input.pitC s.lastPit).map (· / dt)
  let d := derv.map (s.kd * ·)
  let sum := p.bind fun p => i.bind fun i => d.map (p + i + ·)
  ({ s with
     inter := inter
     p := p
     i := i
     d := d
     u := fmax (some (-1)) (fmin (some 2) sum)
     lastPit := input.pitC
     lastT := input.nowS },
   { p := p, i := i, d := d, ff := 0, error := e, derivative := derv, integral := inter })

def configure (s : Controller) (c : Option Item) : Controller :=
  { applyConfig s c with inter := some 0, haveLast := false }

/-- What the control loop does to a controller. -/
inductive Call where
  | reset (input : CtrlIn)
  | update (input : CtrlIn)
  | configure (c : Option Item)

def call : Call → Controller → Controller
  | .reset input, s => reset s input
  | .update input, s => (update s input).1
  | .configure c, s => configure s c

/-! ## The output -/

theorem fmax_fmin_mem {lo hi : ℚ} (ordered : lo ≤ hi) (x : Option ℚ) :
    ∃ y, fmax (some lo) (fmin (some hi) x) = some y ∧ lo ≤ y ∧ y ≤ hi := by
  cases x with
  | none => exact ⟨max lo hi, rfl, le_max_left lo hi, max_le ordered le_rfl⟩
  | some x =>
      refine ⟨max lo (min hi x), rfl, le_max_left _ _, ?_⟩
      exact max_le ordered (min_le_left hi x)

theorem fmax_fmin_eq_self {lo hi x : ℚ} (above : lo ≤ x) (below : x ≤ hi) :
    fmax (some lo) (fmin (some hi) (some x)) = some x := by
  simp only [fmax, fmin, min_eq_right below, max_eq_right above]

/-! ## The integral term -/

/-- The largest share of the output that is the integral term's: the centre's, or all of
it where there is no centre. -/
def Controller.share (s : Controller) : ℚ := if s.center ≠ 0 then |s.center| else 1

/-- The accumulated integral term is a number within its share. -/
def Within (s : Controller) : Prop :=
  ∃ x, s.inter = some x ∧ |s.ki * x| ≤ s.share

/-- The limit belongs to the gains. -/
def Geared (s : Controller) : Prop := s.interMax = windLimit s.center s.ki

/-- The configuration has a centre, or it has no integral: a band or an integral time of
nothing. -/
def Bounded (c : Option Item) : Prop :=
  cfgNum c "center" (1 / 2) ≠ 0 ∨ cfgNum c "PB" 60 = 0 ∨ cfgNum c "Ti" 180 = 0

/-- The gains a controller works with came from a configuration that is bounded. -/
def Limited (s : Controller) : Prop := s.center ≠ 0 ∨ s.ki = 0

theorem share_nonneg (s : Controller) : 0 ≤ s.share := by
  unfold Controller.share
  split_ifs
  · exact abs_nonneg _
  · exact zero_le_one

theorem windLimit_pos {center ki : ℚ} (winds : ki ≠ 0) : 0 < windLimit center ki := by
  rw [windLimit, if_pos winds, abs_pos]
  apply div_ne_zero _ winds
  split_ifs with centred
  · exact centred
  · exact one_ne_zero

theorem windLimit_nonneg (center ki : ℚ) : 0 ≤ windLimit center ki := by
  by_cases winds : ki = 0
  · rw [windLimit, if_neg (not_not.mpr winds)]
  · exact (windLimit_pos winds).le

theorem abs_ki_mul_interMax {s : Controller} (geared : Geared s) (winds : s.ki ≠ 0) :
    |s.ki| * s.interMax = s.share := by
  have apart : |s.ki| ≠ 0 := abs_ne_zero.mpr winds
  rw [geared, windLimit, if_pos winds, abs_div, mul_div_cancel₀ _ apart, Controller.share]
  split_ifs
  · rfl
  · exact abs_one

theorem within_of_abs_le {s : Controller} {x : ℚ} (geared : Geared s) (here : s.inter = some x)
    (bound : |x| ≤ s.interMax) : Within s := by
  refine ⟨x, here, ?_⟩
  by_cases winds : s.ki = 0
  · rw [winds, zero_mul, abs_zero]
    exact share_nonneg s
  · calc
      |s.ki * x| = |s.ki| * |x| := abs_mul _ _
      _ ≤ |s.ki| * s.interMax := mul_le_mul_of_nonneg_left bound (abs_nonneg _)
      _ = s.share := abs_ki_mul_interMax geared winds

theorem hold_bounded {s : Controller} (geared : Geared s) (x : Option ℚ) :
    ∃ y, s.hold x = some y ∧ |y| ≤ s.interMax := by
  have room : 0 ≤ s.interMax := by
    rw [geared]
    exact windLimit_nonneg _ _
  rcases fmax_fmin_mem (by linarith : -s.interMax ≤ s.interMax) x with ⟨y, held, below, above⟩
  exact ⟨y, held, abs_le.mpr ⟨below, above⟩⟩

/-! ## What each call keeps -/

theorem geared_calcGains (s : Controller) : Geared (calcGains s) := rfl

theorem geared_applyConfig (s : Controller) (c : Option Item) : Geared (applyConfig s c) :=
  geared_calcGains _

theorem deltaToC_eq_zero {d : ℚ} {u : Units} : deltaToC d u = 0 ↔ d = 0 := by
  cases u with
  | f =>
      constructor
      · intro nothing
        simp only [deltaToC] at nothing
        linarith
      · rintro rfl
        norm_num [deltaToC]
  | c => exact Iff.rfl

theorem applyConfig_ki_eq_zero (s : Controller) (c : Option Item) :
    (applyConfig s c).ki = 0 ↔ cfgNum c "PB" 60 = 0 ∨ cfgNum c "Ti" 180 = 0 := by
  rw [← deltaToC_eq_zero (d := cfgNum c "PB" 60) (u := cfgUnits c)]
  simp only [applyConfig, calcGains]
  split_ifs with noTime noBand
  · simp [noTime]
  · simp [noBand]
  · simp [noTime, noBand]

theorem limited_applyConfig (s : Controller) (c : Option Item) :
    Limited (applyConfig s c) ↔ Bounded c :=
  or_congr Iff.rfl (applyConfig_ki_eq_zero s c)

theorem within_reset {s : Controller} (geared : Geared s) (input : CtrlIn) :
    Within (reset s input) := by
  by_cases winds : s.ki = 0
  · -- with no integral there is nothing to wind, and the accumulator starts at nothing
    have still : s.interMax = 0 := by
      rw [geared, windLimit, if_neg (not_not.mpr winds)]
    refine within_of_abs_le (x := 0) geared ?_ ?_
    · simp [reset, winds, still]
    · exact (abs_zero.trans still.symm).le
  · have room : 0 < s.interMax := by
      rw [geared]
      exact windLimit_pos winds
    rcases hold_bounded geared
        (if s.ki ≠ 0 then
          (minus input.uPrevApplied
            ((minus input.pitC input.setpointC).map fun e => s.kp * e + s.center)).map (· / s.ki)
        else some 0) with ⟨y, held, bound⟩
    refine within_of_abs_le (x := y) geared ?_ bound
    simp only [reset]
    rw [if_pos room]
    exact held

theorem reset_bumpless {s : Controller} {input : CtrlIn} {e applied : ℚ} (geared : Geared s)
    (winds : s.ki ≠ 0) (off : minus input.pitC input.setpointC = some e)
    (before : input.uPrevApplied = some applied)
    (room : |applied - (s.kp * e + s.center)| ≤ s.share) :
    ∃ x, (reset s input).inter = some x ∧ s.kp * e + s.center + s.ki * x = applied := by
  have steep : 0 < |s.ki| := abs_pos.mpr winds
  have fits : |(applied - (s.kp * e + s.center)) / s.ki| ≤ s.interMax := by
    rw [abs_div, div_le_iff₀ steep, mul_comm s.interMax, abs_ki_mul_interMax geared winds]
    exact room
  refine ⟨(applied - (s.kp * e + s.center)) / s.ki, ?_, by field_simp; ring⟩
  have want : minus (some applied) (some (s.kp * e + s.center)) =
    some (applied - (s.kp * e + s.center)) := rfl
  simp only [reset, off, before, want, Option.map_some]
  rw [if_pos winds]
  split_ifs
  · exact fmax_fmin_eq_self (abs_le.mp fits).1 (abs_le.mp fits).2
  · rfl

/-- The controller an update integrates with. -/
def ready (s : Controller) (input : CtrlIn) : Controller :=
  if s.haveLast then s else reset s input

theorem update_inter (s : Controller) (input : CtrlIn) :
    (update s input).1.inter =
      (ready s input).integrate (minus input.pitC input.setpointC)
        (elapsed (ready s input) input) := rfl

theorem ready_gains (s : Controller) (input : CtrlIn) :
    (ready s input).center = s.center ∧ (ready s input).ki = s.ki ∧
      (ready s input).interMax = s.interMax := by
  unfold ready
  split_ifs <;> exact ⟨rfl, rfl, rfl⟩

theorem update_gains (s : Controller) (input : CtrlIn) :
    (update s input).1.center = s.center ∧ (update s input).1.ki = s.ki ∧
      (update s input).1.interMax = s.interMax :=
  ready_gains s input

theorem within_update {s : Controller} (geared : Geared s) (limited : Limited s)
    (input : CtrlIn) : Within (update s input).1 := by
  obtain ⟨center, ki, interMax⟩ := update_gains s input
  have stays : Geared (update s input).1 := by
    unfold Geared
    rw [center, ki, interMax]
    exact geared
  have readied : Geared (ready s input) := stays
  rcases limited with centred | still
  · have clamped : (ready s input).center ≠ 0 := (ready_gains s input).1 ▸ centred
    rcases hold_bounded readied
        (some ((ready s input).inter.getD 0 +
          (minus input.pitC input.setpointC).elim 0 (· * elapsed (ready s input) input)))
      with ⟨y, held, bound⟩
    refine within_of_abs_le (x := y) stays ?_ bound
    rw [update_inter]
    simp only [Controller.integrate]
    rw [if_pos clamped]
    exact held
  · -- with no integral gain the accumulator may wind, and its term stays nothing
    have number : ∃ x, (update s input).1.inter = some x := by
      rw [update_inter]
      simp only [Controller.integrate]
      split_ifs
      · exact (hold_bounded readied _).imp fun y held => held.1
      · exact ⟨_, rfl⟩
    rcases number with ⟨x, here⟩
    refine ⟨x, here, ?_⟩
    rw [ki, still, zero_mul, abs_zero]
    exact share_nonneg _

/-- What every call keeps while each configuration is bounded. -/
structure Steady (s : Controller) : Prop where
  geared : Geared s
  limited : Limited s
  within : Within s

theorem steady_of_configured {s : Controller} {c : Option Item} (bounded : Bounded c)
    (start : s.inter = some 0) (same : ∃ before, s.center = (applyConfig before c).center ∧
      s.ki = (applyConfig before c).ki ∧ s.interMax = (applyConfig before c).interMax) :
    Steady s := by
  rcases same with ⟨before, center, ki, interMax⟩
  have geared : Geared s := by
    unfold Geared
    rw [center, ki, interMax]
    exact geared_applyConfig before c
  refine ⟨geared, ?_, within_of_abs_le geared start ?_⟩
  · unfold Limited
    rw [center, ki]
    exact (limited_applyConfig before c).mpr bounded
  · rw [abs_zero, geared]
    exact windLimit_nonneg _ _

theorem steady_create {c : Option Item} (bounded : Bounded c) : Steady (create c) :=
  steady_of_configured bounded rfl ⟨{}, rfl, rfl, rfl⟩

theorem steady_call (next : Call) (s : Controller) (steady : Steady s)
    (bounded : ∀ c, next = .configure c → Bounded c) : Steady (call next s) := by
  cases next with
  | reset input =>
      exact ⟨steady.geared, steady.limited, within_reset steady.geared input⟩
  | update input =>
      obtain ⟨center, ki, interMax⟩ := update_gains s input
      refine ⟨?_, ?_, within_update steady.geared steady.limited input⟩
      · change (update s input).1.interMax = _
        rw [interMax]
        change _ = windLimit (update s input).1.center (update s input).1.ki
        rw [center, ki]
        exact steady.geared
      · change (update s input).1.center ≠ 0 ∨ (update s input).1.ki = 0
        rw [center, ki]
        exact steady.limited
  | configure c =>
      exact steady_of_configured (bounded c rfl) rfl ⟨s, rfl, rfl, rfl⟩

theorem steady_run {c : Option Item} {calls : List Call} (bounded : Bounded c)
    (others : ∀ other, Call.configure other ∈ calls → Bounded other) :
    Steady (run call calls (create c)) := by
  refine run_preserves (fun next _ => ∀ c, next = .configure c → Bounded c) Steady
    (fun next s => steady_call next s) (steady_create bounded) ?_
  apply along_of_forall
  rintro next inside s other rfl
  exact others other inside

/-! ## A controller without a centre -/

/-- A look at a pit that is off its set point by a number of degrees. -/
def offBy (degrees now : ℚ) : CtrlIn :=
  { nowS := now
    pitC := some degrees
    setpointC := some 0
    uPrevApplied := some 0
    cycleTimeS := 20 }

theorem update_level {c : Option Item} (centreless : (create c).center = 0) :
    (update (create c) (offBy 0 0)).1.inter = some 0 ∧
      (update (create c) (offBy 0 0)).1.haveLast = true ∧
      (update (create c) (offBy 0 0)).1.lastT = 0 := by
  have room : 0 ≤ (create c).interMax := windLimit_nonneg _ _
  have start : (reset (create c) (offBy 0 0)).inter = some 0 := by
    simp only [reset, offBy, minus, Option.map_some, centreless, sub_self, mul_zero, add_zero,
      zero_div, ite_self]
    split_ifs
    · exact fmax_fmin_eq_self (by linarith) room
    · rfl
  refine ⟨?_, rfl, rfl⟩
  rw [update_inter]
  change (reset (create c) (offBy 0 0)).integrate _ _ = _
  have still : (reset (create c) (offBy 0 0)).center = 0 := centreless
  simp only [Controller.integrate]
  rw [start, if_neg (not_not.mpr still)]
  simp [offBy, minus]

theorem winds_past {c : Option Item} (centreless : (create c).center = 0)
    (winds : (create c).ki ≠ 0) :
    ¬Within (run call [.update (offBy 0 0), .update (offBy ((create c).interMax + 1) 1)]
      (create c)) := by
  obtain ⟨start, ready_, clock⟩ := update_level centreless
  simp only [run_cons, run_nil, call]
  generalize held : (update (create c) (offBy 0 0)).1 = s at start ready_ clock
  have gains := update_gains (create c) (offBy 0 0)
  rw [held] at gains
  obtain ⟨center, ki, interMax⟩ := gains
  have next := update_gains s (offBy ((create c).interMax + 1) 1)
  have inter : (update s (offBy ((create c).interMax + 1) 1)).1.inter =
      some ((create c).interMax + 1) := by
    rw [update_inter]
    have same : ready s (offBy ((create c).interMax + 1) 1) = s := if_pos ready_
    rw [same]
    simp only [Controller.integrate]
    rw [if_neg (not_not.mpr (center.trans centreless)), start]
    simp [offBy, minus, elapsed, clock]
  rintro ⟨x, here, bound⟩
  rw [inter] at here
  cases here
  have share : (update s (offBy ((create c).interMax + 1) 1)).1.share = (create c).share := by
    simp only [Controller.share, next.1, center]
  have positive : 0 < |(create c).ki| := abs_pos.mpr winds
  have room : 0 ≤ (create c).interMax := windLimit_nonneg _ _
  have full : |(create c).ki| * (create c).interMax = (create c).share :=
    abs_ki_mul_interMax (geared_applyConfig {} c) winds
  rw [share, next.2.1, ki, abs_mul, abs_of_nonneg (by linarith : 0 ≤ (create c).interMax + 1),
    mul_add, full, mul_one] at bound
  linarith

/-- The integral term stays within its share over every run with the configurations in
use exactly when each of them has a centre or no integral. -/
theorem integral_within_share_iff (used : Option Item → Prop) :
    (∀ c calls, used c → (∀ other, Call.configure other ∈ calls → used other) →
      Within (run call calls (create c))) ↔
      ∀ c, used c → Bounded c := by
  constructor
  · intro kept c inUse
    by_contra unbounded
    have unlimited : ¬Limited (create c) := mt (limited_applyConfig {} c).mp unbounded
    simp only [Limited, not_or, not_not] at unlimited
    apply winds_past unlimited.1 unlimited.2
    apply kept c _ inUse
    intro other inside
    simp at inside
  · intro bounded c calls inUse others
    apply (steady_run (bounded c inUse) _).within
    intro other inside
    exact bounded other (others other inside)

/-- A controller's configuration that sets the centre to nothing. -/
def centreless : Item :=
  Item.object [("PB", Item.number 60), ("Td", Item.number 45), ("Ti", Item.number 180),
    ("center", Item.number 0), ("_units", Item.text "C")]

/-- A pit 200 degrees too hot for a minute and a half: the integral term is past a full
output. -/
theorem centreless_winds_up :
    ¬∀ calls, Within (run call calls (create (some centreless))) := by
  intro kept
  rcases kept [.update (offBy 0 0), .update (offBy 200 90)] with ⟨x, here, bound⟩
  have wound : (run call [.update (offBy 0 0), .update (offBy 200 90)]
      (create (some centreless))).inter = some 18000 := by
    decide +kernel
  rw [wound] at here
  cases here
  revert bound
  decide +kernel

end PiFire.Pid
