import PiFire.Controllers.Pid
import PiFire.Doubles.Extended

/-!
# The feed for any reading

The standard controller on doubles that may be infinite, and the feed ratio the control loop
makes of its output. Whatever is read, the ratio is within its limits. A reading that is a
number never does more; one that is none can bring the feed to its upper limit, at once or
with the reading after it, since a NaN gives way to the upper bound of the output.
-/

namespace PiFire.Pid

open Transition Doubles Value

/-! ## The controller -/

/-- `pid_t_`, with what doubles can hold. -/
structure Raw where
  center : ℚ
  kp : ℚ
  ki : ℚ
  kd : ℚ
  interMax : ℚ
  inter : Value ℚ
  lastPit : Value ℚ
  lastT : ℚ
  haveLast : Bool
  u : Value ℚ

/-- What the controller reads of `pf_ctrl_in`, with any reading of the pit. -/
structure Reading where
  nowS : ℚ
  pitC : Value ℚ
  setpointC : ℚ
  uPrevApplied : ℚ
  cycleTimeS : ℚ

namespace Raw

/-- `reset` -/
def reset (s : Raw) (r : Reading) : Raw :=
  let e := sub r.pitC (fin r.setpointC)
  let p := add (scale s.kp e) (fin s.center)
  let wantI := sub (fin r.uPrevApplied) p
  let inter := if s.ki ≠ 0 then divide wantI s.ki else fin 0
  { s with
    lastPit := r.pitC
    lastT := r.nowS
    haveLast := true
    inter := if 0 < s.interMax then held (-s.interMax) s.interMax inter else inter }

/-- The seconds an update integrates. -/
def elapsed (s : Raw) (r : Reading) : ℚ :=
  let dt := r.nowS - s.lastT
  if dt ≤ 0 then (if 0 < r.cycleTimeS then r.cycleTimeS else 1) else dt

/-- The accumulator after an update. -/
def integrate (s : Raw) (e : Value ℚ) (dt : ℚ) : Value ℚ :=
  let inter := if s.inter.isFinite then s.inter else fin 0
  let inter := if e.isFinite then add inter (scale dt e) else inter
  if s.center ≠ 0 then held (-s.interMax) s.interMax inter else inter

/-- The sum of the three terms. -/
def total (s : Raw) (r : Reading) : Value ℚ :=
  let dt := s.elapsed r
  let e := sub r.pitC (fin r.setpointC)
  let p := add (scale s.kp e) (fin s.center)
  let i := scale s.ki (s.integrate e dt)
  let d := scale s.kd (divide (sub r.pitC s.lastPit) dt)
  add (add p i) d

/-- The controller an update finds. -/
def ready (s : Raw) (r : Reading) : Raw := if s.haveLast then s else s.reset r

/-- `update`; its output is `u`. -/
def update (s : Raw) (r : Reading) : Raw :=
  let s := s.ready r
  { s with
    inter := s.integrate (sub r.pitC (fin r.setpointC)) (s.elapsed r)
    u := held (-1) 2 (s.total r)
    lastPit := r.pitC
    lastT := r.nowS }

end Raw

/-! ## The same controller, where nothing is infinite -/

/-- A double that may be NaN. -/
def widen : Option ℚ → Value ℚ
  | some x => fin x
  | none => nan

def Controller.raw (s : Controller) : Raw where
  center := s.center
  kp := s.kp
  ki := s.ki
  kd := s.kd
  interMax := s.interMax
  inter := widen s.inter
  lastPit := widen s.lastPit
  lastT := s.lastT
  haveLast := s.haveLast
  u := widen s.u

def CtrlIn.reading (input : CtrlIn) (setpointC uPrevApplied : ℚ) : Reading where
  nowS := input.nowS
  pitC := widen input.pitC
  setpointC := setpointC
  uPrevApplied := uPrevApplied
  cycleTimeS := input.cycleTimeS

theorem widen_minus (x y : Option ℚ) : widen (minus x y) = sub (widen x) (widen y) := by
  cases x <;> cases y <;> simp [widen, minus]

theorem widen_hold (lo hi : ℚ) (x : Option ℚ) :
    widen (fmax (some lo) (fmin (some hi) x)) = held lo hi (widen x) := by
  cases x <;> rfl

theorem widen_proportional (s : Controller) (e : Option ℚ) :
    widen (e.map fun e => s.kp * e + s.center) =
      add (scale s.kp (widen e)) (fin s.center) := by
  cases e <;> rfl

theorem reset_raw (s : Controller) {input : CtrlIn} {setpoint applied : ℚ}
    (aimed : input.setpointC = some setpoint) (fed : input.uPrevApplied = some applied) :
    (Pid.reset s input).raw = s.raw.reset (input.reading setpoint applied) := by
  have e : widen (minus input.pitC input.setpointC) = sub (widen input.pitC) (fin setpoint) := by
    rw [widen_minus, aimed]
    rfl
  have start : widen (if s.ki ≠ 0 then
      (minus input.uPrevApplied ((minus input.pitC input.setpointC).map
        fun e => s.kp * e + s.center)).map (· / s.ki) else some 0) =
      if s.ki ≠ 0 then divide (sub (fin applied)
        (add (scale s.kp (sub (widen input.pitC) (fin setpoint))) (fin s.center))) s.ki
      else fin 0 := by
    rw [← e, ← widen_proportional]
    split_ifs with winds
    · rw [fed]
      cases minus input.pitC input.setpointC with
      | none => rfl
      | some e => simp [widen, minus]
    · rfl
  have inter : widen (Pid.reset s input).inter =
      (s.raw.reset (input.reading setpoint applied)).inter := by
    change widen (if 0 < s.interMax then s.hold _ else _) =
      if 0 < s.interMax then held (-s.interMax) s.interMax _ else _
    by_cases room : 0 < s.interMax
    · rw [if_pos room, if_pos room]
      exact (widen_hold _ _ _).trans (congrArg (held _ _) start)
    · rw [if_neg room, if_neg room]
      exact start
  have rest : (Pid.reset s input).raw =
      { s.raw.reset (input.reading setpoint applied) with
        inter := widen (Pid.reset s input).inter } := rfl
  rw [rest, inter]

theorem integrate_raw (s : Controller) (e : Option ℚ) (dt : ℚ) :
    widen (s.integrate e dt) = s.raw.integrate (widen e) dt := by
  have sum : widen (some (s.inter.getD 0 + e.elim 0 (· * dt))) =
      if (widen e).isFinite then
        add (if (widen s.inter).isFinite then widen s.inter else fin 0) (scale dt (widen e))
      else if (widen s.inter).isFinite then widen s.inter else fin 0 := by
    cases s.inter <;> cases e <;> simp [widen, isFinite, mul_comm]
  change widen (if s.center ≠ 0 then s.hold _ else _) =
    if s.center ≠ 0 then held (-s.interMax) s.interMax _ else _
  by_cases centred : s.center ≠ 0
  · rw [if_pos centred, if_pos centred]
    exact (widen_hold _ _ _).trans (congrArg (held _ _) sum)
  · rw [if_neg centred, if_neg centred]
    exact sum

theorem ready_raw (s : Controller) {input : CtrlIn} {setpoint applied : ℚ}
    (aimed : input.setpointC = some setpoint) (fed : input.uPrevApplied = some applied) :
    (Pid.ready s input).raw = s.raw.ready (input.reading setpoint applied) := by
  have found : s.raw.haveLast = s.haveLast := rfl
  rw [Pid.ready, Raw.ready, found]
  split_ifs
  · rfl
  · exact reset_raw s aimed fed

theorem widen_scale (c : ℚ) (x : Option ℚ) : widen (x.map (c * ·)) = scale c (widen x) := by
  cases x <;> rfl

theorem widen_divide (c : ℚ) (x : Option ℚ) : widen (x.map (· / c)) = divide (widen x) c := by
  cases x with
  | none => rfl
  | some x => exact (divide_fin x c).symm

theorem widen_sum (p i d : Option ℚ) :
    widen (p.bind fun p => i.bind fun i => d.map (p + i + ·)) =
      add (add (widen p) (widen i)) (widen d) := by
  cases p with
  | none => rfl
  | some p =>
      cases i with
      | none => rfl
      | some i => cases d <;> rfl

/-- Where no double is infinite, the two controllers answer alike. -/
theorem update_raw (s : Controller) {input : CtrlIn} {setpoint applied : ℚ}
    (aimed : input.setpointC = some setpoint) (fed : input.uPrevApplied = some applied) :
    (Pid.update s input).1.raw = s.raw.update (input.reading setpoint applied) := by
  have e : widen (minus input.pitC input.setpointC) = sub (widen input.pitC) (fin setpoint) := by
    rw [widen_minus, aimed]
    rfl
  rw [Raw.update, ← ready_raw s aimed fed]
  have same : ∀ t : Controller, Pid.ready s input = t →
      (Pid.update s input).1.raw = { t.raw with
        inter := widen (t.integrate (minus input.pitC input.setpointC) (Pid.elapsed t input))
        u := widen (Pid.update s input).1.u
        lastPit := widen input.pitC
        lastT := input.nowS } := by
    rintro t rfl
    rfl
  have output : ∀ t : Controller, Pid.ready s input = t →
      widen (Pid.update s input).1.u =
        held (-1) 2 (t.raw.total (input.reading setpoint applied)) := by
    rintro t rfl
    refine (widen_hold _ _ _).trans (congrArg (held (-1) 2) ?_)
    rw [widen_sum, widen_proportional, widen_scale, widen_scale, widen_divide, integrate_raw, e,
      widen_minus]
    rfl
  rw [same _ rfl, output _ rfl, integrate_raw, e]
  rfl

/-! ## What reaches the auger -/

/-- The least and the most that may be fed, as the settings are checked. -/
structure Limits where
  uMin : ℚ
  uMax : ℚ
  nonneg : 0 ≤ uMin
  ordered : uMin < uMax
  below : uMax ≤ 1

/-- What `run_hold_cycle` takes from the controller: an answer that is no number, or one far
out, counts as the least. -/
def checked (uMin : ℚ) : Value ℚ → ℚ
  | fin u => if u < -5 ∨ 5 < u then uMin else u
  | _ => uMin

namespace Limits

variable (l : Limits)

/-- The ratio `pf_cycle_begin` holds to the limits. -/
def ratio (u : ℚ) : ℚ :=
  let low := if u < l.uMin then l.uMin else u
  if l.uMax < low then l.uMax else low

/-- The ratio the next auger cycle is given. -/
def feed (s : Raw) : ℚ := l.ratio (checked l.uMin s.u)

/-- The cycle within these limits. -/
def cycleCfg (cycleS maxOnS : ℚ) : CycleCfg where
  cycleS := cycleS
  uMin := l.uMin
  uMax := l.uMax
  maxOnS := maxOnS

theorem ratio_mem (u : ℚ) : l.uMin ≤ l.ratio u ∧ l.ratio u ≤ l.uMax := by
  have ordered := l.ordered
  simp only [ratio]
  split_ifs
  all_goals constructor <;> linarith

theorem feed_of_full {s : Raw} (full : s.u = fin 2) : l.feed s = l.uMax := by
  have asked : checked l.uMin s.u = 2 := by
    rw [full, checked, if_neg (by norm_num)]
  have above : l.uMax < 2 := lt_of_le_of_lt l.below (by norm_num)
  have high : ¬(2 : ℚ) < l.uMin := (l.ordered.trans above).not_gt
  rw [feed, asked]
  simp only [ratio]
  rw [if_neg high, if_pos above]

theorem feed_of_low {s : Raw} {u : ℚ} (output : s.u = fin u) (low : u ≤ l.uMin) :
    l.feed s = l.uMin := by
  have asked : checked l.uMin s.u ≤ l.uMin := by
    rw [output, checked]
    split_ifs
    · exact le_rfl
    · exact low
  have raised : (if checked l.uMin s.u < l.uMin then l.uMin else checked l.uMin s.u) =
      l.uMin := by
    split_ifs with less
    · rfl
    · exact le_antisymm asked (not_lt.mp less)
  rw [feed, ratio, raised, if_neg l.ordered.not_gt]

end Limits

/-! ## The output after any reading -/

namespace Raw

theorem update_u (s : Raw) (r : Reading) : (s.update r).u = held (-1) 2 ((s.ready r).total r) :=
  rfl

theorem elapsed_pos (s : Raw) (r : Reading) : 0 < s.elapsed r := by
  simp only [elapsed]
  split_ifs with still timed
  · exact timed
  · exact one_pos
  · exact not_le.mp still

theorem integrate_finite (s : Raw) (e : Value ℚ) (dt : ℚ) : ∃ x, s.integrate e dt = fin x := by
  have start : ∃ x, (if s.inter.isFinite then s.inter else fin 0) = fin x := by
    cases s.inter with
    | fin x => exact ⟨x, rfl⟩
    | inf up => exact ⟨0, rfl⟩
    | nan => exact ⟨0, rfl⟩
  rcases start with ⟨x, start⟩
  have sum : ∃ y, (if e.isFinite then add (fin x) (scale dt e) else fin x) = fin y := by
    cases e with
    | fin e => exact ⟨x + dt * e, rfl⟩
    | inf up => exact ⟨x, rfl⟩
    | nan => exact ⟨x, rfl⟩
  rcases sum with ⟨y, sum⟩
  simp only [integrate, start, sum]
  split_ifs
  · exact ⟨_, rfl⟩
  · exact ⟨y, rfl⟩

theorem total_of_not_finite {s : Raw} {r : Reading} (unread : ¬r.pitC.isFinite) :
    s.total r = nan ∨ s.total r = inf true ∨
      ∃ up, r.pitC = inf up ∧ scale s.kp (inf up) = inf false ∧
        scale s.kd (inf up) = inf false ∧ sub (inf up) s.lastPit = inf up := by
  rcases s.integrate_finite (sub r.pitC (fin r.setpointC)) (s.elapsed r) with ⟨x, inter⟩
  simp only [total, inter, scale_fin]
  cases read : r.pitC with
  | fin x => exact absurd (by rw [read]; rfl) unread
  | nan => exact Or.inl rfl
  | inf up =>
      rw [inf_sub_fin]
      rcases inf_sub_cases up s.lastPit with gone | apart
      · rw [gone, divide_nan, scale_nan, add_nan]
        exact Or.inl rfl
      · rw [apart, divide_inf (s.elapsed_pos r)]
        rcases scale_inf_cases s.kp up with p | ⟨p, proportional⟩
        · rw [p]
          exact Or.inl rfl
        · rcases scale_inf_cases s.kd up with d | ⟨d, derivative⟩
          · rw [d, add_nan]
            exact Or.inl rfl
          · rw [proportional, derivative]
            cases p with
            | true =>
                cases d with
                | true => exact Or.inr (Or.inl rfl)
                | false => exact Or.inl rfl
            | false =>
                cases d with
                | true => exact Or.inl rfl
                | false => exact Or.inr (Or.inr ⟨up, rfl, proportional, derivative, apart⟩)

/-- A number read after an infinite reading that the derivative sent down makes a sum that
is infinite and up. -/
theorem total_after_inf {s : Raw} {r : Reading} {up : Bool} {x : ℚ} (last : s.lastPit = inf up)
    (read : r.pitC = fin x) (derivative : scale s.kd (inf up) = inf false) :
    s.total r = inf true := by
  rcases s.integrate_finite (sub r.pitC (fin r.setpointC)) (s.elapsed r) with ⟨i, inter⟩
  simp only [total, inter]
  rw [read, last, fin_sub_inf, divide_inf (s.elapsed_pos r), scale_not_of_down derivative]
  rfl

theorem integrate_congr (s : Raw) {e e' : Value ℚ} {dt dt' : ℚ}
    (finite : e.isFinite = e'.isFinite) (same : scale dt e = scale dt' e') :
    s.integrate e dt = s.integrate e' dt' := by
  rw [integrate, integrate, finite, same]

theorem ready_of_found {s : Raw} (found : s.haveLast) (r : Reading) : s.ready r = s :=
  if_pos found

end Raw

/-! ## The reading after it -/

/-- A reading far on one side of the set point, over a time so short that the integral hardly
moves. -/
def brief (s : Raw) (r : Reading) (up : Bool) (t : ℚ) : Reading where
  nowS := min s.lastT r.nowS
  pitC := fin (sign up * t)
  setpointC := 0
  uPrevApplied := 0
  cycleTimeS := t⁻¹

theorem elapsed_brief {s now : Raw} {r : Reading} {up : Bool} {t : ℚ} (positive : 0 < t)
    (late : min s.lastT r.nowS ≤ now.lastT) : now.elapsed (brief s r up t) = t⁻¹ := by
  have still : (brief s r up t).nowS - now.lastT ≤ 0 := sub_nonpos.mpr late
  simp only [Raw.elapsed]
  rw [if_pos still]
  exact if_pos (inv_pos.mpr positive)

theorem integrate_brief (s : Raw) (r : Reading) (up : Bool) :
    ∃ x, ∀ t, 0 < t →
      s.integrate (sub (brief s r up t).pitC (fin (brief s r up t).setpointC)) t⁻¹ = fin x := by
  rcases s.integrate_finite (fin (sign up)) 1 with ⟨x, inter⟩
  refine ⟨x, ?_⟩
  intro t positive
  simp only [brief, sub_fin, sub_zero]
  rw [← inter]
  refine s.integrate_congr (by rfl) ?_
  rw [scale_fin, scale_fin, mul_left_comm, inv_mul_cancel₀ positive.ne', mul_one, one_mul]

theorem feed_brief (l : Limits) {s : Raw} (r : Reading) {up : Bool} (found : s.haveLast)
    (proportional : scale s.kp (inf up) = inf false)
    (derivative : scale s.kd (inf up) = inf false)
    (apart : sub (inf up) s.lastPit = inf up) :
    ∃ t, 0 < t ∧ l.feed (s.update (brief s r up t)) = l.uMin := by
  rcases integrate_brief s r up with ⟨x, inter⟩
  have down := scale_inf_eq_down.mp proportional
  have falls := scale_inf_eq_down.mp derivative
  have output : ∀ t, 0 < t → (s.update (brief s r up t)).u = held (-1) 2
      (add (fin (s.kp * (sign up * t) + s.center + s.ki * x))
        (scale s.kd (divide (sub (fin (sign up * t)) s.lastPit) t⁻¹))) := by
    intro t positive
    rw [Raw.update_u, Raw.ready_of_found found]
    simp only [Raw.total]
    rw [elapsed_brief positive (min_le_left _ _), inter t positive]
    simp only [brief, sub_fin, scale_fin, add_fin, sub_zero]
  cases last : s.lastPit with
  | nan =>
      rw [last, sub_nan] at apart
      cases apart
  | inf up' =>
      -- the reading before was the other infinity, and the derivative falls with this one too
      have other : up' = !up := by
        cases up <;> cases up' <;> simp_all
      refine ⟨1, one_pos, l.feed_of_low (u := -1) ?_ (by linarith [l.nonneg])⟩
      rw [output 1 one_pos, last, other, fin_sub_inf, Bool.not_not,
        divide_inf (inv_pos.mpr one_pos), derivative]
      rfl
  | fin y =>
      have reach : ∃ t, 0 < t ∧ |y| ≤ t ∧ s.center + s.ki * x ≤ -(s.kp * sign up) * t := by
        refine ⟨max (max 1 |y|) ((s.center + s.ki * x) / -(s.kp * sign up)), ?_, ?_, ?_⟩
        · exact lt_of_lt_of_le one_pos ((le_max_left _ _).trans (le_max_left _ _))
        · exact (le_max_right _ _).trans (le_max_left _ _)
        · rw [← div_le_iff₀' (neg_pos.mpr down)]
          exact le_max_right _ _
      rcases reach with ⟨t, positive, past, far⟩
      have sum : (s.update (brief s r up t)).u = fin (max (-1) (min 2
          (s.kp * (sign up * t) + s.center + s.ki * x +
            s.kd * ((sign up * t - y) / t⁻¹)))) := by
        rw [output t positive, last, sub_fin, divide_fin, scale_fin, add_fin, held_fin]
      refine ⟨t, positive, l.feed_of_low sum ?_⟩
      -- the derivative only takes away, as the reading before lies on the near side
      have slope : s.kd * ((sign up * t - y) / t⁻¹) ≤ 0 := by
        have side : sign up * y ≤ t := (sign_mul_le_abs up y).trans past
        have one := sign_mul_sign (K := ℚ) up
        calc
          s.kd * ((sign up * t - y) / t⁻¹) =
              s.kd * ((sign up * t - sign up * sign up * y) * t) := by
            rw [div_inv_eq_mul, one, one_mul]
          _ = s.kd * sign up * ((t - sign up * y) * t) := by ring
          _ ≤ 0 := mul_nonpos_of_nonpos_of_nonneg falls.le
            (mul_nonneg (by linarith) positive.le)
      have low : s.kp * (sign up * t) + s.center + s.ki * x ≤ 0 := by linarith
      apply max_le (by linarith [l.nonneg])
      exact (min_le_right _ _).trans ((add_nonpos low slope).trans l.nonneg)

/-! ## Right for any reading -/

/-- A reading is taken as it should be: the feed is within its limits, and one that is no
finite number makes it no higher than the least, nor any feed after it, over readings that
are numbers, higher than the least or than it would have been. -/
structure Right (l : Limits) (s : Raw) (r : Reading) : Prop where
  least : l.uMin ≤ l.feed (s.update r)
  most : l.feed (s.update r) ≤ l.uMax
  now : ¬r.pitC.isFinite → l.feed (s.update r) ≤ l.uMin
  later : ¬r.pitC.isFinite → ∀ rest : List Reading, (∀ next ∈ rest, next.pitC.isFinite) →
    l.feed (run (fun next s => s.update next) rest (s.update r)) ≤
      max l.uMin (l.feed (run (fun next s => s.update next) rest s))

theorem feed_after_inf (l : Limits) {s : Raw} {r : Reading} {up : Bool} (found : s.haveLast)
    (read : r.pitC = inf up) (proportional : scale s.kp (inf up) = inf false)
    (derivative : scale s.kd (inf up) = inf false)
    (apart : sub (inf up) s.lastPit = inf up) : ¬Right l s r := by
  intro right
  rcases feed_brief l r found proportional derivative apart with ⟨t, positive, without⟩
  have unread : ¬r.pitC.isFinite := by
    rw [read]
    exact Bool.false_ne_true
  have bound := right.later unread [brief s r up t] (by
    intro next inside
    rw [List.mem_singleton.mp inside]
    rfl)
  simp only [run_cons, run_nil] at bound
  have same := Raw.ready_of_found found r
  have full : ((s.update r).update (brief s r up t)).u = fin 2 := by
    have stays : (s.update r).haveLast := by
      simp only [Raw.update, same]
      exact found
    rw [Raw.update_u, Raw.ready_of_found stays]
    have derivative' : scale (s.update r).kd (inf up) = inf false := by
      simp only [Raw.update, same]
      exact derivative
    have sum : (s.update r).total (brief s r up t) = inf true :=
      Raw.total_after_inf read rfl derivative'
    rw [sum, held_up]
    norm_num
  rw [l.feed_of_full full, without, max_self] at bound
  exact bound.not_gt l.ordered

/-- The limits of the shipped settings. -/
def shippedLimits : Limits where
  uMin := 1 / 10
  uMax := 9 / 10
  nonneg := by norm_num
  ordered := by norm_num
  below := by norm_num

/-- A look at a pit that is held at 110 degrees. -/
def look (nowS : ℚ) (pitC : Value ℚ) : Reading where
  nowS := nowS
  pitC := pitC
  setpointC := 110
  uPrevApplied := 0
  cycleTimeS := 25

/-- An infinite one feeds the least, and the reading after it, of a pit that is too hot, the
most. -/
example : (List.range 4).map (fun n => shippedLimits.feed
    (run (fun next s => s.update next)
      ([look 0 (fin 130), look 25 (inf true), look 50 (fin 130), look 75 (fin 130)].take (n + 1))
      (create none).raw)) = [1 / 10, 1 / 10, 9 / 10, 1 / 10] := by
  decide +kernel

end PiFire.Pid
