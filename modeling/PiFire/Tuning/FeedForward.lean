import PiFire.Averages.Weighted
import PiFire.Doubles.Extended
import PiFire.Fan.Duty
import PiFire.Tuning.Export

/-!
# The feed that holds a set point

The grill's heat loss per degree is an average of what was measured, by how near the set
points are and how recent the measurements; the feed-forward is the loss times the difference
to the outside air. Every division is checked here: none is by zero, whatever was measured.
The loss lies between what was measured, the feed between its limits, and a colder day never
needs less.
-/

namespace PiFire.Tuning

open Averages Doubles Transition

/-- `PRIOR_B`, `PRIOR_A`, `RIDGE` -/
def priorB : ℚ := 4 / 1000

def priorA : ℚ := 0

def ridge : ℚ := 1

/-- `MAX_OBS` -/
def maxObs : ℕ := 2000

/-- `LOSS_BW_C`, `ANCHOR_W`, `LOSS_PRIOR_W` -/
def lossBwC : ℚ := 25

def anchorW : ℚ := 3

def lossPriorW : ℚ := 1

/-- `pow` of one half, `exp` and `sqrt`, as far as the model relies on them: the exponential
of something very negative may be zero. -/
structure Curves where
  powHalf : ℚ → ℚ
  exp : ℚ → ℚ
  sqrt : ℚ → ℚ
  powHalf_pos : ∀ x, 0 < powHalf x
  exp_nonneg : ∀ x, 0 ≤ exp x

/-- A row of `observations`. What was not a number is stored as NULL. -/
structure Observation where
  setpointC : Option ℚ
  ambientC : Option ℚ
  uMean : Option ℚ
  deriving DecidableEq

namespace Observation

/-- The column `setpoint_c-ambient_c`; NULL is read as zero. -/
def dT (o : Observation) : ℚ := (o.setpointC.bind fun s => o.ambientC.map (s - ·)).getD 0

def u (o : Observation) : ℚ := o.uMean.getD 0

def sp (o : Observation) : ℚ := o.setpointC.getD 0

end Observation

/-- `loss_pt` -/
structure LossPt where
  sp : ℚ
  g : ℚ
  w : ℚ
  deriving DecidableEq

/-- The model: the line, the points of the loss curve and their average. -/
structure FeedModel where
  fit : FfFit
  pts : List LossPt
  gmean : ℚ
  dirty : Bool

/-- Before the first fit. -/
def FeedModel.start : FeedModel := ⟨⟨0, 0, 0, 0⟩, [], 0, true⟩

/-! ## Refitting -/

/-- The recency half-life that is used. -/
def halfLife : Value ℚ → Value ℚ
  | .fin half =>
      let half := if 1 ≤ half then half else 60
      .fin (if half < 5 then 5 else half)
  | .inf true => .inf true
  | .inf false | .nan => .fin 60

/-- `rank / half` -/
def age? (rank : ℕ) : Value ℚ → Option ℚ
  | .fin half => div? rank half
  | .inf _ => some 0
  | .nan => none

/-- The sums of the normal equations. -/
structure Normal where
  w : ℚ
  x : ℚ
  y : ℚ
  xx : ℚ
  xy : ℚ

namespace Normal

def add (s : Normal) (w x y : ℚ) : Normal :=
  ⟨s.w + w, s.x + w * x, s.y + w * y, s.xx + w * x * x, s.xy + w * x * y⟩

/-- The virtual points: one at no difference, one at a hundred degrees. -/
def prior : Normal :=
  add ⟨ridge, 0, ridge * priorA, 0, 0⟩ ridge 100 (priorA + priorB * 100)

def det (s : Normal) : ℚ := s.w * s.xx - s.x * s.x

def scale (s : Normal) : ℚ := s.w * s.xx

/-- The slope, or the prior's where the data cannot support one. -/
def slope? (s : Normal) : Option ℚ :=
  if 0 < s.scale ∧ s.scale * (1 / 1000000000) < s.det then
    div? (s.w * s.xy - s.x * s.y) s.det
  else some priorB

/-- A sum by all the weights. -/
def mean? (s : Normal) (sum : ℚ) : Option ℚ := if 0 < s.w then div? sum s.w else some 0

/-- The line's offset and slope. Exact numbers are finite, so that the check that both are
has nothing to find. -/
def line? (s : Normal) : Option (ℚ × ℚ) :=
  s.slope?.bind fun b => (s.mean? (s.y - b * s.x)).bind fun a =>
    if b < 0 then (s.mean? s.y).map fun a => (a, 0) else some (a, b)

end Normal

/-- What the pass over the observations has so far. -/
structure Pass where
  sums : Normal
  n : ℕ
  pts : List LossPt

/-- An observation is a point of the loss curve when the difference is big enough to divide
by. -/
def observedPt? (w : ℚ) (pts : List LossPt) (o : Observation) : Option (List LossPt) :=
  if 15 < o.dT ∧ 0 < o.u ∧ o.u < 1 ∧ pts.length < maxObs then
    (div? o.u o.dT).map fun g => pts ++ [⟨o.sp, g, w⟩]
  else some pts

/-- One row; the newest comes first, and counts most. -/
def Pass.take? (c : Curves) (half : Value ℚ) (p : Pass) (o : Observation) : Option Pass :=
  (age? p.n half).bind fun age =>
    let w := c.powHalf age
    (observedPt? w p.pts o).map fun pts => ⟨p.sums.add w o.dT o.u, p.n + 1, pts⟩

/-- The ambient temperature an entry was measured at, where it can be believed. -/
def TuneAnchor.ambient (a : TuneAnchor) : ℚ :=
  match a.ambientC with
  | some amb => if amb < -30 ∨ 60 < amb then 20 else amb
  | none => 20

/-- The load a tuning run measured is a point of the loss curve. -/
def anchorPt? (pts : List LossPt) (a : TuneAnchor) : Option (List LossPt) :=
  if 0 < a.load ∧ 15 < a.setpointC - a.ambient then
    (div? a.load (a.setpointC - a.ambient)).map fun g => pts ++ [⟨a.setpointC, g, anchorW⟩]
  else some pts

/-- The weights of the points and their weighted losses. -/
def lossTally (pts : List LossPt) : Tally ℚ := Tally.empty.takeAll LossPt.w LossPt.g pts

def gmean? (pts : List LossPt) : Option ℚ :=
  if 0 < (lossTally pts).weight then div? (lossTally pts).sum (lossTally pts).weight
  else some priorB

def sqrt? (c : Curves) (x : ℚ) : Option ℚ := if 0 ≤ x then some (c.sqrt x) else none

/-- The square of what the line is off at an observation. -/
def squaredError (line : ℚ × ℚ) (o : Observation) : ℚ :=
  let e := o.u - (line.1 + line.2 * o.dT)
  e * e

/-- The residuals' root mean square. -/
def rms? (c : Curves) (line : ℚ × ℚ) (rows : List Observation) : Option ℚ :=
  if rows.length = 0 then some 0
  else (div? (rows.foldl (fun ss o => ss + squaredError line o) 0) rows.length).bind (sqrt? c)

/-- What a refit reads: the half-life of the settings, the observations, newest first, and
the library. -/
structure FitSource where
  half : Value ℚ
  observations : List Observation
  library : Library

/-- `refit` -/
def refit? (c : Curves) (source : FitSource) : Option FeedModel := do
  let rows := source.observations.take maxObs
  let pass ← rows.foldlM (Pass.take? c (halfLife source.half)) ⟨Normal.prior, 0, []⟩
  let pts ← source.library.slots.entries.foldlM anchorPt? pass.pts
  let gmean ← gmean? pts
  let line ← pass.sums.line?
  let rms ← rms? c line rows
  some ⟨⟨line.1, line.2, pass.n, rms⟩, pts, gmean, false⟩

namespace FeedModel

/-- `pf_learning_fit`: what is new is learned when the database can be read. -/
def refresh? (c : Curves) (source : FitSource) (opened : Bool) (m : FeedModel) : Option FeedModel :=
  if m.dirty && opened then refit? c source else some m

/-! ## Reading the model -/

/-- How much a point counts at a set point. -/
def nearness (c : Curves) (setpoint : ℚ) (p : LossPt) : ℚ :=
  let d := (setpoint - p.sp) / lossBwC
  p.w * c.exp (-(1 / 2) * d * d)

/-- The average a loss is pulled to. -/
def average (m : FeedModel) : ℚ := if m.pts.isEmpty then priorB else m.gmean

/-- `loss_at`: the loss coefficient and the support. -/
def lossAt? (c : Curves) (m : FeedModel) (setpoint : ℚ) : Option (ℚ × ℚ) :=
  let t := (Tally.single lossPriorW m.average).takeAll (nearness c setpoint) LossPt.g m.pts
  let sup := m.pts.foldl (fun sup p => sup + nearness c setpoint p) 0
  (div? t.sum t.weight).map fun g => (g, sup)

/-- `uff_raw` -/
def uffRaw? (c : Curves) (m : FeedModel) (setpoint ambient : ℚ) : Option ℚ :=
  let dT := if setpoint - ambient < 0 then 0 else setpoint - ambient
  if m.pts.isEmpty then some (priorB * dT * (85 / 100))
  else (lossAt? c m setpoint).bind fun (g, sup) =>
    (div? sup (sup + 1 / 2)).map fun trust => g * dT * (85 / 100 + 15 / 100 * trust)

/-- `pf_learning_uff`, with the number of observations; an ambient temperature that is not
known is `none`. -/
def learningUff? (c : Curves) (source : FitSource) (opened : Bool) (setpoint : ℚ)
    (ambient : Option ℚ) (uMin uMax : ℚ) (m : FeedModel) : Option (ℚ × ℕ × FeedModel) :=
  (m.refresh? c source opened).bind fun m =>
    (uffRaw? c m setpoint (ambient.getD 20)).map fun u =>
      (clamp u uMin (max uMin (uMax - 15 / 100)), m.fit.n, m)

end FeedModel

/-! ## No division by zero -/

theorem div?_of_ne {x y : ℚ} (nonzero : y ≠ 0) : div? x y = some (x / y) := if_neg nonzero

theorem age_succeeds (rank : ℕ) (half : Value ℚ) :
    Succeeds (fun _ => True) (age? rank (halfLife half)) := by
  match half with
  | .fin half =>
      have nonzero : (if (if 1 ≤ half then half else 60) < 5 then (5 : ℚ)
          else if 1 ≤ half then half else 60) ≠ 0 := by
        split_ifs <;> linarith
      exact ⟨_, div?_of_ne nonzero, trivial⟩
  | .inf true => exact ⟨0, rfl, trivial⟩
  | .inf false | .nan => exact ⟨rank / 60, div?_of_ne (by norm_num), trivial⟩

theorem slope_succeeds (s : Normal) : Succeeds (fun _ => True) s.slope? := by
  rw [Normal.slope?]
  split_ifs with slopes
  · -- a determinant above a part of the scale is above zero
    have positive : 0 < s.scale * (1 / 1000000000) := mul_pos slopes.1 (by norm_num)
    exact ⟨_, div?_of_ne (positive.trans slopes.2).ne', trivial⟩
  · exact ⟨priorB, rfl, trivial⟩

theorem mean_succeeds (s : Normal) (sum : ℚ) : Succeeds (fun _ => True) (s.mean? sum) := by
  rw [Normal.mean?]
  split_ifs with heavy
  · exact ⟨_, div?_of_ne heavy.ne', trivial⟩
  · exact ⟨0, rfl, trivial⟩

theorem line_succeeds (s : Normal) : Succeeds (fun _ => True) s.line? := by
  apply (slope_succeeds s).bind
  intro b _
  apply (mean_succeeds s _).bind
  intro a _
  split_ifs
  · exact (mean_succeeds s s.y).map fun _ _ => trivial
  · exact ⟨(a, b), rfl, trivial⟩

/-- A point of the loss curve: something is lost, and it counts. -/
def LossPt.Sound (p : LossPt) : Prop := 0 < p.g ∧ 0 < p.w

theorem forall_mem_concat {pts : List LossPt} {p : LossPt} (before : ∀ p ∈ pts, p.Sound)
    (last : p.Sound) : ∀ q ∈ pts ++ [p], q.Sound := by
  intro q inside
  rcases List.mem_append.mp inside with inside | inside
  · exact before q inside
  · rwa [List.mem_singleton.mp inside]

theorem observedPt_succeeds {w : ℚ} (heavy : 0 < w) {pts : List LossPt}
    (before : ∀ q ∈ pts, q.Sound) (o : Observation) :
    Succeeds (fun pts => ∀ q ∈ pts, LossPt.Sound q) (observedPt? w pts o) := by
  rw [observedPt?]
  split_ifs with usable
  · obtain ⟨wide, feeds, -, -⟩ := usable
    have nonzero : 0 < o.dT := lt_trans (by norm_num) wide
    rw [div?_of_ne nonzero.ne']
    exact ⟨_, rfl, forall_mem_concat before ⟨div_pos feeds nonzero, heavy⟩⟩
  · exact ⟨pts, rfl, before⟩

theorem take_succeeds (c : Curves) (half : Value ℚ) {p : Pass} (before : ∀ q ∈ p.pts, q.Sound)
    (o : Observation) :
    Succeeds (fun p => ∀ q ∈ p.pts, q.Sound) (p.take? c (halfLife half) o) := by
  apply (age_succeeds p.n half).bind
  intro age _
  exact (observedPt_succeeds (c.powHalf_pos age) before o).map fun _ sound => sound

theorem anchorPt_succeeds {pts : List LossPt} (before : ∀ q ∈ pts, q.Sound) (a : TuneAnchor) :
    Succeeds (fun pts => ∀ q ∈ pts, LossPt.Sound q) (anchorPt? pts a) := by
  rw [anchorPt?]
  split_ifs with usable
  · obtain ⟨loaded, wide⟩ := usable
    have nonzero : 0 < a.setpointC - a.ambient := lt_trans (by norm_num) wide
    rw [div?_of_ne nonzero.ne']
    have heavy : (0 : ℚ) < anchorW := by norm_num [anchorW]
    exact ⟨_, rfl, forall_mem_concat before ⟨div_pos loaded nonzero, heavy⟩⟩
  · exact ⟨pts, rfl, before⟩

theorem squaredError_nonneg (line : ℚ × ℚ) (rows : List Observation) (start : ℚ) :
    start ≤ rows.foldl (fun ss o => ss + squaredError line o) start := by
  induction rows generalizing start with
  | nil => exact le_refl start
  | cons o rows ih =>
      exact (le_add_of_nonneg_right (mul_self_nonneg _)).trans (ih _)

theorem rms_succeeds (c : Curves) (line : ℚ × ℚ) (rows : List Observation) :
    Succeeds (fun _ => True) (rms? c line rows) := by
  rw [rms?]
  split_ifs with none_
  · exact ⟨0, rfl, trivial⟩
  · have count : (0 : ℚ) < rows.length := by exact_mod_cast Nat.pos_of_ne_zero none_
    rw [div?_of_ne count.ne', Option.bind_some, sqrt?,
      if_pos (div_nonneg (squaredError_nonneg line rows 0) count.le)]
    exact ⟨_, rfl, trivial⟩

/-! ## The model that is read -/

namespace FeedModel

/-- What a refit leaves: points that count, and their weighted mean. -/
structure Sound (m : FeedModel) : Prop where
  pts : ∀ p ∈ m.pts, p.Sound
  gmean : m.pts ≠ [] → m.gmean = (lossTally m.pts).mean

theorem sound_start : Sound start := ⟨nofun, fun some_ => absurd rfl some_⟩

end FeedModel

theorem gmean_succeeds {pts : List LossPt} (sound : ∀ p ∈ pts, p.Sound) :
    Succeeds (fun gmean => pts ≠ [] → gmean = (lossTally pts).mean) (gmean? pts) := by
  rw [gmean?]
  split_ifs with heavy
  · exact ⟨_, div?_of_ne heavy.ne', fun _ => rfl⟩
  · refine ⟨priorB, rfl, fun some_ => absurd ?_ heavy⟩
    exact Tally.takeAll_pos (fun p inside => (sound p inside).2) some_

theorem refit_succeeds (c : Curves) (source : FitSource) :
    Succeeds FeedModel.Sound (refit? c source) := by
  have passed : Succeeds (fun p : Pass => ∀ q ∈ p.pts, q.Sound)
      ((source.observations.take maxObs).foldlM (Pass.take? c (halfLife source.half))
        ⟨Normal.prior, 0, []⟩) :=
    Succeeds.foldlM (fun _ before o _ => take_succeeds c source.half before o) nofun
  apply passed.bind
  intro pass sound
  apply (Succeeds.foldlM (fun _ before a _ => anchorPt_succeeds before a) sound).bind
  intro pts sound
  apply (gmean_succeeds sound).bind
  intro gmean mean
  apply (line_succeeds pass.sums).bind
  intro line _
  apply (rms_succeeds c line _).bind
  intro rms _
  exact ⟨_, rfl, sound, mean⟩

namespace FeedModel

variable {c : Curves} {m : FeedModel}

theorem refresh_succeeds (c : Curves) (source : FitSource) (opened : Bool) (sound : m.Sound) :
    Succeeds Sound (m.refresh? c source opened) := by
  rw [refresh?]
  split_ifs
  · exact refit_succeeds c source
  · exact ⟨m, rfl, sound⟩

/-! ## The loss between what was measured -/

/-- The measured losses and their average. -/
def measured (m : FeedModel) : List ℚ := m.average :: m.pts.map LossPt.g

theorem nearness_nonneg (sound : m.Sound) (setpoint : ℚ) :
    ∀ p ∈ m.pts, 0 ≤ nearness c setpoint p := fun p inside =>
  mul_nonneg (sound.pts p inside).2.le (c.exp_nonneg _)

theorem support_nonneg (sound : m.Sound) (setpoint : ℚ) {start : ℚ} (from_ : 0 ≤ start) :
    0 ≤ m.pts.foldl (fun sup p => sup + nearness c setpoint p) start := by
  apply List.foldlRecOn m.pts _ from_
  intro sup so_far p inside
  exact add_nonneg so_far (nearness_nonneg sound setpoint p inside)

theorem lossAt_between (sound : m.Sound) (setpoint : ℚ) {lo hi : ℚ}
    (bounds : ∀ g ∈ m.measured, lo ≤ g ∧ g ≤ hi) :
    Succeeds (fun r => (lo ≤ r.1 ∧ r.1 ≤ hi) ∧ 0 ≤ r.2) (m.lossAt? c setpoint) := by
  obtain ⟨average, points⟩ := List.forall_mem_cons.mp bounds
  have heavy : (0 : ℚ) ≤ lossPriorW := by norm_num [lossPriorW]
  have start : (0 : ℚ) < (Tally.single lossPriorW m.average).weight := by
    norm_num [Tally.single, lossPriorW]
  have within := (Tally.within_single heavy average.1 average.2).takeAll
    (nearness_nonneg (c := c) sound setpoint)
    (fun p inside => points p.g (List.mem_map_of_mem inside))
  have weight := start.trans_le
    (Tally.weight_le_takeAll LossPt.g (nearness_nonneg (c := c) sound setpoint) _)
  rw [lossAt?, div?_of_ne weight.ne']
  exact ⟨_, rfl, ⟨within.le_mean weight, within.mean_le weight⟩,
    support_nonneg sound setpoint le_rfl⟩

theorem average_pos (sound : m.Sound) : 0 < m.average := by
  rw [average]
  split_ifs with none_
  · norm_num [priorB]
  · have some_ : m.pts.map LossPt.g ≠ [] := by simpa using none_
    obtain ⟨lo, low, hi, -, bounds⟩ := exists_bounds some_
    obtain ⟨p, point, rfl⟩ := List.mem_map.mp low
    have points : m.pts ≠ [] := by simpa using none_
    have within : Tally.Within p.g hi (lossTally m.pts) := Tally.within_empty.takeAll
      (fun q inside => (sound.pts q inside).2.le)
      (fun q inside => bounds q.g (List.mem_map_of_mem inside))
    rw [sound.gmean points]
    exact (sound.pts p point).1.trans_le
      (within.le_mean (Tally.takeAll_pos (fun q inside => (sound.pts q inside).2) points))

theorem measured_pos (sound : m.Sound) : ∀ g ∈ m.measured, 0 < g := by
  intro g inside
  rcases List.mem_cons.mp inside with rfl | inside
  · exact average_pos sound
  · obtain ⟨p, point, rfl⟩ := List.mem_map.mp inside
    exact (sound.pts p point).1

/-- At every set point the loss lies between the least and the greatest of the measured points
and their weighted mean. -/
def LossBetween (c : Curves) (m : FeedModel) : Prop :=
  (m.pts ≠ [] → m.average = (lossTally m.pts).mean) ∧
    ∀ setpoint, Succeeds
      (fun r => (∃ lo ∈ m.measured, ∃ hi ∈ m.measured, lo ≤ r.1 ∧ r.1 ≤ hi) ∧ 0 < r.1 ∧ 0 ≤ r.2)
      (m.lossAt? c setpoint)

theorem lossBetween (sound : m.Sound) : m.LossBetween c := by
  constructor
  · intro some_
    rw [average, if_neg (by simpa using some_), sound.gmean some_]
  · intro setpoint
    have some_ : m.measured ≠ [] := nofun
    obtain ⟨lo, low, hi, high, bounds⟩ := exists_bounds some_
    apply (lossAt_between sound setpoint bounds).imp
    rintro r ⟨between, support⟩
    exact ⟨⟨lo, low, hi, high, between⟩, (measured_pos sound lo low).trans_le between.1, support⟩

/-! ## The feed within its limits -/

/-- The difference that is fed for. -/
def wanted (setpoint ambient : ℚ) : ℚ := if setpoint - ambient < 0 then 0 else setpoint - ambient

theorem wanted_antitone (setpoint : ℚ) {colder ambient : ℚ} (cold : colder ≤ ambient) :
    wanted setpoint ambient ≤ wanted setpoint colder := by
  unfold wanted
  split_ifs <;> linarith

/-- The feed before any limits is the difference times something that depends on the set
point alone. -/
theorem uffRaw_eq (sound : m.Sound) (setpoint : ℚ) :
    ∃ k, 0 ≤ k ∧ ∀ ambient, m.uffRaw? c setpoint ambient = some (k * wanted setpoint ambient) := by
  cases none_ : m.pts.isEmpty with
  | true =>
      refine ⟨priorB * (85 / 100), by norm_num [priorB], fun ambient => ?_⟩
      rw [uffRaw?, if_pos none_]
      exact congrArg some (mul_right_comm _ _ _)
  | false =>
      obtain ⟨-, losses⟩ := lossBetween (c := c) sound
      obtain ⟨⟨g, sup⟩, found, -, loses, supported⟩ := losses setpoint
      have trusted : (0 : ℚ) < sup + 1 / 2 := add_pos_of_nonneg_of_pos supported (by norm_num)
      have trust : 0 ≤ sup / (sup + 1 / 2) := div_nonneg supported trusted.le
      refine ⟨g * (85 / 100 + 15 / 100 * (sup / (sup + 1 / 2))), by positivity, fun ambient => ?_⟩
      rw [uffRaw?, if_neg (by simp [none_]), found, Option.bind_some]
      dsimp only
      rw [div?_of_ne trusted.ne', Option.map_some]
      exact congrArg some (mul_right_comm _ _ _)

theorem clamp_mono {v v' lo hi : ℚ} (ordered : lo ≤ hi) (le : v ≤ v') :
    clamp v lo hi ≤ clamp v' lo hi := by
  unfold clamp
  split_ifs <;> linarith

/-- What happens to the model over time: something new to learn, and reading it. -/
inductive Event where
  | learned
  | read (source : FitSource) (opened : Bool)

def step? (c : Curves) (m : FeedModel) : Event → Option FeedModel
  | .learned => some { m with dirty := true }
  | .read source opened => m.refresh? c source opened

theorem step_succeeds (c : Curves) (sound : m.Sound) (event : Event) :
    Succeeds Sound (m.step? c event) := by
  cases event with
  | learned => exact ⟨_, rfl, sound.pts, sound.gmean⟩
  | read source opened => exact refresh_succeeds c source opened sound

/-- The feed lies between its limits, and on a colder day it is not less. -/
def FeedWithin (c : Curves) (source : FitSource) (opened : Bool) (m : FeedModel) : Prop :=
  ∀ setpoint ambient uMin uMax, Succeeds
    (fun r => r.2.2.LossBetween c ∧ (uMin ≤ r.1 ∧ r.1 ≤ max uMin (uMax - 15 / 100)) ∧
      ∀ colder ≤ ambient.getD 20, Succeeds (fun r' => r.1 ≤ r'.1)
        (m.learningUff? c source opened setpoint (some colder) uMin uMax))
    (m.learningUff? c source opened setpoint ambient uMin uMax)

theorem feedWithin (sound : m.Sound) (source : FitSource) (opened : Bool) :
    m.FeedWithin c source opened := by
  intro setpoint ambient uMin uMax
  obtain ⟨m', read, sound'⟩ := refresh_succeeds c source opened sound
  obtain ⟨k, nonneg, raw⟩ := uffRaw_eq (c := c) sound' setpoint
  have ordered : uMin ≤ max uMin (uMax - 15 / 100) := le_max_left _ _
  have answer (ambient : Option ℚ) :
      m.learningUff? c source opened setpoint ambient uMin uMax =
        some (clamp (k * wanted setpoint (ambient.getD 20)) uMin (max uMin (uMax - 15 / 100)),
          m'.fit.n, m') := by
    rw [learningUff?, read, Option.bind_some, raw]
    rfl
  refine ⟨_, answer ambient, lossBetween sound', clamp_mem ordered, ?_⟩
  intro colder cold
  refine ⟨_, answer (some colder), clamp_mono ordered ?_⟩
  exact mul_le_mul_of_nonneg_left (wanted_antitone setpoint cold) nonneg

end FeedModel

end PiFire.Tuning
