import PiFire.Control.Notify
import PiFire.Transition.Run
import Mathlib.Analysis.Convex.Basic
import Mathlib.Tactic.Positivity
import Mathlib.Tactic.FieldSimp

/-!
# The take-off of a rest-to target

A rest-to target names the temperature after the rest. Its take-off is worked out anew
at every tick: the rest and a margin above it, less the carry-over that the climb and
the heat around the meat predict, corrected by what earlier rests of that meat did.
Near the take-off it may only come forward.
-/

namespace PiFire.TakeOff

open Transition

/-! ## The carry-over -/

/-- `CARRY_MODEL_MAX_C`. -/
def carryModelMaxC : ℚ := 14

/-- `CARRY_LEARNED_MAX_C`. -/
def carryLearnedMaxC : ℚ := 20

/-- `pf_notify_rest_margin_c`, from the number in the settings. -/
def restMarginC (stored : Option ℚ) (units : Units) : ℚ :=
  let v := stored.getD (if units = .c then 1 else 2)
  deltaToC (if ¬0 ≤ v ∨ v > 20 then 2 else v) units

/-- `pf_carryover_c`: from the climb alone, in degrees a second. -/
def carryoverC (rate : ℚ) : ℚ := clamp (rate * 420) 0 5

/-- The heat stored in a cut, by its climb and by how far it is under what it cooks in;
it fades out with the climb. -/
def storedC (rate gap : ℚ) : ℚ :=
  let stored := clamp (gap / rate / 100000) (4 / 100) (8 / 100) * gap
  if rate < 4 / 1000 then stored * (rate / (4 / 1000)) else stored

/-- `pf_carryover_model_c`: from the climb, the centre and what the meat cooks in. -/
def carryoverModelC (rate centre : ℚ) (cook : Option ℚ) : ℚ :=
  match cook with
  | none => carryoverC rate
  | some cook =>
    if ¬rate > 1 / 100000 then carryoverC rate
    else if ¬cook - centre > 0 then 0
    else min (storedC rate (cook - centre)) carryModelMaxC

/-- `pf_carryover_k`, from the number kept for the meat. -/
def carryoverK (stored : Option ℚ) : ℚ :=
  match stored with
  | some k => if k > 1 / 5 ∧ k < 5 then k else 1
  | none => 1

/-- `pf_carryover_learned_c` where nothing is known of the heat around the meat. -/
def carryoverLearnedC (rate : ℚ) (stored : Option ℚ) : ℚ :=
  clamp (carryoverC rate * carryoverK stored) 0 carryLearnedMaxC

/-- A value that follows another over a period, in a step of so many seconds. -/
def smooth (period dt value raw : ℚ) : ℚ := value + (raw - value) * min 1 (dt / period)

/-! ## The climb -/

/-- `PF_ETA_SAMPLES`. -/
def etaSamples : ℕ := 400

/-- `push_sample`; the newest is last. -/
def pushSample (c : ℚ) (hist : List ℚ) : List ℚ :=
  (hist ++ [c]).drop (hist.length + 1 - etaSamples)

/-- A reading with the two before it and the two after it, as many as there are. -/
def averaged (recent : List ℚ) (i : ℕ) : ℚ :=
  let window := (recent.take (i + 3)).drop (i - 2)
  window.sum / window.length

/-- `pf_notify_probe_rate_long`: the slope of the last five minutes. -/
def rateLong (hist : List ℚ) : ℚ :=
  if hist.length < 50 then 0
  else
    let recent := hist.drop (hist.length - 100)
    let count := recent.length
    let xbar : ℚ := (count - 1) / 2
    let ybar := ((List.range count).map (averaged recent)).sum / count
    let num := ((List.range count).map fun i => (i - xbar) * (averaged recent i - ybar)).sum
    let den := ((List.range count).map fun i : ℕ => (i - xbar) * (i - xbar)).sum
    let slope := if den > 0 then num / den / 3 else 0
    if slope > 0 then slope else 0

/-! ## The tick -/

/-- A probe with what its take-off is worked from; `carrySmC` is negative while it is
not set. -/
structure RestProbe where
  probe : NotifyProbe
  carrySmC : ℚ
  cookSmC : ℚ
  lastTickT : ℚ
  hist : List ℚ
  lastSampleT : ℚ

/-- A tick that finds the probe reading: the time, the reading, what the meat cooks in
and the correction kept for the meat. -/
structure Look where
  now : ℚ
  t : ℚ
  cookRaw : Option ℚ
  correction : Option ℚ
  cooking : Bool
  units : Units

namespace RestProbe

/-- The readings kept for the climb. -/
def histAt (look : Look) (s : RestProbe) : List ℚ :=
  if look.now - s.lastSampleT ≥ 3 then pushSample look.t s.hist else s.hist

/-- The time since the last tick. -/
def sinceTick (look : Look) (s : RestProbe) : ℚ :=
  if s.lastTickT > 0 then look.now - s.lastTickT else 0

/-- What the meat cooks in, over four minutes. -/
def cookAt (look : Look) (s : RestProbe) : ℚ :=
  match look.cookRaw with
  | some raw => if ¬s.cookSmC > 0 then raw else smooth 240 (s.sinceTick look) s.cookSmC raw
  | none => s.cookSmC

/-- The carry-over the model predicts at this tick. -/
def carryRaw (look : Look) (s : RestProbe) : ℚ :=
  carryoverModelC (rateLong (s.histAt look)) look.t (look.cookRaw.map fun _ => s.cookAt look)

/-- The carry-over the take-off is worked from, over five minutes. -/
def carryAt (look : Look) (s : RestProbe) : ℚ :=
  if s.probe.restC > 0 ∧ s.probe.reached = false then
    if ¬s.carrySmC ≥ 0 then s.carryRaw look
    else smooth 300 (s.sinceTick look) s.carrySmC (s.carryRaw look)
  else s.carrySmC

/-- The estimates the probe's rest is worked from at this tick. -/
def estimates (marginC : ℚ) (look : Look) (s : RestProbe) : RestEstimates :=
  { restPull := fun _ restC => restC + marginC
    takeOff := fun p _ =>
      p.restC + marginC - min (s.carryAt look * carryoverK look.correction) carryLearnedMaxC }

/-- The probe with its take-off worked out anew. -/
def followed (marginC : ℚ) (look : Look) (s : RestProbe) : NotifyProbe :=
  followRest (s.estimates marginC look) look.t s.probe

/-- The tick of `pf_notify_tick` for a probe that reads, without its steps and the watch
over the rest. -/
def tick (marginC : ℚ) (look : Look) (s : RestProbe) : RestProbe :=
  let p := s.followed marginC look
  { probe := judgeLimits look.cooking look.t look.units
      (if targetMet look.t p then { p with reached := true, after := afterNone } else p)
    carrySmC := s.carryAt look
    cookSmC := s.cookAt look
    lastTickT := look.now
    hist := s.histAt look
    lastSampleT := if look.now - s.lastSampleT ≥ 3 then look.now else s.lastSampleT }

/-- `pf_notify_set_rest` for a rest above zero. The climb of the moment, a fit with
exponential weights, is given. -/
def setRest (marginC rate : ℚ) (correction : Option ℚ) (restC : ℚ) (after : ℤ)
    (s : RestProbe) : RestProbe :=
  let pull : RestEstimates :=
    { restPull := fun _ restC => restC + marginC - carryoverLearnedC rate correction
      takeOff := fun p _ => p.targetC }
  { s with probe := s.probe.setRest pull restC after, carrySmC := -1 }

end RestProbe

/-! ## Bounds -/

section Bounds

theorem carryoverC_mem (rate : ℚ) : carryoverC rate ∈ Set.Icc 0 carryModelMaxC := by
  have kept : (0 : ℚ) ≤ clamp (rate * 420) 0 5 ∧ clamp (rate * 420) 0 5 ≤ 5 :=
    clamp_mem (by norm_num)
  exact ⟨kept.1, kept.2.trans (by norm_num [carryModelMaxC])⟩

theorem storedC_nonneg {rate gap : ℚ} (climbs : 0 ≤ rate) (under : 0 ≤ gap) :
    0 ≤ storedC rate gap := by
  have share : 0 ≤ clamp (gap / rate / 100000) (4 / 100) (8 / 100) :=
    le_trans (by norm_num) (clamp_mem (by norm_num)).1
  have stored := mul_nonneg share under
  unfold storedC
  split_ifs
  · exact mul_nonneg stored (by positivity)
  · exact stored

theorem carryoverModelC_mem (rate centre : ℚ) (cook : Option ℚ) :
    carryoverModelC rate centre cook ∈ Set.Icc 0 carryModelMaxC := by
  cases cook with
  | none => exact carryoverC_mem rate
  | some cook =>
      simp only [carryoverModelC]
      split_ifs with climbs under
      · have stored : 0 ≤ storedC rate (cook - centre) :=
          storedC_nonneg (le_trans (by norm_num) climbs.le) under.le
        exact ⟨le_min stored (by norm_num [carryModelMaxC]), min_le_right _ _⟩
      · exact ⟨le_rfl, by norm_num [carryModelMaxC]⟩
      · exact carryoverC_mem rate

theorem carryoverK_pos (stored : Option ℚ) : 0 < carryoverK stored := by
  cases stored with
  | none => norm_num [carryoverK]
  | some k =>
      simp only [carryoverK]
      split_ifs with kept
      · exact lt_trans (by norm_num) kept.1
      · norm_num

theorem smooth_mem {period dt value raw lo hi : ℚ} (lasts : 0 < period) (passed : 0 ≤ dt)
    (value_mem : value ∈ Set.Icc lo hi) (raw_mem : raw ∈ Set.Icc lo hi) :
    smooth period dt value raw ∈ Set.Icc lo hi := by
  have part : min 1 (dt / period) ∈ Set.Icc (0 : ℚ) 1 :=
    ⟨le_min zero_le_one (div_nonneg passed lasts.le), min_le_left _ _⟩
  have between := (convex_Icc lo hi).add_smul_sub_mem value_mem raw_mem part
  rwa [smul_eq_mul, mul_comm] at between

theorem carryoverLearnedC_mem (rate : ℚ) (stored : Option ℚ) :
    carryoverLearnedC rate stored ∈ Set.Icc 0 carryLearnedMaxC :=
  clamp_mem (by norm_num [carryLearnedMaxC])

variable {marginC : ℚ} {look : Look} {s : RestProbe}

/-- The carry-over is unset or one the model may predict. -/
def RestProbe.CarrySound (s : RestProbe) : Prop :=
  s.carrySmC < 0 ∨ s.carrySmC ∈ Set.Icc 0 carryModelMaxC

theorem carryAt_mem (sound : s.CarrySound) (later : s.lastTickT ≤ look.now)
    (rests : s.probe.restC > 0 ∧ s.probe.reached = false) :
    s.carryAt look ∈ Set.Icc 0 carryModelMaxC := by
  have raw : s.carryRaw look ∈ Set.Icc 0 carryModelMaxC := carryoverModelC_mem _ _ _
  have passed : 0 ≤ s.sinceTick look := by
    unfold RestProbe.sinceTick
    split_ifs
    · linarith
    · exact le_rfl
  rw [RestProbe.carryAt, if_pos rests]
  split_ifs with already
  · rcases sound with unset | within
    · exact absurd unset (not_lt.mpr already)
    · exact smooth_mem (by norm_num) passed within raw
  · exact raw

theorem carrySound_tick (sound : s.CarrySound) (later : s.lastTickT ≤ look.now) :
    (s.tick marginC look).CarrySound := by
  change s.carryAt look < 0 ∨ s.carryAt look ∈ Set.Icc 0 carryModelMaxC
  by_cases rests : s.probe.restC > 0 ∧ s.probe.reached = false
  · exact Or.inr (carryAt_mem sound later rests)
  · rw [RestProbe.carryAt, if_neg rests]
    exact sound

/-- The take-off that the tick asks for. -/
def RestProbe.asksFor (marginC : ℚ) (look : Look) (s : RestProbe) : ℚ :=
  s.probe.restC + marginC - min (s.carryAt look * carryoverK look.correction) carryLearnedMaxC

theorem asksFor_mem (marginC : ℚ) (sound : s.CarrySound) (later : s.lastTickT ≤ look.now)
    (rests : s.probe.restC > 0 ∧ s.probe.reached = false) :
    s.asksFor marginC look ∈
      Set.Icc (s.probe.restC + marginC - carryLearnedMaxC) (s.probe.restC + marginC) := by
  have carry := mul_nonneg (carryAt_mem sound later rests).1
    (carryoverK_pos look.correction).le
  have most := min_le_right (s.carryAt look * carryoverK look.correction) carryLearnedMaxC
  have least : 0 ≤ min (s.carryAt look * carryoverK look.correction) carryLearnedMaxC :=
    le_min carry (by norm_num [carryLearnedMaxC])
  unfold RestProbe.asksFor
  constructor <;> linarith

/-- The take-off after a tick: the one asked for, or the one before where the reading is
near it and a later one is asked for. -/
theorem followed_targetC (rests : s.probe.restC > 0 ∧ s.probe.reached = false) :
    (s.followed marginC look).targetC =
      if s.probe.targetC > 0 ∧ look.t ≥ s.probe.targetC - carryFreezeC ∧
        s.asksFor marginC look > s.probe.targetC then s.probe.targetC
      else s.asksFor marginC look := by
  rw [RestProbe.followed, followRest, if_pos rests]
  rfl

theorem followed_frame (marginC : ℚ) (look : Look) (s : RestProbe) :
    (s.followed marginC look).restC = s.probe.restC ∧
    (s.followed marginC look).reached = s.probe.reached ∧
    (s.followed marginC look).after = s.probe.after := by
  unfold RestProbe.followed followRest
  split_ifs <;> exact ⟨rfl, rfl, rfl⟩

theorem followed_of_reached (marginC : ℚ) (look : Look) (reached : s.probe.reached = true) :
    s.followed marginC look = s.probe := by
  rw [RestProbe.followed, followRest, if_neg]
  rintro ⟨-, waiting⟩
  rw [reached] at waiting
  cases waiting

end Bounds

/-! ## The course of a target -/

/-- A probe since its target was set: whether a reading came within the freeze distance
of the take-off or up to it, how often the target was reached, and the after-actions it
asked for. -/
structure Course where
  state : RestProbe
  near : Bool
  arrived : Bool
  timesReached : ℕ
  asked : List ℤ

namespace Course

/-- The take-off. -/
def takeOff (c : Course) : ℚ := c.state.probe.targetC

/-- A target set anew. -/
def set (marginC rate : ℚ) (correction : Option ℚ) (restC : ℚ) (after : ℤ)
    (s : RestProbe) : Course :=
  { state := s.setRest marginC rate correction restC after
    near := false
    arrived := false
    timesReached := 0
    asked := [] }

def step (marginC : ℚ) (look : Look) (c : Course) : Course :=
  let p := c.state.followed marginC look
  let met := targetMet look.t p
  { state := c.state.tick marginC look
    near := c.near || decide (look.t ≥ p.targetC - carryFreezeC)
    arrived := c.arrived || decide (look.t ≥ p.targetC)
    timesReached := c.timesReached + if met then 1 else 0
    asked := c.asked ++ if met ∧ p.after ≠ afterNone then [p.after] else [] }

/-- The take-off lies between the rest and its margin, and that less the most a
carry-over may be. -/
def Bounded (marginC restC : ℚ) (c : Course) : Prop :=
  restC + marginC - carryLearnedMaxC ≤ c.takeOff ∧ c.takeOff ≤ restC + marginC

/-- The target is reached once a reading comes up to the take-off, once only, and asks
for its after-action then. -/
def ReachedOnce (after : ℤ) (c : Course) : Prop :=
  c.timesReached = (if c.arrived then 1 else 0) ∧
    c.asked = if c.arrived ∧ after ≠ afterNone then [after] else []

instance (after : ℤ) (c : Course) : Decidable (ReachedOnce after c) :=
  inferInstanceAs (Decidable (_ ∧ _))

/-- What is to hold of every run of ticks since the target was set. -/
structure Kept (marginC restC : ℚ) (after : ℤ) (looks : List Look) (c : Course) : Prop where
  begins : Bounded marginC restC c
  bounded : Throughout (step marginC) (fun c => c.state.probe.reached = false →
    Bounded marginC restC c) looks c
  forward : Along (step marginC) (fun look c => c.near = true →
    (step marginC look c).takeOff ≤ c.takeOff) looks c
  once : Throughout (step marginC) (ReachedOnce after) looks c

/-- Before the target is reached. -/
structure Waiting (after : ℤ) (c : Course) : Prop where
  reached : c.state.probe.reached = false
  after : c.state.probe.after = after
  arrived : c.arrived = false
  times : c.timesReached = 0
  asked : c.asked = []

/-- Once the target is reached. -/
structure Done (after : ℤ) (c : Course) : Prop where
  reached : c.state.probe.reached = true
  arrived : c.arrived = true
  times : c.timesReached = 1
  asked : c.asked = if after ≠ afterNone then [after] else []

/-- What every tick keeps. -/
structure Sound (marginC restC : ℚ) (after : ℤ) (c : Course) : Prop where
  rest : c.state.probe.restC = restC
  carry : c.state.CarrySound
  bounded : Bounded marginC restC c
  phase : Waiting after c ∨ Done after c

section Steps

variable {marginC restC rate : ℚ} {correction : Option ℚ} {after : ℤ} {look : Look} {c : Course}
  {s : RestProbe}

theorem reachedOnce_of_sound (sound : Sound marginC restC after c) : ReachedOnce after c := by
  rcases sound.phase with waiting | done
  · simp [ReachedOnce, waiting.arrived, waiting.times, waiting.asked]
  · simp [ReachedOnce, done.arrived, done.times, done.asked]

theorem sound_set (aims : 0 ≤ restC + marginC) :
    Sound marginC restC after (set marginC rate correction restC after s) := by
  obtain ⟨least, most⟩ := carryoverLearnedC_mem rate correction
  have takeOff : (set marginC rate correction restC after s).takeOff =
      if restC + marginC - carryoverLearnedC rate correction > 0 then
        restC + marginC - carryoverLearnedC rate correction else 0 := by
    simp only [takeOff, set, RestProbe.setRest, NotifyProbe.setRest, NotifyProbe.setTarget]
    split_ifs <;> rfl
  have kept : (set marginC rate correction restC after s).state.probe.reached = false ∧
      (set marginC rate correction restC after s).state.probe.after = after := by
    simp only [set, RestProbe.setRest, NotifyProbe.setRest, NotifyProbe.setTarget]
    split_ifs <;> exact ⟨rfl, rfl⟩
  refine ⟨rfl, Or.inl (by norm_num [set, RestProbe.setRest]), ?_,
    Or.inl ⟨kept.1, kept.2, rfl, rfl, rfl⟩⟩
  unfold Bounded
  rw [takeOff]
  split_ifs with positive
  · constructor <;> linarith
  · constructor <;> linarith

@[simp]
theorem tick_takeOff : (step marginC look c).takeOff = (c.state.followed marginC look).targetC := by
  change (judgeLimits _ _ _ (if _ then _ else _)).targetC = _
  split_ifs <;> rfl

theorem step_restC : (step marginC look c).state.probe.restC = c.state.probe.restC := by
  rw [← (followed_frame marginC look c.state).1]
  change (judgeLimits _ _ _ (if _ then _ else _)).restC = _
  split_ifs <;> rfl

theorem targetMet_followed (waits : c.state.probe.reached = false)
    (positive : (c.state.followed marginC look).targetC > 0) :
    targetMet look.t (c.state.followed marginC look) =
      decide (look.t ≥ (c.state.followed marginC look).targetC) := by
  have frame := (followed_frame marginC look c.state).2.1
  simp [targetMet, frame, waits, positive]

theorem bounded_followed (sound : Sound marginC restC after c) (rests : 0 < restC)
    (later : c.state.lastTickT ≤ look.now) :
    restC + marginC - carryLearnedMaxC ≤ (c.state.followed marginC look).targetC ∧
      (c.state.followed marginC look).targetC ≤ restC + marginC := by
  rcases sound.phase with waiting | done
  · have works : c.state.probe.restC > 0 ∧ c.state.probe.reached = false := by
      rw [sound.rest]
      exact ⟨rests, waiting.reached⟩
    have asks := asksFor_mem marginC sound.carry later works
    rw [sound.rest] at asks
    rw [followed_targetC works]
    split_ifs
    · exact sound.bounded
    · exact asks
  · rw [followed_of_reached marginC look done.reached]
    exact sound.bounded

theorem sound_step (sound : Sound marginC restC after c) (rests : 0 < restC)
    (high : carryLearnedMaxC < restC + marginC) (later : c.state.lastTickT ≤ look.now) :
    Sound marginC restC after (step marginC look c) := by
  have bounds := bounded_followed sound rests later
  refine ⟨step_restC.trans sound.rest, carrySound_tick sound.carry later, ?_, ?_⟩
  · rw [Bounded, tick_takeOff]
    exact bounds
  rcases sound.phase with waiting | done
  · have positive : (c.state.followed marginC look).targetC > 0 := by linarith
    have met := targetMet_followed waiting.reached positive
    obtain ⟨-, sameReached, sameAfter⟩ :=
      followed_frame marginC look c.state
    by_cases arrives : look.t ≥ (c.state.followed marginC look).targetC
    · right
      rw [decide_eq_true arrives] at met
      constructor
      · simp [step, RestProbe.tick, met, judgeLimits]
      · simp [step, arrives]
      · simp [step, met, waiting.times]
      · simp [step, met, waiting.asked, sameAfter, waiting.after]
    · left
      rw [decide_eq_false arrives] at met
      constructor
      · simp [step, RestProbe.tick, met, judgeLimits, sameReached, waiting.reached]
      · simp [step, RestProbe.tick, met, judgeLimits, sameAfter, waiting.after]
      · simp [step, arrives, waiting.arrived]
      · simp [step, met, waiting.times]
      · simp [step, met, waiting.asked]
  · right
    have same := followed_of_reached marginC look done.reached
    have met : targetMet look.t c.state.probe = false := by simp [targetMet, done.reached]
    constructor
    · simp [step, RestProbe.tick, same, met, judgeLimits, done.reached]
    · simp [step, done.arrived]
    · simp [step, same, met, done.times]
    · simp [step, same, met, done.asked]

theorem takeOff_forward (sound : Sound marginC restC after c) (rests : 0 < restC)
    (high : carryLearnedMaxC < restC + marginC)
    (stays : c.takeOff - carryFreezeC ≤ look.t) :
    (step marginC look c).takeOff ≤ c.takeOff := by
  have positive : c.state.probe.targetC > 0 := by
    have least := sound.bounded.1
    unfold takeOff at least
    linarith
  rw [tick_takeOff]
  rcases sound.phase with waiting | done
  · have works : c.state.probe.restC > 0 ∧ c.state.probe.reached = false := by
      rw [sound.rest]
      exact ⟨rests, waiting.reached⟩
    rw [followed_targetC works]
    split_ifs with frozen
    · exact le_rfl
    · by_contra later
      exact frozen ⟨positive, stays, not_le.mp later⟩
  · rw [followed_of_reached marginC look done.reached]
    exact le_rfl

end Steps

end Course

open Course

/-- A rest-to target keeps its course, in a run of ticks in the order of their times in
which the reading, once near the take-off, stays near it, where the target aims higher
than a carry-over may be. -/
theorem takeOff_keeps_course {marginC restC rate : ℚ} {correction : Option ℚ} {after : ℤ}
    {s : RestProbe} {looks : List Look} (rests : 0 < restC)
    (high : carryLearnedMaxC < restC + marginC)
    (timed : Along (step marginC) (fun look c => c.state.lastTickT ≤ look.now) looks
      (set marginC rate correction restC after s))
    (stays : Along (step marginC) (fun look c => c.near = true →
      c.takeOff - carryFreezeC ≤ look.t) looks (set marginC rate correction restC after s)) :
    Kept marginC restC after looks (set marginC rate correction restC after s) := by
  have aims : 0 ≤ restC + marginC := le_trans (by norm_num [carryLearnedMaxC]) high.le
  have begun : Sound marginC restC after (set marginC rate correction restC after s) :=
    sound_set aims
  have kept : ∀ look c, Sound marginC restC after c →
      (c.state.lastTickT ≤ look.now ∧ (c.near = true → c.takeOff - carryFreezeC ≤ look.t)) →
      Sound marginC restC after (step marginC look c) :=
    fun look c sound ok => sound_step sound rests high ok.1
  constructor
  · exact begun.bounded
  · exact Along.strengthen (Sound marginC restC after) kept
      (fun look c sound ok (_ : (step marginC look c).state.probe.reached = false) =>
        (kept look c sound ok).bounded) begun (timed.and stays)
  · exact Along.strengthen (Sound marginC restC after) kept
      (fun look c sound ok near => takeOff_forward sound rests high (ok.2 near)) begun
      (timed.and stays)
  · exact Along.strengthen (Sound marginC restC after) kept
      (fun look c sound ok => reachedOnce_of_sound (kept look c sound ok)) begun
      (timed.and stays)

/-- A probe that climbed a hundredth of a degree a second, asked to rest to 60 °C. -/
def benchRest : Course :=
  set (restMarginC none .c) (1 / 100) none 60 afterKeepwarm
    { probe := .fresh "Meat", carrySmC := 0, cookSmC := 0, lastTickT := 0, hist := []
      lastSampleT := 0 }

/-- A look at a probe while there is nothing to tell the heat around it by. -/
def benchLook (now t : ℚ) : Look :=
  { now := now, t := t, cookRaw := none, correction := none, cooking := true, units := .c }

theorem takeOff_keeps_course_on_bench :
    Kept (restMarginC none .c) 60 afterKeepwarm
      [benchLook 10 50, benchLook 20 58, benchLook 30 62] benchRest :=
  takeOff_keeps_course (by norm_num) (by decide +kernel) (by decide +kernel) (by decide +kernel)

/-- A reading that falls back by a degree has a take-off that it was near move four
degrees later. -/
theorem takeOff_moves_later :
    ¬∀ (stored : Option ℚ) (units : Units) (rate : ℚ) (correction : Option ℚ) (restC : ℚ)
      (after : ℤ) (s : RestProbe) (looks : List Look), 0 < restC →
      Along (step (restMarginC stored units)) (fun look c => c.state.lastTickT ≤ look.now) looks
        (set (restMarginC stored units) rate correction restC after s) →
      Kept (restMarginC stored units) restC after looks
        (set (restMarginC stored units) rate correction restC after s) := by
  intro always
  have kept := always none .c (1 / 100) none 60 afterKeepwarm
    { probe := .fresh "Meat", carrySmC := 0, cookSmC := 0, lastTickT := 0, hist := []
      lastSampleT := 0 }
    [benchLook 10 54, benchLook 20 53] (by norm_num) (by decide)
  exact absurd kept.forward (by decide +kernel)

end PiFire.TakeOff
