import PiFire.Fan.Duty
import PiFire.Lag.Signal
import PiFire.Tuning.Between

/-!
# How long a climb will take

The climb to a set point is run ahead of time, one second after the other: the plant of the
library is driven by the controller's law, through a ring that holds the feed back for the dead
time. The rings are indexed with the code's own sums, and a read or a write outside one fails.
Beside the run stands what each second fed and what drove the pit in it.
-/

namespace PiFire.Tuning

open Lag Transition

/-- `MAX_S`, `RING` -/
def maxS : ℕ := 6 * 3600

def ringSize : ℕ := 1024

/-- What is asked: where the climb began, how long ago, where the pit is and is to be, the
outside air and the limits of the feed. -/
structure ClimbAsk where
  t0C : ℚ
  elapsed : ℚ
  nowC : ℚ
  toC : ℚ
  ambientC : ℚ
  uMin : ℚ
  uMax : ℚ
  deriving DecidableEq

/-- A climb there is something to say about: the plant has a gain and a time constant to divide
by, the pit has some way to go, and full feed takes it past the set point. -/
structure Climb where
  ask : ClimbAsk
  K : ℚ
  tau : ℚ
  theta : ℚ
  PB : ℚ
  Td : ℚ
  K_pos : 0 < K
  tau_pos : 0 < tau
  theta_nonneg : 0 ≤ theta
  theta_le : theta ≤ 900
  begins : ask.t0C ≤ ask.nowC
  climbs : ask.nowC + 1 < ask.toC
  elapsed_nonneg : 0 ≤ ask.elapsed
  uMax_pos : 0 < ask.uMax
  limits : 0 ≤ ask.uMin ∧ ask.uMin < ask.uMax ∨ ask.uMin = 1 / 10 ∧ ask.uMax ≤ ask.uMin
  arrives : ask.toC + 1 < ask.ambientC + K * ask.uMax

namespace ClimbAsk

/-- `u_max` as it is used. -/
def most (a : ClimbAsk) : ℚ := if 0 < a.uMax then a.uMax else 9 / 10

/-- `u_min` as it is used. -/
def least (a : ClimbAsk) : ℚ := if 0 ≤ a.uMin ∧ a.uMin < a.most then a.uMin else 1 / 10

/-- The question with its numbers put right. -/
def sane (a : ClimbAsk) : ClimbAsk :=
  { a with
    t0C := if a.nowC < a.t0C then a.nowC else a.t0C
    elapsed := if 0 ≤ a.elapsed then a.elapsed else 0
    uMin := a.least
    uMax := a.most }

theorem most_pos (a : ClimbAsk) : 0 < a.most := by
  unfold most
  split_ifs with given
  · exact given
  · norm_num

theorem limits (a : ClimbAsk) :
    0 ≤ a.least ∧ a.least < a.most ∨ a.least = 1 / 10 ∧ a.most ≤ a.least := by
  unfold least
  split_ifs with given
  · exact Or.inl given
  · rcases lt_or_ge (1 / 10) a.most with above | below
    · exact Or.inl ⟨by norm_num, above⟩
    · exact Or.inr ⟨rfl, below⟩

theorem sane_begins (a : ClimbAsk) : a.sane.t0C ≤ a.sane.nowC := by
  change (if a.nowC < a.t0C then a.nowC else a.t0C) ≤ a.nowC
  split_ifs with late
  · exact le_rfl
  · exact not_lt.mp late

theorem sane_elapsed (a : ClimbAsk) : 0 ≤ a.sane.elapsed := by
  change 0 ≤ if 0 ≤ a.elapsed then a.elapsed else 0
  split_ifs with since
  · exact since
  · exact le_rfl

end ClimbAsk

/-- The band and the derivative time of the library, where it has a band. -/
def Learning.band (l : Learning) (setpoint : ℚ) : ℚ × ℚ :=
  match l.gains setpoint with
  | some g => if 0 < g.PBc then (g.PBc, g.Td) else (0, 0)
  | none => (0, 0)

/-- The climb that is modelled, or what is returned without one. -/
def Learning.climb (l : Learning) (a : ClimbAsk) : Except ℚ Climb :=
  if climbs : a.nowC + 1 < a.toC then
    match l.plant a.toC with
    | none => .error (-1)
    | some p =>
        if plant : 0 < p.tau ∧ 0 < p.K then
          if arrives : a.toC + 1 < a.ambientC + p.K * a.most then
            .ok
              { ask := a.sane
                K := p.K
                tau := p.tau
                theta := min (max 0 p.theta) 900
                PB := (l.band a.toC).1
                Td := (l.band a.toC).2
                K_pos := plant.2
                tau_pos := plant.1
                theta_nonneg := le_min (le_max_left 0 _) (by norm_num)
                theta_le := min_le_right _ _
                begins := a.sane_begins
                climbs := climbs
                elapsed_nonneg := a.sane_elapsed
                uMax_pos := a.most_pos
                limits := a.limits
                arrives := arrives }
          else .error (-1)
        else .error (-1)
  else .error 0

/-- What a second of the climb fed, what drove the pit, and where that left it. -/
structure Second where
  feed : ℚ
  drive : ℚ
  T : ℚ
  deriving DecidableEq

/-- The state of the modelled climb: the rings, the pit, the controller's model of the feed on
its way, the derivative and the second that passed the real pit; beside it the seconds so far,
which nothing reads. -/
structure Sim where
  ring : List ℚ
  mring : List ℚ
  T : ℚ
  mdl : ℚ
  dervF : ℚ
  tStar : Option ℕ
  seconds : List Second

/-- `ring[i]` -/
def ringAt? (ring : List ℚ) (i : ℤ) : Option ℚ := if 0 ≤ i then ring[i.toNat]? else none

/-- `ring[i] = v` -/
def ringPut? (ring : List ℚ) (i : ℤ) (v : ℚ) : Option (List ℚ) :=
  if 0 ≤ i ∧ i < ring.length then some (ring.set i.toNat v) else none

namespace Climb

/-- `th`: the dead time in whole seconds. -/
def th (c : Climb) : ℤ := truncate (c.theta + 1 / 2)

/-- `uff` -/
def uff (c : Climb) : ℚ :=
  clamp ((c.ask.toC - c.ask.ambientC) / c.K) c.ask.uMin c.ask.uMax

/-- `u_pre`: what was fed before the step. -/
def uPre (c : Climb) : ℚ := clamp ((c.ask.t0C - c.ask.ambientC) / c.K) 0 c.ask.uMax

/-- `tf` -/
def tf (c : Climb) : ℚ := max 20 (c.Td / 4)

def start (c : Climb) : Sim :=
  { ring := List.replicate ringSize c.uPre
    mring := List.replicate ringSize c.uPre
    T := c.ask.t0C
    mdl := c.uPre
    dervF := 0
    tStar := none
    seconds := [] }

/-- `(t + RING - th) % RING` -/
def back (c : Climb) (t : ℕ) : ℤ := ((t : ℤ) + ringSize - c.th).tmod ringSize

/-- The feed of a second, by the controller's law. -/
def feed? (c : Climb) (t : ℕ) (s : Sim) : Option ℚ :=
  if 0 < c.PB then do
    let due ← ringAt? s.mring (c.back t)
    let surplus := clamp (c.K * (s.mdl - due)) (-100) 100
    let e := s.T - c.ask.toC + surplus
    let p ← div? e c.PB
    let d ← div? (c.Td * s.dervF) c.PB
    some (clamp (c.uff - p - d) c.ask.uMin c.ask.uMax)
  else some (if s.T < c.ask.toC then c.ask.uMax else c.uff)

/-- One second. What is read of the ring is read before the second's feed is written. -/
def step? (c : Climb) (t : ℕ) (s : Sim) : Option Sim := do
  let u ← c.feed? t s
  let uIn ← ringAt? s.ring (c.back t)
  let ring ← ringPut? s.ring ((t : ℤ).tmod ringSize) u
  let dT ← div? (-(s.T - c.ask.ambientC) + c.K * uIn) c.tau
  let T := s.T + dT
  let derv ← div? (dT - s.dervF) (c.tf + 1)
  let m ← div? (u - s.mdl) c.tau
  let mring ← ringPut? s.mring ((t : ℤ).tmod ringSize) (s.mdl + m)
  some
    { ring, mring, T
      mdl := s.mdl + m
      dervF := s.dervF + derv
      tStar := if s.tStar = none ∧ c.ask.nowC ≤ T ∧ c.ask.t0C + 1 < T then some t else s.tStar
      seconds := s.seconds ++ [⟨u, uIn, T⟩] }

/-- The seconds from `t` on, at most `fuel` of them, and the one that arrived. -/
def simulate? (c : Climb) : (fuel t : ℕ) → Sim → Option (Sim × Option ℕ)
  | 0, _, s => some (s, none)
  | fuel + 1, t, s =>
      (c.step? t s).bind fun s =>
        if c.ask.toC - 1 ≤ s.T then some (s, some t) else c.simulate? fuel (t + 1) s

/-- The estimate once the climb is under way: the curve's rest, by the pace so far and by the
average rate since the pit started to move. -/
def rest? (c : Climb) (arrive star : ℕ) : Option ℚ :=
  let a := c.ask
  let t : ℚ := arrive - star
  if a.t0C + 5 < a.nowC ∧ c.th < star ∧ c.th < a.elapsed then do
    let pace ← div? a.elapsed star
    let t := t * clamp pace (1 / 2) 3
    let moving := max 30 (a.elapsed - c.theta)
    let avg ← div? (a.nowC - a.t0C) moving
    let byRate := if 1 / 10000 < avg then div? (a.toC - a.nowC) avg else some t
    let way ← div? (a.nowC - a.t0C) (a.toC - a.t0C)
    let w := clamp way 0 1
    byRate.map fun byRate => (1 - w) * t + w * byRate
  else some t

/-- What is left of the modelled climb. -/
def left? (c : Climb) (star arrive : Option ℕ) : Option ℚ :=
  match arrive with
  | none => some (-1)
  | some arrive =>
      let floor (t : ℚ) : ℚ := if 0 < t then t else 0
      match star with
      | some star =>
          if c.ask.nowC ≤ c.ask.t0C + 1 then some (floor (arrive - min c.ask.elapsed c.th))
          else (c.rest? arrive star).map floor
      | none => some (floor (arrive - min c.ask.elapsed c.th))

end Climb

/-- `pf_learning_climb_eta`, with the seconds that were modelled. -/
def Learning.climbEta? (l : Learning) (a : ClimbAsk) : Option (ℚ × List Second) :=
  match l.climb a with
  | .error answer => some (answer, [])
  | .ok c =>
      (c.simulate? maxS 0 c.start).bind fun (s, arrive) =>
        (c.left? s.tStar arrive).map fun answer => (answer, s.seconds)

/-! ## The rings -/

/-- The pit is driven by what was fed so many seconds before, and until then by what was fed
before the step. -/
def Driven (lag : ℕ) (pre : ℚ) (seconds : List Second) : Prop :=
  ∀ t now, seconds[t]? = some now →
    if t < lag then now.drive = pre
    else ∃ earlier, seconds[t - lag]? = some earlier ∧ now.drive = earlier.feed

theorem driven_nil (lag : ℕ) (pre : ℚ) : Driven lag pre [] := by
  intro t now here
  cases here

theorem Driven.concat {lag : ℕ} {pre : ℚ} {seconds : List Second} {now : Second}
    (driven : Driven lag pre seconds) (later : 1 ≤ lag)
    (here : some now.drive = if seconds.length < lag then some pre
      else (seconds.map Second.feed)[seconds.length - lag]?) :
    Driven lag pre (seconds ++ [now]) := by
  intro t sec at_
  rcases Nat.lt_trichotomy t seconds.length with before | rfl | after
  · rw [List.getElem?_append_left before] at at_
    have held := driven t sec at_
    split_ifs at held ⊢
    · exact held
    · obtain ⟨earlier, found, same⟩ := held
      refine ⟨earlier, ?_, same⟩
      rwa [List.getElem?_append_left (by omega)]
  · rw [List.getElem?_concat_length] at at_
    cases at_
    split_ifs at here ⊢
    · exact Option.some.inj here
    · rw [List.getElem?_map] at here
      obtain ⟨earlier, found, same⟩ := Option.map_eq_some_iff.mp here.symm
      refine ⟨earlier, ?_, same.symm⟩
      rwa [List.getElem?_append_left (by omega)]
  · rw [List.getElem?_eq_none (by rw [List.length_append, List.length_singleton]; omega)] at at_
    cases at_

theorem ringAt_natCast (ring : List ℚ) (i : ℕ) : ringAt? ring i = ring[i]? :=
  if_pos (Int.natCast_nonneg i)

theorem ringPut_natCast {ring : List ℚ} {i : ℕ} (inside : i < ring.length) (v : ℚ) :
    ringPut? ring i v = some (ring.set i v) :=
  if_pos ⟨Int.natCast_nonneg i, by exact_mod_cast inside⟩

namespace Climb

variable (c : Climb)

/-- The dead time as a number of places. -/
def lag : ℕ := c.th.toNat

theorem th_eq : c.th = ⌊c.theta + 1 / 2⌋ :=
  if_neg (not_lt.mpr (add_nonneg c.theta_nonneg (by norm_num)))

theorem th_nonneg : 0 ≤ c.th := by
  rw [th_eq]
  exact Int.floor_nonneg.mpr (add_nonneg c.theta_nonneg (by norm_num))

theorem natCast_lag : (c.lag : ℤ) = c.th := Int.toNat_of_nonneg c.th_nonneg

theorem lag_le : c.lag ≤ 900 := by
  have most : c.th < 901 := by
    rw [th_eq, Int.floor_lt]
    have := c.theta_le
    push_cast
    linarith
  have := c.natCast_lag
  omega

theorem one_le_lag_iff : 1 ≤ c.lag ↔ 1 / 2 ≤ c.theta := by
  have cast := c.natCast_lag
  have floor : 1 ≤ c.th ↔ 1 / 2 ≤ c.theta := by
    rw [th_eq, Int.le_floor]
    push_cast
    constructor <;> intro le <;> linarith
  rw [← floor]
  omega

theorem back_eq (t : ℕ) : c.back t = ((t + ringSize - c.lag) % ringSize : ℕ) := by
  have small := c.lag_le
  have sum : (t : ℤ) + ringSize - c.th = (t + ringSize - c.lag : ℕ) := by
    rw [← c.natCast_lag]
    have : c.lag ≤ t + ringSize := by
      unfold ringSize
      omega
    push_cast [this]
    ring
  rw [back, sum, Int.ofNat_tmod]

theorem here_eq (t : ℕ) : (t : ℤ).tmod ringSize = (t % ringSize : ℕ) :=
  (Int.ofNat_tmod t ringSize).symm

theorem slot_lt (i : ℕ) : i % ringSize < ringSize := Nat.mod_lt i (by norm_num [ringSize])

/-! ## A second of the climb -/

variable {c}

/-- What the rings hold before second `t`. -/
structure Kept (c : Climb) (t : ℕ) (s : Sim) : Prop where
  length : s.seconds.length = t
  ring : Delays ringSize c.uPre (s.seconds.map Second.feed) s.ring
  mring : s.mring.length = ringSize

theorem kept_start : Kept c 0 c.start :=
  ⟨rfl, delays_replicate ringSize c.uPre, List.length_replicate⟩

theorem feed_succeeds {t : ℕ} {s : Sim} (kept : Kept c t s) :
    Succeeds (fun _ => True) (c.feed? t s) := by
  by_cases band : 0 < c.PB
  · have inside : (t + ringSize - c.lag) % ringSize < s.mring.length := by
      rw [kept.mring]
      exact slot_lt _
    simp only [feed?, if_pos band, back_eq, ringAt_natCast, List.getElem?_eq_getElem inside, div?,
      if_neg band.ne']
    exact ⟨_, rfl, trivial⟩
  · rw [feed?, if_neg band]
    exact ⟨_, rfl, trivial⟩

theorem drive_succeeds {t : ℕ} {s : Sim} (kept : Kept c t s) :
    Succeeds (fun drive => 1 ≤ c.lag → some drive = if t < c.lag then some c.uPre
      else (s.seconds.map Second.feed)[t - c.lag]?) (ringAt? s.ring (c.back t)) := by
  have length : (s.seconds.map Second.feed).length = t := by rw [List.length_map, kept.length]
  have inside : (t + ringSize - c.lag) % ringSize < s.ring.length := by
    rw [kept.ring.length]
    exact slot_lt _
  rw [back_eq, ringAt_natCast, List.getElem?_eq_getElem inside]
  refine ⟨_, rfl, fun later => ?_⟩
  have small := c.lag_le
  have reads := kept.ring.reads c.lag later (small.trans (by norm_num [ringSize]))
  rw [length] at reads
  rw [← reads, List.getElem?_eq_getElem inside]

/-- A second is added to those before it, with what it fed and what drove the pit. -/
structure Stepped (c : Climb) (t : ℕ) (s s' : Sim) (now : Second) : Prop where
  kept : Kept c (t + 1) s'
  seconds : s'.seconds = s.seconds ++ [now]
  feed : c.feed? t s = some now.feed
  drive : ringAt? s.ring (c.back t) = some now.drive
  delayed : 1 ≤ c.lag → some now.drive = if t < c.lag then some c.uPre
    else (s.seconds.map Second.feed)[t - c.lag]?

theorem step_succeeds {t : ℕ} {s : Sim} (kept : Kept c t s) :
    Succeeds (fun s' => ∃ now, Stepped c t s s' now) (c.step? t s) := by
  obtain ⟨u, fed, -⟩ := feed_succeeds kept
  obtain ⟨drive, found, delayed⟩ := drive_succeeds kept
  have length : (s.seconds.map Second.feed).length = t := by rw [List.length_map, kept.length]
  have tf : c.tf + 1 ≠ 0 := by
    have : 20 ≤ c.tf := le_max_left 20 _
    linarith
  have ring : t % ringSize < s.ring.length := by
    rw [kept.ring.length]
    exact slot_lt t
  have mring : t % ringSize < s.mring.length := by
    rw [kept.mring]
    exact slot_lt t
  simp only [step?, fed, found, here_eq, div?, if_neg c.tau_pos.ne', if_neg tf,
    Option.bind_eq_bind, Option.bind_some, ringPut_natCast ring, ringPut_natCast mring]
  refine ⟨_, rfl, ⟨u, drive, _⟩, ?_, rfl, fed, found, delayed⟩
  constructor
  · exact (List.length_append).trans (congrArg (· + 1) kept.length)
  · have written := kept.ring.write (by norm_num [ringSize]) u
    rw [length] at written
    rwa [List.map_append]
  · exact List.length_set.trans kept.mring

/-! ## The whole climb -/

/-- Where a run of the model leaves it. -/
structure Modelled (c : Climb) (s : Sim) (r : Sim × Option ℕ) : Prop where
  driven : 1 ≤ c.lag → Driven c.lag c.uPre s.seconds → Driven c.lag c.uPre r.1.seconds
  before : s.seconds <+: r.1.seconds

theorem simulate_succeeds (fuel : ℕ) {t : ℕ} {s : Sim} (kept : Kept c t s) :
    Succeeds (Modelled c s) (c.simulate? fuel t s) := by
  induction fuel generalizing t s with
  | zero => exact ⟨_, rfl, fun _ driven => driven, List.prefix_refl _⟩
  | succ fuel ih =>
      rw [simulate?]
      apply (step_succeeds kept).bind
      rintro s' ⟨now, stepped⟩
      have driven (later : 1 ≤ c.lag) (driven : Driven c.lag c.uPre s.seconds) :
          Driven c.lag c.uPre s'.seconds := by
        rw [stepped.seconds]
        apply driven.concat later
        rw [kept.length]
        exact stepped.delayed later
      have before : s.seconds <+: s'.seconds := by
        rw [stepped.seconds]
        exact List.prefix_append _ _
      split_ifs
      · exact ⟨_, rfl, driven, before⟩
      · apply (ih stepped.kept).imp
        intro r modelled
        exact ⟨fun later held => modelled.driven later (driven later held),
          before.trans modelled.before⟩

theorem simulate_first (fuel : ℕ) {t : ℕ} {s : Sim} (kept : Kept c t s) :
    Succeeds (fun r => ∃ s' now, Stepped c t s s' now ∧ s'.seconds <+: r.1.seconds)
      (c.simulate? (fuel + 1) t s) := by
  rw [simulate?]
  apply (step_succeeds kept).bind
  rintro s' ⟨now, stepped⟩
  split_ifs
  · exact ⟨_, rfl, s', now, stepped, List.prefix_refl _⟩
  · apply (simulate_succeeds fuel stepped.kept).imp
    intro r modelled
    exact ⟨s', now, stepped, modelled.before⟩

/-! ## The estimate -/

theorem rest_succeeds (arrive star : ℕ) : Succeeds (fun _ => True) (c.rest? arrive star) := by
  by_cases underWay : c.ask.t0C + 5 < c.ask.nowC ∧ c.th < star ∧ c.th < c.ask.elapsed
  · have late : (star : ℚ) ≠ 0 := by
      have := c.th_nonneg
      have : star ≠ 0 := by
        have := underWay.2.1
        omega
      exact_mod_cast this
    have moving : max 30 (c.ask.elapsed - c.theta) ≠ 0 :=
      (lt_of_lt_of_le (by norm_num) (le_max_left 30 _)).ne'
    have far : c.ask.toC - c.ask.t0C ≠ 0 := by
      have := c.climbs
      have := underWay.1
      linarith
    simp only [rest?, if_pos underWay, div?, if_neg late, if_neg moving, if_neg far,
      Option.bind_eq_bind, Option.bind_some]
    split_ifs with fast still
    · exact absurd still (lt_trans (by norm_num) fast).ne'
    · exact ⟨_, rfl, trivial⟩
    · exact ⟨_, rfl, trivial⟩
  · rw [rest?, if_neg underWay]
    exact ⟨_, rfl, trivial⟩

/-- What is returned for an estimate: none, or some time that is not below zero. -/
def Answer (r : ℚ) : Prop := r = -1 ∨ 0 ≤ r

theorem answer_floor (t : ℚ) : Answer (if 0 < t then t else 0) := by
  right
  split_ifs with later
  · exact later.le
  · exact le_rfl

theorem left_succeeds (star arrive : Option ℕ) : Succeeds Answer (c.left? star arrive) := by
  cases arrive with
  | none => exact ⟨-1, rfl, Or.inl rfl⟩
  | some arrive =>
      cases star with
      | none => exact ⟨_, rfl, answer_floor _⟩
      | some star =>
          by_cases still : c.ask.nowC ≤ c.ask.t0C + 1
          · simp only [left?, if_pos still]
            exact ⟨_, rfl, answer_floor _⟩
          · simp only [left?, if_neg still]
            exact (rest_succeeds arrive star).map fun t _ => answer_floor t

/-! ## Without a dead time -/

theorem clamp_le_max (v lo hi : ℚ) : clamp v lo hi ≤ max lo v := by
  unfold clamp
  split_ifs with under beyond
  · exact le_max_left lo v
  · exact beyond.le.trans (le_max_right lo v)
  · exact le_max_right lo v

theorem min_le_clamp {v lo hi : ℚ} (above : lo ≤ v) : min hi v ≤ clamp v lo hi := by
  rw [clamp, if_neg (not_lt.mpr above)]
  split_ifs
  · exact min_le_left hi v
  · exact min_le_right hi v

theorem uPre_lt_uMax (c : Climb) : c.uPre < c.ask.uMax := by
  have holds : (c.ask.t0C - c.ask.ambientC) / c.K < c.ask.uMax := by
    rw [div_lt_iff₀ c.K_pos]
    have := c.begins
    have := c.climbs
    have := c.arrives
    linarith [mul_comm c.K c.ask.uMax]
  exact (clamp_le_max _ 0 _).trans_lt (max_lt c.uMax_pos holds)

theorem uPre_lt_clamp (c : Climb) {more : ℚ} (positive : 0 < more) :
    c.uPre < clamp (c.uff + more) c.ask.uMin c.ask.uMax := by
  rcases c.limits with ⟨nonneg, ordered⟩ | ⟨-, crossed⟩
  · have fitted := clamp_mem (v := (c.ask.toC - c.ask.ambientC) / c.K) ordered.le
    have needed : (c.ask.toC - c.ask.ambientC) / c.K < c.ask.uMax := by
      rw [div_lt_iff₀ c.K_pos]
      linarith [c.arrives, mul_comm c.K c.ask.uMax]
    have pre : c.uPre ≤ c.uff := by
      have lower : (c.ask.t0C - c.ask.ambientC) / c.K ≤ (c.ask.toC - c.ask.ambientC) / c.K := by
        apply (div_le_div_iff_of_pos_right c.K_pos).mpr
        linarith [c.begins, c.climbs]
      apply (clamp_le_max _ 0 _).trans
      apply max_le (nonneg.trans fitted.1)
      unfold clamp
      split_ifs <;> linarith
    calc c.uPre < min c.ask.uMax (c.uff + more) :=
          lt_min c.uPre_lt_uMax (lt_of_le_of_lt pre (lt_add_of_pos_right _ positive))
      _ ≤ _ := min_le_clamp (fitted.1.trans (le_add_of_nonneg_right positive.le))
  · have above (v : ℚ) : c.ask.uMax ≤ clamp v c.ask.uMin c.ask.uMax := by
      unfold clamp
      split_ifs <;> linarith
    exact c.uPre_lt_uMax.trans_le (above _)

theorem first_feed {u : ℚ} (fed : c.feed? 0 c.start = some u) : c.uPre < u := by
  have below : c.ask.t0C < c.ask.toC := by linarith [c.begins, c.climbs]
  by_cases band : 0 < c.PB
  · have due : ringAt? c.start.mring (c.back 0) = some c.uPre := by
      rw [back_eq, ringAt_natCast]
      exact List.getElem?_replicate_of_lt (slot_lt _)
    have rested : clamp (c.K * (c.start.mdl - c.uPre)) (-100) 100 = 0 := by
      have same : c.start.mdl = c.uPre := rfl
      rw [same, sub_self, mul_zero]
      exact clamp_eq_self (by norm_num) (by norm_num)
    have still : c.start.dervF = 0 := rfl
    have here : c.start.T = c.ask.t0C := rfl
    simp only [feed?, if_pos band, due, rested, still, here, div?, if_neg band.ne', mul_zero,
      zero_div, sub_zero, add_zero, Option.bind_eq_bind, Option.bind_some,
      Option.some_inj] at fed
    have more : 0 < -((c.ask.t0C - c.ask.toC) / c.PB) := by
      rw [neg_pos]
      exact div_neg_of_neg_of_pos (sub_neg.mpr below) band
    rw [← fed, sub_eq_add_neg]
    exact c.uPre_lt_clamp more
  · have here : c.start.T < c.ask.toC := below
    rw [feed?, if_neg band, if_pos here] at fed
    rw [← Option.some.inj fed]
    exact c.uPre_lt_uMax

theorem not_driven_first {s' : Sim} {now : Second} (undelayed : c.lag = 0)
    (stepped : Stepped c 0 c.start s' now) {seconds : List Second}
    (before : s'.seconds <+: seconds) : ¬Driven c.lag c.uPre seconds := by
  intro driven
  have first : seconds[0]? = some now := by
    obtain ⟨rest, rfl⟩ := before
    rw [stepped.seconds]
    rfl
  have held := driven 0 now first
  rw [undelayed, if_neg (Nat.lt_irrefl 0)] at held
  obtain ⟨earlier, found, same⟩ := held
  rw [Nat.sub_zero, first] at found
  cases found
  have drive : ringAt? c.start.ring (c.back 0) = some c.uPre := by
    rw [back_eq, ringAt_natCast]
    exact List.getElem?_replicate_of_lt (slot_lt _)
  have pre : now.drive = c.uPre := Option.some.inj (stepped.drive.symm.trans drive)
  exact absurd (same.symm.trans pre) (first_feed stepped.feed).ne'

end Climb

namespace Learning

variable (l : Learning) (a : ClimbAsk)

theorem climbEta_succeeds : Succeeds (fun r => Climb.Answer r.1) (l.climbEta? a) := by
  rw [climbEta?]
  cases found : l.climb a with
  | error answer =>
      refine ⟨_, rfl, ?_⟩
      unfold climb at found
      split_ifs at found
      · split at found
        · cases found
          exact Or.inl rfl
        · split_ifs at found
          all_goals
            cases found
            exact Or.inl rfl
      · cases found
        exact Or.inr le_rfl
  | ok c =>
      apply (Climb.simulate_succeeds maxS Climb.kept_start).bind
      rintro ⟨s, arrive⟩ -
      exact (Climb.left_succeeds s.tStar arrive).map fun _ answer => answer

/-- The estimate is returned, it is none or not below zero, and every second of its climb was
driven by the feed of one dead time before. -/
def ClimbRight : Prop :=
  Succeeds (fun r => Climb.Answer r.1 ∧
    ∀ c, l.climb a = .ok c → Driven c.lag c.uPre r.2) (l.climbEta? a)

variable {l a}

theorem climbEta_eq {c : Climb} (found : l.climb a = .ok c) : l.climbEta? a =
    (c.simulate? maxS 0 c.start).bind fun r =>
      (c.left? r.1.tStar r.2).map fun answer => (answer, r.1.seconds) := by
  rw [climbEta?, found]

theorem climbRight_iff {c : Climb} (found : l.climb a = .ok c) :
    l.ClimbRight a ↔ 1 / 2 ≤ c.theta := by
  rw [← c.one_le_lag_iff, ClimbRight, climbEta_eq found]
  constructor
  · intro right
    by_contra undelayed
    obtain ⟨r, simulated, s', now, stepped, before⟩ :=
      Climb.simulate_first (maxS - 1) (Climb.kept_start (c := c))
    obtain ⟨answer, left, -⟩ := Climb.left_succeeds (c := c) r.1.tStar r.2
    have simulated : c.simulate? maxS 0 c.start = some r := simulated
    rw [simulated, Option.bind_some, left] at right
    obtain ⟨_, same, -, driven⟩ := right
    cases same
    exact Climb.not_driven_first (by omega) stepped before (driven c found)
  · intro delayed
    apply (Climb.simulate_succeeds maxS (Climb.kept_start (c := c))).bind
    intro r modelled
    apply (Climb.left_succeeds r.1.tStar r.2).map
    intro answer right
    refine ⟨right, fun c' found' => ?_⟩
    rw [found] at found'
    cases found'
    exact modelled.driven delayed (driven_nil _ _)

/-- For every library and every question the estimate is none or not below zero; and every
second of the climb it models is driven by the feed of one dead time before, unless the dead
time is below half a second, and only then not. -/
theorem climb_driven_iff (l : Learning) (a : ClimbAsk) :
    Succeeds (fun r => Climb.Answer r.1) (l.climbEta? a) ∧
      (l.ClimbRight a ↔ ∀ c, l.climb a = .ok c → 1 / 2 ≤ c.theta) := by
  refine ⟨climbEta_succeeds l a, ?_⟩
  cases found : l.climb a with
  | error answer =>
      constructor
      · rintro - c ⟨⟩
      · intro _
        apply (climbEta_succeeds l a).imp
        intro r right
        refine ⟨right, fun c ok => ?_⟩
        rw [found] at ok
        cases ok
  | ok c =>
      rw [climbRight_iff found]
      constructor
      · rintro delayed c' ⟨⟩
        exact delayed
      · intro delayed
        exact delayed c rfl

/-- A plant with no dead time. -/
def prompt : Learning :=
  { library := Library.empty.write 0 (some
      { TuneAnchor.blank with setpointC := 100, K := 500, tau := 900, PBc := 20, Ti := 200 })
    pendingPlant := none
    fopdt := none
    autotune := ⟨0, 0, 0, 0, 0, 0, 0, 0, false⟩
    autotuneGen := 0 }

def climbFromCold : ClimbAsk := ⟨20, 0, 20, 100, 20, 1 / 10, 9 / 10⟩

/-- A climb from 20 to 100 degrees. -/
theorem not_driven_without_dead_time : ¬∀ l a, Learning.ClimbRight l a := by
  intro right
  have plant : prompt.plant climbFromCold.toC = some ⟨500, 900, 0⟩ := by decide +kernel
  have climbs : climbFromCold.nowC + 1 < climbFromCold.toC := by norm_num [climbFromCold]
  have positive : (0 : ℚ) < 900 ∧ (0 : ℚ) < 500 := by norm_num
  have arrives : climbFromCold.toC + 1 < climbFromCold.ambientC + 500 * climbFromCold.most := by
    norm_num [climbFromCold, ClimbAsk.most]
  have found : ∃ c, prompt.climb climbFromCold = .ok c ∧ c.theta = 0 := by
    rw [climb, dif_pos climbs, plant]
    simp only
    rw [dif_pos positive, dif_pos arrives]
    refine ⟨_, rfl, ?_⟩
    norm_num
  obtain ⟨c, found, none_⟩ := found
  have delayed := (climbRight_iff found).mp (right prompt climbFromCold)
  rw [none_] at delayed
  norm_num at delayed

end Learning

end PiFire.Tuning
