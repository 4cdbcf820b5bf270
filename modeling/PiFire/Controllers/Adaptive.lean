import PiFire.Controllers.Pid
import PiFire.Rules.Table

/-!
# The controller that learns

A proportional band with an integral and a derivative on an error that a model of the grill
has corrected. The band and the integral time in force are a tuning's, which is the anchor,
or what the monitor made of them for the temperature range being held: a lesson, kept with the
anchor it was learned against. Whatever changes them ends in `recompute`.
-/

namespace PiFire.Adaptive

open Settings Pid

/-! ## The tuning rules -/

/-- `pf_tuning_rule` -/
inductive TuningRule where
  | tyreusLuyben
  | tlFastI
  | znOvershoot
  | cohenCoon
  deriving DecidableEq

/-- A band, an integral time and a derivative time. -/
structure Tuning where
  pbC : ℚ
  ti : ℚ
  td : ℚ
  deriving DecidableEq

/-- `pf_tuning_from_plant` -/
def tuningFromPlant (K tau theta : ℚ) : Tuning :=
  if ¬(0 < K) ∨ ¬(0 < tau) ∨ ¬(0 < theta) then ⟨0, 0, 0⟩
  else
    let tc := theta
    let kc := tau / (K * (tc + theta))
    if ¬(0 < kc) then ⟨0, 0, 0⟩ else ⟨1 / kc, min tau (4 * (tc + theta)), theta / 3⟩

/-- `pf_tuning_from_relay_plant` -/
def tuningFromRelayPlant (rule : TuningRule) (Ku Pu K tau theta : ℚ) : Tuning :=
  if ¬(0 < Ku) ∨ ¬(0 < Pu) then ⟨0, 0, 0⟩
  else
    let rule := if rule = .cohenCoon ∧ ¬(0 < K ∧ 0 < tau ∧ 0 < theta) then .tlFastI else rule
    match rule with
    | .tlFastI => ⟨1 / (Ku / (11 / 5)), Pu, Pu / 8⟩
    | .znOvershoot => ⟨1 / (Ku / 3), Pu / 2, Pu / 3⟩
    | .cohenCoon =>
        let r := theta / tau
        ⟨1 / ((tau / (K * theta)) * (4 / 3 + r / 4)),
          theta * (32 + 6 * r) / (13 + 8 * r), 4 * theta / (11 + 2 * r)⟩
    | .tyreusLuyben => ⟨1 / (Ku / (11 / 5)), 11 / 5 * Pu, Pu / (63 / 10)⟩

/-! ## The controller -/

/-- A temperature range in which lessons are kept. -/
abbrev Band := Fin 4

/-- The gains in force. -/
structure Gains where
  pbC : ℚ := 0
  ti : ℚ := 0
  td : ℚ := 0
  kp : ℚ := 0
  ki : ℚ := 0
  kd : ℚ := 0
  deriving DecidableEq

/-- What was typed in. -/
structure Config where
  autoTune : Bool := false
  cfgPbC : ℚ := 0
  cfgTi : ℚ := 0
  cfgTd : ℚ := 0
  ffGain : ℚ := 0

/-- The tuning that was measured. -/
structure Learned where
  pbC : ℚ := 0
  ti : ℚ := 0
  td : ℚ := 0
  valid : Bool := false
  ts : ℚ := 0
  src : String := ""

/-- The lessons of each temperature range, with the tuning each was learned against. -/
structure Lessons where
  bandLearned : Band → ℚ := fun _ => 0
  bandAnchor : Band → ℚ := fun _ => 0
  tiLearned : Band → ℚ := fun _ => 0
  tiAnchor : Band → ℚ := fun _ => 0

/-- The tuning library's answer for the set point. -/
structure Schedule where
  pbC : ℚ := 0
  ti : ℚ := 0
  td : ℚ := 0
  valid : Bool := false

/-- All that decides which band and which integral time are in force, and these. -/
structure Tuned where
  conf : Config := {}
  l : Learned := {}
  lessons : Lessons := {}
  bandPbC : ℚ := 0
  bandTi : ℚ := 0
  sch : Schedule := {}
  gains : Gains := {}

/-- The plant the prediction runs on. -/
structure Plant where
  K : ℚ
  tau : ℚ
  theta : ℚ

/-- The state of the model, and what it was in the last steps: a ring of time stamps and one
of values. -/
structure Smith where
  mdl : ℚ := 0
  ringT : ℕ → ℚ := fun _ => 0
  ringY : ℕ → ℚ := fun _ => 0
  ringN : ℕ := 0
  ringHead : ℕ := 0
  surplus : ℚ := 0

/-- What the loop keeps from one update to the next. -/
structure Loop where
  arrived : Bool := false
  inter : ℚ := 0
  lastErr : Option ℚ := some 0
  lastT : ℚ := 0
  lastPit : Option ℚ := some 0
  dervF : ℚ := 0
  p : Option ℚ := some 0
  i : ℚ := 0
  d : ℚ := 0
  ff : ℚ := 0
  u : Option ℚ := some 0
  haveLast : Bool := false
  setpointC : ℚ := 0
  inBand : Bool := false

/-- What the monitor has seen since its window opened, and since the last step. -/
structure Monitor where
  winStart : ℚ := 0
  winAbsSum : Option ℚ := some 0
  winSum : Option ℚ := some 0
  winSum1 : Option ℚ := some 0
  winSum2 : Option ℚ := some 0
  winPeak : ℚ := 0
  winN : ℕ := 0
  winN1 : ℕ := 0
  winN2 : ℕ := 0
  winChanges : ℕ := 0
  winSat : ℕ := 0
  lastSign : ℤ := 0
  stepT : ℚ := 0
  stepSize : ℚ := 0
  stepPeak : ℚ := 0
  stepOpen : Bool := false
  settledN : ℕ := 0

/-- The record the controller keeps under `learned`, as it is parsed: what is missing or is no
number is none. -/
structure Record where
  pbC : Option ℚ
  ti : Option ℚ
  td : Option ℚ
  bandLearned : List (Option ℚ)
  bandAnchor : List (Option ℚ)
  tiLearned : List (Option ℚ)
  tiAnchor : List (Option ℚ)
  valid : Bool
  ts : Option ℚ
  src : Option String
  theta : Option ℚ
  K : Option ℚ
  tau : Option ℚ
  m : Option ℚ
  bg : Option ℚ

/-- `ad_t`, with what is stored for it. -/
structure Controller where
  tuned : Tuned := {}
  plant : Plant
  smith : Smith := {}
  loop : Loop := {}
  monitor : Monitor := {}
  kv : Option Record := none

/-- What the controller reads of `pf_ctrl_in`. -/
structure CtrlIn where
  nowS : ℚ
  pitC : Option ℚ
  setpointC : ℚ
  uPrevApplied : ℚ
  schedPbC : ℚ := 0
  schedTi : ℚ := 0
  schedTd : ℚ := 0
  schedK : ℚ := 0
  schedTau : ℚ := 0
  schedTheta : ℚ := 0
  uFf : ℚ := 0
  saturated : ℤ := 0
  cycleTimeS : ℚ := 20
  targetReached : Bool := false
  tuning : Bool := false
  holdK : ℚ := 0
  lid : Bool := false

def learnMin : ℚ := 7 / 10
def learnMax : ℚ := 8 / 5
def tiLearnMin : ℚ := 2 / 5
def tiLearnMax : ℚ := 5 / 4

def windowS : ℚ := 600
def deadbandC : ℚ := 3 / 2
def offsetC : ℚ := 1
def ibandC : ℚ := 17 / 2

def thetaMin : ℚ := 40
def thetaMax : ℚ := 240
def thetaDefault : ℚ := 90
def kDefault : ℚ := 330
def tauDefault : ℚ := 1000
def kMin : ℚ := 60
def kMax : ℚ := 900
def tauMin : ℚ := 120
def tauMax : ℚ := 3000

def mdlRing : ℕ := 64
def surplusMax : ℚ := 100

def learnedRecGen : ℚ := 2
def bandRulesGen : ℤ := 2

def defaultPlant : Plant := ⟨kDefault, tauDefault, thetaDefault⟩

/-! ## The gains in force -/

section

/-- There are four ranges. -/
local instance ranges : NeZero 4 := ⟨by decide⟩

/-- The first range whose edge the set point is below. -/
def bandOf (setpointC : ℚ) : Band :=
  if setpointC < 933 / 10 then 0
  else if setpointC < 135 then 1
  else if setpointC < 1022 / 5 then 2
  else 3

end

namespace Tuned

def anchorPb (s : Tuned) : ℚ :=
  if s.sch.valid ∧ 0 < s.sch.pbC then s.sch.pbC
  else if s.conf.autoTune ∧ s.l.valid ∧ 0 < s.l.pbC then s.l.pbC
  else if 0 < s.conf.cfgPbC then s.conf.cfgPbC
  else s.l.pbC

def anchorTi (s : Tuned) : ℚ :=
  if s.sch.valid ∧ 0 < s.sch.ti then s.sch.ti
  else if s.conf.autoTune ∧ s.l.valid ∧ 0 < s.l.ti then s.l.ti
  else if 0 < s.conf.cfgTi then s.conf.cfgTi
  else s.l.ti

/-- The gains `recompute` works out. -/
def regain (s : Tuned) : Gains :=
  let useSched := s.sch.valid
  let useLearned := s.conf.autoTune && s.l.valid
  let anchor := s.anchorPb
  let pbC := if s.conf.autoTune ∧ 0 < s.bandPbC then s.bandPbC else anchor
  let ti := if useSched then s.sch.ti else if useLearned then s.l.ti else s.conf.cfgTi
  let ti := if s.conf.autoTune ∧ 0 < s.bandTi then s.bandTi else ti
  let td := if useSched then s.sch.td else if useLearned then s.l.td else s.conf.cfgTd
  let kp := if 0 < pbC then -1 / pbC else 0
  let ki := if 0 < ti then kp / ti else 0
  { pbC := pbC, ti := ti, td := td, kp := kp, ki := ki, kd := kp * td }

theorem regain_pbC_of_lesson {s : Tuned} (learns : s.conf.autoTune = true)
    (some_ : 0 < s.bandPbC) : s.regain.pbC = s.bandPbC := if_pos ⟨learns, some_⟩

theorem regain_pbC_of_none {s : Tuned} (none_ : ¬(s.conf.autoTune = true ∧ 0 < s.bandPbC)) :
    s.regain.pbC = s.anchorPb := if_neg none_

theorem regain_ti_of_lesson {s : Tuned} (learns : s.conf.autoTune = true) (some_ : 0 < s.bandTi) :
    s.regain.ti = s.bandTi := if_pos ⟨learns, some_⟩

theorem regain_ti_of_none {s : Tuned} (none_ : ¬(s.conf.autoTune = true ∧ 0 < s.bandTi)) :
    s.regain.ti = if s.sch.valid then s.sch.ti
      else if s.conf.autoTune && s.l.valid then s.l.ti else s.conf.cfgTi := if_neg none_

end Tuned

namespace Controller

/-- A controller whose tuning has been touched takes the gains it is to run on, and its
accumulated error is rescaled to them. -/
def recompute (s : Controller) : Controller :=
  let kiWas := s.tuned.gains.ki
  let gains := s.tuned.regain
  { s with
    tuned := { s.tuned with gains := gains }
    loop :=
      if kiWas ≠ 0 ∧ gains.ki ≠ 0 then { s.loop with inter := s.loop.inter * (kiWas / gains.ki) }
      else s.loop }

/-! ## What is stored -/

end Controller

/-- A number as it is printed with so many decimals. -/
def printedTo (places : ℕ) (x : ℚ) : ℚ :=
  Rules.AlarmTable.printedWhole (x * 10 ^ places) / 10 ^ places

/-- Four numbers as they are printed with so many decimals. -/
def printedBands (places : ℕ) (xs : Band → ℚ) : List (Option ℚ) :=
  (List.finRange 4).map fun b => some (printedTo places (xs b))

namespace Controller

/-- `save_learned` -/
def saveLearned (s : Controller) : Controller :=
  { s with
    kv := some
      { pbC := printedTo 2 s.tuned.l.pbC
        ti := printedTo 1 s.tuned.l.ti
        td := printedTo 1 s.tuned.l.td
        bandLearned := printedBands 2 s.tuned.lessons.bandLearned
        bandAnchor := printedBands 2 s.tuned.lessons.bandAnchor
        tiLearned := printedBands 1 s.tuned.lessons.tiLearned
        tiAnchor := printedBands 1 s.tuned.lessons.tiAnchor
        valid := s.tuned.l.valid
        ts := printedTo 0 s.tuned.l.ts
        src := s.tuned.l.src
        theta := printedTo 0 s.plant.theta
        K := printedTo 1 s.plant.K
        tau := printedTo 0 s.plant.tau
        m := learnedRecGen
        bg := (bandRulesGen : ℚ) } }

end Controller

/-- The number of a range, zero where it is none or not positive. -/
def loadedBand (xs : List (Option ℚ)) (b : Band) : ℚ :=
  match (xs[b.val]?).join with
  | some x => if 0 < x then x else 0
  | none => 0

/-- The lessons of a record; bands learned under older rules are not carried. -/
def loadedLessons (r : Record) : Lessons :=
  let older := truncate (r.bg.getD 1) < bandRulesGen
  { bandLearned := loadedBand (if older then [] else r.bandLearned)
    bandAnchor := loadedBand (if older then [] else r.bandAnchor)
    tiLearned := loadedBand r.tiLearned
    tiAnchor := loadedBand r.tiAnchor }

/-- The plant of a record, if the method that fitted it is still in use. -/
def loadedPlant (r : Record) : Plant :=
  if learnedRecGen ≤ r.m.getD 0 then
    { K := clamp (r.K.getD kDefault) kMin kMax
      tau := clamp (r.tau.getD tauDefault) tauMin tauMax
      theta := clamp (r.theta.getD thetaDefault) thetaMin thetaMax }
  else defaultPlant

/-- The configuration of a controller. -/
def configOf (c : Option Item) : Config where
  autoTune := match c.bind (·.getAnyCase? "auto_tune") with
    | some item => item.kind = .bool true
    | none => true
  cfgPbC := deltaToC (cfgNum c "PB" 80) (cfgUnits c)
  cfgTi := cfgNum c "Ti" 400
  cfgTd := cfgNum c "Td" 30
  ffGain := cfgNum c "ff_gain" 1

namespace Controller

/-- `load_learned` -/
def loadLearned (s : Controller) : Controller :=
  match s.kv with
  | none => { s with tuned := { s.tuned with lessons := {} } }
  | some r =>
      let pbC := r.pbC.getD 0
      let ti := r.ti.getD 0
      { s with
        tuned :=
          { s.tuned with
            l :=
              { pbC := pbC
                ti := ti
                td := r.td.getD 0
                valid := r.valid && 0 < pbC && 0 < ti
                ts := r.ts.getD 0
                src := String.ofList ((r.src.getD "").toList.take 7) }
            lessons := loadedLessons r }
        plant := loadedPlant r }

/-- `apply_config` -/
def applyConfig (s : Controller) (c : Option Item) : Controller :=
  recompute { s with tuned := { s.tuned with conf := configOf c } }

end Controller

/-- `create`, with what is stored. -/
def create (kv : Option Record) (c : Option Item) : Controller :=
  ({ plant := defaultPlant, kv := kv } : Controller).loadLearned.applyConfig c

/-! ## Lessons -/

namespace Tuned

/-- The lesson of a range on the band there is: in proportion, and near it. -/
def wantedPb (s : Tuned) (b : Band) : ℚ :=
  let v := s.lessons.bandLearned b
  let a0 := s.lessons.bandAnchor b
  let a := s.anchorPb
  if 0 < v then
    if 0 < a0 ∧ 0 < a then clamp (a * (v / a0)) (a * learnMin) (a * learnMax) else v
  else 0

def wantedTi (s : Tuned) (b : Band) : ℚ :=
  let tv := s.lessons.tiLearned b
  let ta0 := s.lessons.tiAnchor b
  let ta := s.anchorTi
  if 0 < tv ∧ 0 < ta0 ∧ 0 < ta then
    clamp (ta * (tv / ta0)) (ta * tiLearnMin) (ta * tiLearnMax)
  else 0

end Tuned

namespace Controller

/-- `use_band` -/
def useBand (s : Controller) (setpointC : ℚ) : Controller :=
  let b := bandOf setpointC
  recompute
    { s with
      tuned := { s.tuned with bandPbC := s.tuned.wantedPb b, bandTi := s.tuned.wantedTi b } }

/-- A lesson on the integral time, for the range being held. -/
def learnTi (s : Controller) (want a : ℚ) : Controller :=
  let b := bandOf s.loop.setpointC
  { s with
    tuned :=
      { s.tuned with
        lessons :=
          { s.tuned.lessons with
            tiLearned := Function.update s.tuned.lessons.tiLearned b want
            tiAnchor := Function.update s.tuned.lessons.tiAnchor b a }
        bandTi := want } }

/-- A lesson on the band, for the range being held. -/
def learnBand (s : Controller) (want a : ℚ) : Controller :=
  let b := bandOf s.loop.setpointC
  { s with
    tuned :=
      { s.tuned with
        lessons :=
          { s.tuned.lessons with
            bandLearned := Function.update s.tuned.lessons.bandLearned b want
            bandAnchor := Function.update s.tuned.lessons.bandAnchor b a }
        bandPbC := want } }

/-- `adjust_ti` -/
def adjustTi (s : Controller) (faster : ℚ) : Controller :=
  let a := s.tuned.anchorTi
  let base := if 0 < s.tuned.gains.ti then s.tuned.gains.ti else a
  if ¬(0 < base) ∨ ¬(0 < a) ∨ ¬(0 < faster) then s
  else
    let want := clamp (base / faster) (a * tiLearnMin) (a * tiLearnMax)
    if |want - s.tuned.gains.ti| < 1 / 2 then s else (s.learnTi want a).recompute.saveLearned

/-- `adjust_band` -/
def adjustBand (s : Controller) (tighter : ℚ) : Controller :=
  let base := if 0 < s.tuned.gains.pbC then s.tuned.gains.pbC else s.tuned.anchorPb
  if ¬(0 < base) ∨ ¬(0 < tighter) then s
  else
    let a := s.tuned.anchorPb
    let want := if 0 < a then clamp (base / tighter) (a * learnMin) (a * learnMax)
      else base / tighter
    if |want - s.tuned.gains.pbC| < 1 / 1000000 then s
    else (s.learnBand want (if 0 < a then a else want)).recompute.saveLearned

theorem tiLearn_ordered {a : ℚ} (positive : 0 < a) : a * tiLearnMin ≤ a * tiLearnMax :=
  mul_le_mul_of_nonneg_left (by norm_num [tiLearnMin, tiLearnMax]) positive.le

theorem learn_ordered {a : ℚ} (positive : 0 < a) : a * learnMin ≤ a * learnMax :=
  mul_le_mul_of_nonneg_left (by norm_num [learnMin, learnMax]) positive.le

theorem adjustTi_cases (s : Controller) (faster : ℚ) :
    s.adjustTi faster = s ∨ ∃ want, 0 < s.tuned.anchorTi ∧
      s.tuned.anchorTi * tiLearnMin ≤ want ∧ want ≤ s.tuned.anchorTi * tiLearnMax ∧
      s.adjustTi faster = (s.learnTi want s.tuned.anchorTi).recompute.saveLearned := by
  rw [adjustTi]
  generalize (if 0 < s.tuned.gains.ti then s.tuned.gains.ti else s.tuned.anchorTi) = base
  dsimp only
  by_cases refused : ¬(0 < base) ∨ ¬(0 < s.tuned.anchorTi) ∨ ¬(0 < faster)
  · exact Or.inl (if_pos refused)
  · have positive : 0 < s.tuned.anchorTi := by
      by_contra nothing
      exact refused (Or.inr (Or.inl nothing))
    rw [if_neg refused]
    split
    · exact Or.inl rfl
    · exact Or.inr ⟨_, positive, (clamp_mem (tiLearn_ordered positive)).1,
        (clamp_mem (tiLearn_ordered positive)).2, rfl⟩

theorem adjustBand_cases (s : Controller) (tighter : ℚ) :
    s.adjustBand tighter = s ∨ ∃ want, 0 < want ∧
      (0 < s.tuned.anchorPb →
        s.tuned.anchorPb * learnMin ≤ want ∧ want ≤ s.tuned.anchorPb * learnMax) ∧
      s.adjustBand tighter =
        (s.learnBand want
          (if 0 < s.tuned.anchorPb then s.tuned.anchorPb else want)).recompute.saveLearned := by
  rw [adjustBand]
  generalize (if 0 < s.tuned.gains.pbC then s.tuned.gains.pbC else s.tuned.anchorPb) = base
  dsimp only
  by_cases refused : ¬(0 < base) ∨ ¬(0 < tighter)
  · exact Or.inl (if_pos refused)
  · rw [if_neg refused]
    rw [not_or, not_not, not_not] at refused
    generalize wanted : (if 0 < s.tuned.anchorPb then clamp (base / tighter)
      (s.tuned.anchorPb * learnMin) (s.tuned.anchorPb * learnMax) else base / tighter) = want
    have near (positive : 0 < s.tuned.anchorPb) :
        s.tuned.anchorPb * learnMin ≤ want ∧ want ≤ s.tuned.anchorPb * learnMax := by
      rw [← wanted, if_pos positive]
      exact clamp_mem (learn_ordered positive)
    have some_ : 0 < want := by
      by_cases positive : 0 < s.tuned.anchorPb
      · exact (mul_pos positive (by norm_num [learnMin])).trans_le (near positive).1
      · rw [← wanted, if_neg positive]
        exact div_pos refused.1 refused.2
    split
    · exact Or.inl rfl
    · exact Or.inr ⟨want, some_, near, rfl⟩

end Controller

/-! ## The monitor -/

/-- The sum of two doubles. -/
def plus : Option ℚ → Option ℚ → Option ℚ
  | some x, some y => some (x + y)
  | _, _ => none

namespace Monitor

/-- `window_reset` -/
def windowReset (m : Monitor) (now : ℚ) : Monitor :=
  { m with
    winStart := now
    winAbsSum := some 0
    winSum := some 0
    winSum1 := some 0
    winSum2 := some 0
    winPeak := 0
    winN := 0
    winN1 := 0
    winN2 := 0
    winChanges := 0
    winSat := 0
    lastSign := 0 }

/-- On which side of the set point the pit is, if it is off by more than the dead band. -/
def signOf (e : Option ℚ) : ℤ :=
  if e.any (deadbandC < ·) then 1 else if e.any (· < -deadbandC) then -1 else 0

/-- One more reading in the window. -/
def observe (m : Monitor) (input : CtrlIn) (e : Option ℚ) : Monitor :=
  let a := e.map (|·|)
  let first := input.nowS - m.winStart < windowS / 2
  let sign := signOf e
  { m with
    winAbsSum := plus m.winAbsSum a
    winSum := plus m.winSum e
    winN := m.winN + 1
    winSum1 := if first then plus m.winSum1 e else m.winSum1
    winN1 := if first then m.winN1 + 1 else m.winN1
    winSum2 := if first then m.winSum2 else plus m.winSum2 e
    winN2 := if first then m.winN2 else m.winN2 + 1
    winPeak := match a with | some a => max m.winPeak a | none => m.winPeak
    winSat := if input.saturated ≠ 0 then m.winSat + 1 else m.winSat
    winChanges := if sign ≠ 0 ∧ m.lastSign ≠ 0 ∧ sign ≠ m.lastSign then m.winChanges + 1
      else m.winChanges
    lastSign := if sign ≠ 0 then sign else m.lastSign }

/-- The overshoot of a step so far, and for how long the pit has settled behind it. -/
def follow (m : Monitor) (e : Option ℚ) : Monitor :=
  let excess := if 0 < m.stepSize then e else e.map (- ·)
  { m with
    stepPeak := match excess with | some excess => max m.stepPeak excess | none => m.stepPeak
    settledN := if e.any (|·| < 2) then m.settledN + 1 else 0 }

/-- A step this old is no longer waited for. -/
def timeout (m : Monitor) (input : CtrlIn) : Prop := 3600 < input.nowS - m.stepT

instance (m : Monitor) (input : CtrlIn) : Decidable (m.timeout input) :=
  inferInstanceAs (Decidable (_ < _))

/-- The step is over. -/
def closes (m : Monitor) (input : CtrlIn) : Prop := 3 ≤ m.settledN ∨ m.timeout input

instance (m : Monitor) (input : CtrlIn) : Decidable (m.closes input) :=
  inferInstanceAs (Decidable (_ ∨ _))

/-- The pit settled behind a step that it overshot. -/
def overshot (m : Monitor) (input : CtrlIn) : Prop :=
  ¬m.timeout input ∧ 5 < m.stepPeak ∧ 3 / 20 * |m.stepSize| < m.stepPeak

instance (m : Monitor) (input : CtrlIn) : Decidable (m.overshot input) :=
  inferInstanceAs (Decidable (_ ∧ _))

/-- A sum over so many readings. -/
def mean (sum : Option ℚ) (n : ℕ) : Option ℚ := sum.map (· / n)

/-- What a window that is full shows. -/
inductive Finding where
  /-- sustained oscillation -/
  | hunting
  /-- slow to reach target -/
  | slow (tighter : ℚ)
  /-- settled above or below target -/
  | offset (faster : ℚ)
  | nothing

/-- The window was hardly ever at a bound of the feed. -/
def mostlyFree (m : Monitor) : Bool := m.winSat < m.winN / 4

def stepRecent (m : Monitor) (input : CtrlIn) : Bool :=
  m.stepOpen || input.nowS - m.stepT < 1200

/-- The second half of the window is no closer to the target than the first. -/
def stuck (m : Monitor) : Bool :=
  match mean m.winSum2 m.winN2, mean m.winSum1 m.winN1 with
  | some second, some first => |first| ≤ |second|
  | _, _ => false

def finding (m : Monitor) (input : CtrlIn) (arrived : Bool) : Finding :=
  let meanAbs := mean m.winAbsSum m.winN
  let meanSigned := mean m.winSum m.winN
  if 3 ≤ m.winChanges ∧ 3 ≤ m.winPeak then .hunting
  else if meanAbs.any (3 < ·) ∧ m.winChanges ≤ 1 ∧ m.mostlyFree ∧ ¬m.stepRecent input ∧
      input.targetReached then
    .slow (if meanAbs.any (6 < ·) then 5 / 4 else 23 / 20)
  else if meanSigned.any (offsetC < |·|) ∧ m.winChanges = 0 ∧ m.mostlyFree ∧
      ¬m.stepRecent input ∧ input.targetReached ∧ arrived ∧ 0 < m.winN1 ∧ 0 < m.winN2 ∧
      m.stuck then
    .offset (if meanSigned.any (5 / 2 < |·|) then 3 / 2 else 13 / 10)
  else .nothing

end Monitor

namespace Controller

/-- The step's end: a pit that overshot gets a wider band. -/
def endStep (s : Controller) (input : CtrlIn) : Controller :=
  if s.monitor.stepOpen ∧ s.monitor.closes input then
    let closed := { s with monitor := { s.monitor with stepOpen := false } }
    if s.monitor.overshot input then closed.adjustBand (9 / 10) else closed
  else s

/-- What the controller makes of a finding. -/
def learn (s : Controller) : Monitor.Finding → Controller
  | .hunting =>
      let s := s.adjustBand (17 / 20)
      if 0 < s.tuned.bandTi then s.adjustTi (1 / (23 / 20)) else s
  | .slow tighter => s.adjustBand tighter
  | .offset faster => s.adjustTi faster
  | .nothing => s

/-- The monitor of a controller at its next reading: the window, and the step if one is open. -/
def watched (s : Controller) (input : CtrlIn) (e : Option ℚ) : Monitor :=
  let m := s.monitor.observe input e
  if m.stepOpen then m.follow e else m

/-- `monitor` -/
def judge (s : Controller) (input : CtrlIn) (e : Option ℚ) : Controller :=
  if ¬s.tuned.conf.autoTune then s
  else if input.tuning ∨ input.lid then { s with monitor := s.monitor.windowReset input.nowS }
  else
    let s := endStep { s with monitor := s.watched input e } input
    if input.nowS - s.monitor.winStart < windowS ∨ s.monitor.winN < 10 then s
    else
      let s := s.learn (s.monitor.finding input s.loop.arrived)
      { s with monitor := s.monitor.windowReset input.nowS }

section Judged

variable (kept : Controller → Prop)
  (monitored : ∀ s m, kept s → kept { s with monitor := m })
  (band : ∀ s tighter, kept s → kept (s.adjustBand tighter))
  (ti : ∀ s faster, kept s → kept (s.adjustTi faster))

include monitored band in
theorem endStep_keeps {s : Controller} (holds : kept s) (input : CtrlIn) :
    kept (s.endStep input) := by
  have closed := monitored s { s.monitor with stepOpen := false } holds
  rw [endStep]
  split
  · dsimp only
    split
    · exact band _ _ closed
    · exact closed
  · exact holds

include band ti in
theorem learn_keeps {s : Controller} (holds : kept s) (finding : Monitor.Finding) :
    kept (s.learn finding) := by
  cases finding with
  | hunting =>
      rw [learn]
      split
      · exact ti _ _ (band _ _ holds)
      · exact band _ _ holds
  | slow tighter => exact band _ _ holds
  | offset faster => exact ti _ _ holds
  | nothing => exact holds

include monitored band ti in
/-- What neither the monitor's own state nor an adjustment breaks, the monitor keeps, however
many adjustments it makes. -/
theorem judge_keeps {s : Controller} (holds : kept s) (input : CtrlIn) (e : Option ℚ) :
    kept (s.judge input e) := by
  rw [judge]
  split
  · exact holds
  · split
    · exact monitored s _ holds
    · have ended := endStep_keeps kept monitored band (monitored s (s.watched input e) holds) input
      dsimp only
      split
      · exact ended
      · exact monitored _ _ (learn_keeps kept band ti ended _)

end Judged

end Controller

/-! ## The model of the grill -/

namespace Smith

/-- The slot that was written so many steps before the last one. -/
def slot (m : Smith) (k : ℕ) : ℕ := (m.ringHead + 2 * mdlRing - 1 - k) % mdlRing

/-- The model at a time, from the slot whose sample is the last not after it and the sample
before that one: on the line between the two. -/
def straddled (m : Smith) (want : ℚ) (i : ℕ) : Option (ℚ × ℚ) → ℚ
  | some (prevT, prevY) =>
      if m.ringT i < prevT then
        m.ringY i + (prevY - m.ringY i) * (want - m.ringT i) / (prevT - m.ringT i)
      else m.ringY i
  | none => m.ringY i

/-- The search for what the model was at a time, from a slot on, with the sample before it;
where the ring does not reach that far, it is what the model is now. -/
def search (m : Smith) (want : ℚ) : ℕ → ℕ → Option (ℚ × ℚ) → ℚ
  | 0, _, _ => m.mdl
  | left + 1, k, prev =>
      let i := m.slot k
      if m.ringT i ≤ want then m.straddled want i prev
      else m.search want left (k + 1) (some (m.ringT i, m.ringY i))

/-- What the model was at a time. -/
def before (m : Smith) (want : ℚ) : ℚ := m.search want m.ringN 0 none

/-- The step of the lag, and its sample in the ring. -/
def lag (m : Smith) (drive now dt tau : ℚ) : Smith :=
  let mdl := m.mdl + (drive - m.mdl) * (dt / tau)
  { m with
    mdl := mdl
    ringT := Function.update m.ringT m.ringHead now
    ringY := Function.update m.ringY m.ringHead mdl
    ringHead := (m.ringHead + 1) % mdlRing
    ringN := if m.ringN < mdlRing then m.ringN + 1 else m.ringN }

end Smith

namespace Controller

/-- The model after a step, with the feed that was applied. -/
def lagged (s : Controller) (input : CtrlIn) (dt : ℚ) : Smith :=
  s.smith.lag (clamp input.uPrevApplied 0 1) input.nowS dt s.plant.tau

/-- What the model said one dead time ago. -/
def delayed (s : Controller) (input : CtrlIn) (dt : ℚ) : ℚ :=
  (s.lagged input dt).before (input.nowS - clamp s.plant.theta thetaMin thetaMax)

/-- `model_step` -/
def modelStep (s : Controller) (input : CtrlIn) (dt : ℚ) : Controller :=
  if ¬(0 < s.plant.tau) ∨ ¬(0 < s.plant.K) ∨ ¬(0 < dt) then
    { s with smith := { s.smith with surplus := 0 } }
  else
    let m := s.lagged input dt
    { s with
      smith :=
        { m with
          surplus :=
            clamp (s.plant.K * (m.mdl - s.delayed input dt)) (-surplusMax) surplusMax } }

/-! ## The loop -/

/-- Whether a reading is this far from the set point at most. -/
def nearTarget (e : Option ℚ) : Bool := e.any (|·| ≤ ibandC)

/-- `reset` -/
def reset (s : Controller) (input : CtrlIn) : Controller :=
  let off := minus input.pitC (some input.setpointC)
  let spChange := s.loop.haveLast && s.loop.setpointC ≠ input.setpointC
  let far := off.any (ibandC < |·|)
  let monitor :=
    if spChange || far then
      { s.monitor with
        stepT := input.nowS
        stepSize := input.setpointC - if spChange then s.loop.setpointC else input.pitC.getD 0
        stepPeak := 0
        stepOpen := true
        settledN := 0 }
    else s.monitor
  let arrived := !(far || spChange && ibandC < |input.setpointC - s.loop.setpointC|)
  let s :=
    useBand
      { s with
        loop := { s.loop with arrived := arrived, setpointC := input.setpointC }
        monitor := monitor }
      input.setpointC
  let ff := s.tuned.conf.ffGain * input.uFf
  let seed := match off with
    | some e =>
        if s.tuned.gains.ki ≠ 0 ∧ |e| ≤ ibandC then
          clamp (input.uPrevApplied - ff - s.tuned.gains.kp * e) (-3 / 20) (3 / 20) /
            s.tuned.gains.ki
        else 0
    | none => 0
  { s with
    loop :=
      { s.loop with
        lastT := input.nowS
        lastPit := input.pitC
        dervF := 0
        lastErr := off
        haveLast := true
        inter := seed
        inBand := nearTarget off }
    monitor := s.monitor.windowReset input.nowS
    smith :=
      { s.smith with
        mdl := clamp input.uPrevApplied 0 1
        ringN := 0
        ringHead := 0
        surplus := 0 } }

/-- What the tuning library says at this set point is taken over where it differs, and the
lesson is put on it. -/
def takeSchedule (s : Controller) (input : CtrlIn) : Controller :=
  let sch := decide (0 < input.schedPbC ∧ 0 < input.schedTi)
  if sch ≠ s.tuned.sch.valid ∨ sch = true ∧ (input.schedPbC ≠ s.tuned.sch.pbC ∨
      input.schedTi ≠ s.tuned.sch.ti ∨ input.schedTd ≠ s.tuned.sch.td) then
    useBand
      { s with
        tuned :=
          { s.tuned with
            sch := ⟨input.schedPbC, input.schedTi, input.schedTd, sch⟩ } }
      input.setpointC
  else s

/-- The plant measured at this set point, and the gain of the settled holds near it. -/
def takePlant (s : Controller) (input : CtrlIn) : Controller :=
  let plant :=
    if 0 < input.schedK ∧ 0 < input.schedTau then
      { K := clamp input.schedK kMin kMax
        tau := clamp input.schedTau tauMin tauMax
        theta := if 0 < input.schedTheta then clamp input.schedTheta thetaMin thetaMax
          else s.plant.theta }
    else s.plant
  { s with
    plant :=
      if 0 < input.holdK ∧ ¬input.tuning then { plant with K := clamp input.holdK kMin kMax }
      else plant }

/-- The seconds since the last update, or those of a cycle where the clock did not go on. -/
def elapsed (s : Controller) (input : CtrlIn) : ℚ :=
  let dt := input.nowS - s.loop.lastT
  if dt ≤ 0 then (if 0 < input.cycleTimeS then input.cycleTimeS else 1) else dt

/-- Whether the pit has reached the set point since the last step, and whether just now. -/
def arrival (s : Controller) (eTrue : Option ℚ) : Bool × Bool :=
  if s.loop.arrived then (true, false)
  else
    let crossed :=
      0 ≤ s.monitor.stepSize && eTrue.any (0 ≤ ·) || s.monitor.stepSize < 0 && eTrue.any (· ≤ 0)
    if crossed then (true, true) else (!s.monitor.stepOpen, false)

/-- The accumulated error as it is when the pit enters the band around its set point, or
arrives. -/
def trimmed (s : Controller) (eTrue : Option ℚ) : ℚ :=
  let ki := s.tuned.gains.ki
  let inter :=
    if nearTarget eTrue ∧ ¬s.loop.inBand ∧ ki ≠ 0 then
      clamp s.loop.inter (-(3 / 20 / |ki|)) (3 / 20 / |ki|)
    else s.loop.inter
  if (s.arrival eTrue).2 then 0 else inter

/-- The accumulated error after the step; an error that is no number is not integrated, and
one that pushes into a clamp is neither. -/
def integrated (s : Controller) (input : CtrlIn) (eTrue e : Option ℚ) (dt : ℚ) : ℚ :=
  let satPush := 0 < input.saturated && e.any (· < 0) || input.saturated < 0 && e.any (0 < ·)
  let eInt := match eTrue, e with
    | some t, some x => if (s.arrival eTrue).1 ∧ 0 < t ∧ x < t then some t else some x
    | _, _ => e
  let inter := s.trimmed eTrue + if satPush then 0 else eInt.elim 0 (· * dt)
  let inter := if eTrue.any (· < -ibandC) ∧ inter < 0 then 0 else inter
  if eTrue.any (ibandC < ·) ∧ 0 < inter then 0 else inter

/-- The law: the output, and what is kept of it. -/
def law (s : Controller) (input : CtrlIn) (dt : ℚ) : Controller :=
  let gains := s.tuned.gains
  let eTrue := minus input.pitC (some input.setpointC)
  let e := eTrue.map (· + s.smith.surplus)
  let ff := s.tuned.conf.ffGain * input.uFf
  let p := e.map (gains.kp * ·)
  let inter := s.integrated input eTrue e dt
  let i := gains.ki * inter
  let inter := if 1 / 2 < i then (if gains.ki ≠ 0 then 1 / 2 / gains.ki else 0)
    else if i < -1 / 2 then (if gains.ki ≠ 0 then -1 / 2 / gains.ki else 0)
    else inter
  let i := clamp i (-1 / 2) (1 / 2)
  let derv := (minus input.pitC s.loop.lastPit).map (· / dt)
  let tf := max 20 (gains.td / 4)
  let dervF := s.loop.dervF + derv.elim 0 fun derv => (derv - s.loop.dervF) * dt / (tf + dt)
  let d := gains.kd * dervF
  { s with
    loop :=
      { s.loop with
        arrived := (s.arrival eTrue).1
        inter := inter
        lastErr := e
        lastT := input.nowS
        lastPit := input.pitC
        dervF := dervF
        p := p
        i := i
        d := d
        ff := ff
        u := p.map fun p => clamp (ff + p + i + d) (-1) 2
        inBand := nearTarget eTrue } }

/-- What an update does before it knows how much time went by: a new set point resets the
loop, and what was measured at it is taken over. -/
def prepared (s : Controller) (input : CtrlIn) : Controller :=
  let s := if ¬s.loop.haveLast ∨ s.loop.setpointC ≠ input.setpointC then s.reset input else s
  (s.takeSchedule input).takePlant input

/-- What an update does before the monitor looks at it. -/
def driven (s : Controller) (input : CtrlIn) : Controller :=
  let s := s.prepared input
  (s.modelStep input (s.elapsed input)).law input (s.elapsed input)

/-- `update`; the output is `u` of the loop. -/
def update (s : Controller) (input : CtrlIn) : Controller :=
  (s.driven input).judge input (minus input.pitC (some input.setpointC))

theorem modelStep_tuned (s : Controller) (input : CtrlIn) (dt : ℚ) :
    (s.modelStep input dt).tuned = s.tuned := by
  rw [modelStep]
  split
  · rfl
  · rfl

theorem driven_tuned (s : Controller) (input : CtrlIn) :
    (s.driven input).tuned = (s.prepared input).tuned := modelStep_tuned _ _ _

/-! ## What is handed over, and what is thrown away -/

/-- `configure` -/
def configure (s : Controller) (c : Option Item) : Controller :=
  let s := s.applyConfig c
  { s with loop := { s.loop with haveLast := false } }

/-- `forget`, with what is to be forgotten: the tuning, the refinement. -/
def forget (s : Controller) (tuning refinement : Bool) : Controller :=
  let s :=
    if tuning then
      { s with tuned := { s.tuned with l := {} }, plant := defaultPlant }
    else s
  let s :=
    if refinement then
      { s with
        tuned :=
          { s.tuned with
            lessons :=
              { s.tuned.lessons with bandLearned := fun _ => 0, bandAnchor := fun _ => 0 }
            bandPbC := 0 }
        monitor := s.monitor.windowReset s.loop.lastT }
    else s
  s.recompute.saveLearned

/-- The plant of a measurement, as far as it has one. -/
def measuredPlant (p : Plant) (K tau theta : ℚ) : Plant :=
  { theta := if 0 < theta then clamp theta thetaMin thetaMax else p.theta
    K := if 0 < K then clamp K kMin kMax else p.K
    tau := if 0 < tau then clamp tau tauMin tauMax else p.tau }

/-- What a rule makes of a measurement, held near the configuration where it is only a fit of
a rise, and smoothed then with the tuning before it. -/
def bounded (s : Tuned) (relay : Bool) (t : Tuning) : Tuning :=
  let t :=
    if relay then t
    else
      { pbC := clamp t.pbC (s.conf.cfgPbC * (1 / 2)) (s.conf.cfgPbC * (3 / 2))
        ti := clamp t.ti (s.conf.cfgTi * (1 / 2)) (s.conf.cfgTi * 2)
        td := clamp t.td 0 (s.conf.cfgTd * 2) }
  let t : Tuning := ⟨clamp t.pbC 15 400, clamp t.ti 60 3600, clamp t.td 0 240⟩
  if s.l.valid ∧ ¬relay then
    ⟨1 / 2 * (t.pbC + s.l.pbC), 1 / 2 * (t.ti + s.l.ti), 1 / 2 * (t.td + s.l.td)⟩
  else t

/-- The lessons after a measurement: half the correction of its range is kept. -/
def rescaled (l : Lessons) (band : Band) (pbC : ℚ) : Lessons :=
  let r := if 0 < l.bandLearned band ∧ 0 < l.bandAnchor band
    then l.bandLearned band / l.bandAnchor band else 0
  { l with
    bandLearned := Function.update l.bandLearned band
      (if 0 < r then pbC * clamp (1 + 1 / 2 * (r - 1)) learnMin learnMax else 0)
    bandAnchor := Function.update l.bandAnchor band (if 0 < r then pbC else 0) }

/-- A measurement that is handed over, with the rule selected and the time. -/
structure Measurement where
  rule : TuningRule := .tlFastI
  Ku : ℚ := 0
  Pu : ℚ := 0
  K : ℚ := 0
  tau : ℚ := 0
  theta : ℚ := 0
  now : ℚ := 0

/-- It is a relay's. -/
def Measurement.relay (m : Measurement) : Bool := 0 < m.Ku ∧ 0 < m.Pu

/-- The tuning of a measurement by the rule written for it, if it has what that takes. -/
def designed (p : Plant) (m : Measurement) : Option Tuning :=
  if m.relay then some (tuningFromRelayPlant m.rule m.Ku m.Pu p.K p.tau p.theta)
  else if 0 < m.K ∧ 0 < m.tau ∧ 0 < m.theta then some (tuningFromPlant m.K m.tau m.theta)
  else none

/-- `apply_tuning` -/
def applyTuning (s : Controller) (m : Measurement) : Controller :=
  let s := { s with plant := measuredPlant s.plant m.K m.tau m.theta }
  match designed s.plant m with
  | none => s
  | some t =>
      if ¬(0 < t.pbC) ∨ ¬(0 < t.ti) then s
      else
        let t := bounded s.tuned m.relay t
        saveLearned <| recompute
          { s with
            tuned :=
              { s.tuned with
                l :=
                  { pbC := t.pbC, ti := t.ti, td := t.td, valid := true, ts := m.now,
                    src := if m.relay then "relay" else "model" }
                lessons := rescaled s.tuned.lessons (bandOf s.loop.setpointC) t.pbC } }

/-- What the daemon does to a controller; a restart finds what was stored. -/
inductive Call where
  | reset (input : CtrlIn)
  | update (input : CtrlIn)
  | configure (c : Option Item)
  | forget (tuning refinement : Bool)
  | applyTuning (m : Measurement)
  | restart (c : Option Item)

def call : Call → Controller → Controller
  | .reset input, s => s.reset input
  | .update input, s => s.update input
  | .configure c, s => s.configure c
  | .forget tuning refinement, s => s.forget tuning refinement
  | .applyTuning m, s => s.applyTuning m
  | .restart c, s => create s.kv c

end Controller

end PiFire.Adaptive
