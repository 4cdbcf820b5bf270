import PiFire.Controllers.Retune
import PiFire.Lag.Signal
import Mathlib.Data.List.Induction

/-!
# The model of the grill

The model's state goes to the feed that was applied by a fraction of the way, the seconds of
the step in time constants. As long as a step is no longer than the time constant, the state
stays between nothing and a full feed, and with a feed that does not change the difference to
what it was one dead time ago keeps its sign and dies out. A longer step goes past the feed.
-/

namespace PiFire.Adaptive

open Transition Settings Pid Lag

namespace Smith

/-- The sample that was written so many steps before the last one. -/
def sampleAt (m : Smith) (k : ℕ) : ℚ × ℚ := (m.ringT (m.slot k), m.ringY (m.slot k))

/-- What the ring holds, the newest sample first. -/
def samples (m : Smith) : List (ℚ × ℚ) := (List.range m.ringN).map m.sampleAt

/-- The ring has no more samples than slots. -/
structure Ringed (m : Smith) : Prop where
  head : m.ringHead < mdlRing
  n : m.ringN ≤ mdlRing

theorem search_eq (m : Smith) (want : ℚ) (left k : ℕ) (prev : Option (ℚ × ℚ)) :
    m.search want left k prev =
      readBack m.mdl want ((List.range' k left).map m.sampleAt) prev := by
  induction left generalizing k prev with
  | zero => rfl
  | succ left ih =>
      rw [search, List.range'_succ, List.map_cons, readBack]
      by_cases passed : m.ringT (m.slot k) ≤ want
      · rw [if_pos passed]
        have passed' : (m.sampleAt k).1 ≤ want := passed
        rw [if_pos passed']
        cases prev with
        | none => rfl
        | some next => rfl
      · have passed' : ¬(m.sampleAt k).1 ≤ want := passed
        rw [if_neg passed, if_neg passed']
        exact ih (k + 1) _

theorem before_eq (m : Smith) (want : ℚ) :
    m.before want = readBack m.mdl want m.samples none := by
  rw [before, search_eq, samples, List.range_eq_range']

theorem length_samples (m : Smith) : m.samples.length = m.ringN := by
  rw [samples, List.length_map, List.length_range]

theorem samples_lag {m : Smith} (ringed : m.Ringed) (drive now dt tau : ℚ) :
    (m.lag drive now dt tau).samples =
      ((now, relax drive (dt / tau) m.mdl) :: m.samples).take mdlRing := by
  obtain ⟨head, n⟩ := ringed
  have count : (m.lag drive now dt tau).ringN = min 63 m.ringN + 1 := by
    rw [lag]
    dsimp only
    rw [mdlRing] at *
    split <;> omega
  have first : (m.lag drive now dt tau).sampleAt 0 = (now, relax drive (dt / tau) m.mdl) := by
    have here : (m.lag drive now dt tau).slot 0 = m.ringHead := by
      rw [slot, lag]
      dsimp only
      rw [mdlRing] at *
      omega
    rw [sampleAt, here, lag]
    dsimp only
    rw [Function.update_self, Function.update_self]
    rfl
  have others : ∀ k ∈ List.range (min 63 m.ringN),
      ((m.lag drive now dt tau).sampleAt ∘ Nat.succ) k = m.sampleAt k := by
    intro k inside
    have small := List.mem_range.mp inside
    have same : (m.lag drive now dt tau).slot (k + 1) = m.slot k := by
      rw [slot, slot, lag]
      dsimp only
      rw [mdlRing] at *
      omega
    have apart : m.slot k ≠ m.ringHead := by
      rw [slot]
      rw [mdlRing] at *
      omega
    rw [Function.comp_apply, Nat.succ_eq_add_one, sampleAt, same, lag]
    dsimp only
    rw [Function.update_of_ne apart, Function.update_of_ne apart]
    rfl
  rw [samples, count, List.range_succ_eq_map, List.map_cons, List.map_map, first,
    List.map_congr_left others, mdlRing, List.take_succ_cons, samples, ← List.map_take,
    List.take_range]

theorem ringed_lag {m : Smith} (ringed : m.Ringed) (drive now dt tau : ℚ) :
    (m.lag drive now dt tau).Ringed := by
  obtain ⟨head, n⟩ := ringed
  constructor
  · exact Nat.mod_lt _ (by decide)
  · rw [lag]
    dsimp only
    rw [mdlRing] at *
    split <;> omega

end Smith

/-! ## What a call does to the model -/

namespace Controller

/-- The plant is within the bounds every path holds it in. -/
structure Planted (p : Plant) : Prop where
  tauLow : tauMin ≤ p.tau
  tauHigh : p.tau ≤ tauMax
  kLow : kMin ≤ p.K
  kHigh : p.K ≤ kMax

theorem Planted.tau_pos {p : Plant} (planted : Planted p) : 0 < p.tau :=
  lt_of_lt_of_le (by norm_num [tauMin]) planted.tauLow

theorem Planted.K_pos {p : Plant} (planted : Planted p) : 0 < p.K :=
  lt_of_lt_of_le (by norm_num [kMin]) planted.kLow

theorem clamp_tau (x : ℚ) : tauMin ≤ clamp x tauMin tauMax ∧ clamp x tauMin tauMax ≤ tauMax :=
  clamp_mem (by norm_num [tauMin, tauMax])

theorem clamp_K (x : ℚ) : kMin ≤ clamp x kMin kMax ∧ clamp x kMin kMax ≤ kMax :=
  clamp_mem (by norm_num [kMin, kMax])

theorem default_planted : Planted defaultPlant := by
  constructor <;> norm_num [defaultPlant, tauMin, tauMax, kMin, kMax, tauDefault, kDefault]

theorem loaded_planted (r : Record) : Planted (loadedPlant r) := by
  rw [loadedPlant]
  split
  · exact ⟨(clamp_tau _).1, (clamp_tau _).2, (clamp_K _).1, (clamp_K _).2⟩
  · exact default_planted

theorem create_planted (kv : Option Record) (c : Option Item) : Planted (create kv c).plant := by
  cases kv with
  | none => exact default_planted
  | some r => exact loaded_planted r

theorem takePlant_planted {s : Controller} (planted : Planted s.plant) (input : CtrlIn) :
    Planted (s.takePlant input).plant := by
  have measured : Planted (if 0 < input.schedK ∧ 0 < input.schedTau then
      { K := clamp input.schedK kMin kMax
        tau := clamp input.schedTau tauMin tauMax
        theta := if 0 < input.schedTheta then clamp input.schedTheta thetaMin thetaMax
          else s.plant.theta }
    else s.plant) := by
    split
    · exact ⟨(clamp_tau _).1, (clamp_tau _).2, (clamp_K _).1, (clamp_K _).2⟩
    · exact planted
  rw [takePlant]
  dsimp only
  generalize (if 0 < input.schedK ∧ 0 < input.schedTau then
      { K := clamp input.schedK kMin kMax
        tau := clamp input.schedTau tauMin tauMax
        theta := if 0 < input.schedTheta then clamp input.schedTheta thetaMin thetaMax
          else s.plant.theta }
    else s.plant) = p at measured ⊢
  split
  · exact ⟨measured.tauLow, measured.tauHigh, (clamp_K _).1, (clamp_K _).2⟩
  · exact measured

theorem measured_planted {p : Plant} (planted : Planted p) (K tau theta : ℚ) :
    Planted (measuredPlant p K tau theta) := by
  have time : tauMin ≤ (measuredPlant p K tau theta).tau ∧
      (measuredPlant p K tau theta).tau ≤ tauMax := by
    rw [measuredPlant]
    dsimp only
    split
    · exact clamp_tau _
    · exact ⟨planted.tauLow, planted.tauHigh⟩
  have gain : kMin ≤ (measuredPlant p K tau theta).K ∧
      (measuredPlant p K tau theta).K ≤ kMax := by
    rw [measuredPlant]
    dsimp only
    split
    · exact clamp_K _
    · exact ⟨planted.kLow, planted.kHigh⟩
  exact ⟨time.1, time.2, gain.1, gain.2⟩

theorem takeSchedule_smith (s : Controller) (input : CtrlIn) :
    (s.takeSchedule input).smith = s.smith ∧ (s.takeSchedule input).plant = s.plant := by
  rw [takeSchedule]
  split
  · exact ⟨rfl, rfl⟩
  · exact ⟨rfl, rfl⟩

theorem recompute_lastT (s : Controller) : s.recompute.loop.lastT = s.loop.lastT := by
  rw [recompute]
  dsimp only
  split
  · rfl
  · rfl

theorem judge_smith (s : Controller) (input : CtrlIn) (e : Option ℚ) :
    (s.judge input e).smith = s.smith ∧ (s.judge input e).plant = s.plant ∧
      (s.judge input e).loop.lastT = s.loop.lastT := by
  refine judge_keeps (fun now => now.smith = s.smith ∧ now.plant = s.plant ∧
    now.loop.lastT = s.loop.lastT) (fun _ _ kept => kept) ?_ ?_ ⟨rfl, rfl, rfl⟩ input e
  · intro now tighter kept
    rcases now.adjustBand_cases tighter with same | ⟨want, _, _, learned⟩
    · rwa [same]
    · rw [learned]
      refine ⟨kept.1, kept.2.1, Eq.trans ?_ kept.2.2⟩
      exact recompute_lastT _
  · intro now faster kept
    rcases now.adjustTi_cases faster with same | ⟨want, _, _, _, learned⟩
    · rwa [same]
    · rw [learned]
      refine ⟨kept.1, kept.2.1, Eq.trans ?_ kept.2.2⟩
      exact recompute_lastT _

theorem elapsed_pos (s : Controller) (input : CtrlIn) : 0 < s.elapsed input := by
  rw [elapsed]
  split_ifs with back cycle
  · exact cycle
  · exact zero_lt_one
  · exact not_le.mp back

/-- A model that starts where the feed has it, with no history. -/
def restarted (m : Smith) (drive : ℚ) : Smith :=
  { m with mdl := drive, ringN := 0, ringHead := 0, surplus := 0 }

theorem reset_smith (s : Controller) (input : CtrlIn) :
    (s.reset input).smith = restarted s.smith (clamp input.uPrevApplied 0 1) ∧
      (s.reset input).plant = s.plant := ⟨rfl, rfl⟩

theorem prepared_smith (s : Controller) (input : CtrlIn) :
    (s.prepared input).smith = s.smith ∨
      (s.prepared input).smith = restarted s.smith (clamp input.uPrevApplied 0 1) := by
  rw [prepared]
  split
  · exact Or.inr ((takeSchedule_smith _ _).1.trans (reset_smith s input).1)
  · exact Or.inl (takeSchedule_smith _ _).1

theorem prepared_planted {s : Controller} (planted : Planted s.plant) (input : CtrlIn) :
    Planted (s.prepared input).plant := by
  have taken (now : Controller) (planted : Planted now.plant) :
      Planted ((now.takeSchedule input).takePlant input).plant := by
    apply takePlant_planted
    rwa [(takeSchedule_smith now input).2]
  rw [prepared]
  split
  · exact taken (s.reset input) planted
  · exact taken s planted

theorem update_smith {s : Controller} (planted : Planted s.plant) (input : CtrlIn) :
    (s.update input).smith =
        { (s.prepared input).lagged input ((s.prepared input).elapsed input) with
          surplus :=
            clamp ((s.prepared input).plant.K *
              (((s.prepared input).lagged input ((s.prepared input).elapsed input)).mdl -
                (s.prepared input).delayed input ((s.prepared input).elapsed input)))
              (-surplusMax) surplusMax } ∧
      (s.update input).plant = (s.prepared input).plant ∧
      (s.update input).loop.lastT = input.nowS := by
  have kept := prepared_planted planted input
  have goes : ¬(¬(0 < (s.prepared input).plant.tau) ∨ ¬(0 < (s.prepared input).plant.K) ∨
      ¬(0 < (s.prepared input).elapsed input)) := by
    rw [not_or, not_or, not_not, not_not, not_not]
    exact ⟨kept.tau_pos, kept.K_pos, elapsed_pos _ _⟩
  obtain ⟨smith, plant, time⟩ :=
    judge_smith (s.driven input) input (minus input.pitC (some input.setpointC))
  have step : (s.prepared input).modelStep input ((s.prepared input).elapsed input) = _ :=
    if_neg goes
  refine ⟨smith.trans ?_, plant.trans ?_, time.trans rfl⟩
  · exact congrArg Controller.smith step
  · exact (congrArg Controller.plant step : ((s.prepared input).modelStep input _).plant = _)

theorem call_planted {s : Controller} (planted : Planted s.plant) (c : Call) :
    Planted (call c s).plant := by
  cases c with
  | reset input => exact planted
  | update input =>
      rw [call, (update_smith planted input).2.1]
      exact prepared_planted planted input
  | configure c => exact planted
  | forget tuning refinement =>
      cases tuning <;> cases refinement
      · exact planted
      · exact planted
      · exact default_planted
      · exact default_planted
  | applyTuning m =>
      have measured := measured_planted planted m.K m.tau m.theta
      rw [call, applyTuning]
      dsimp only
      split
      · exact measured
      · split
        · exact measured
        · exact measured
  | restart c => exact create_planted s.kv c

/-- The feed the model is driven by. -/
def drive (input : CtrlIn) : ℚ := clamp input.uPrevApplied 0 1

theorem drive_mem (input : CtrlIn) : drive input ∈ Set.Icc 0 1 := clamp_mem zero_le_one

/-- How many time constants a call goes on. -/
def fraction : Call → Controller → ℚ
  | .update input, s => (s.prepared input).elapsed input / (s.prepared input).plant.tau
  | _, _ => 0

/-- How many updates a call makes. -/
def updates : Call → ℕ
  | .update _ => 1
  | _ => 0

/-- A step is no longer than the time constant in force. -/
def Brief : Call → Controller → Prop
  | .update input, s => (s.prepared input).elapsed input ≤ (s.prepared input).plant.tau
  | _, _ => True

instance (c : Call) (s : Controller) : Decidable (Brief c s) :=
  match c with
  | .update _ => inferInstanceAs (Decidable (_ ≤ _))
  | .reset _ => isTrue trivial
  | .configure _ => isTrue trivial
  | .forget _ _ => isTrue trivial
  | .applyTuning _ => isTrue trivial
  | .restart _ => isTrue trivial

/-- A model with the step of an update: by so much of the way, and so far ahead of what it was
at a time. -/
structure Stepped (m : Smith) (input : CtrlIn) (fraction : ℚ) (m' : Smith) : Prop where
  mdl : m'.mdl = relax (drive input) fraction m.mdl
  ringed : m.Ringed → m'.Ringed
  samples : m.Ringed → m'.samples = ((input.nowS, m'.mdl) :: m.samples).take mdlRing
  ahead : ∃ K want, kMin ≤ K ∧ K ≤ kMax ∧
    m'.surplus = clamp (K * (m'.mdl - m'.before want)) (-surplusMax) surplusMax

theorem lag_stepped (m : Smith) (input : CtrlIn) (dt tau want : ℚ) {K : ℚ} (low : kMin ≤ K)
    (high : K ≤ kMax) : Stepped m input (dt / tau)
      { m.lag (drive input) input.nowS dt tau with
        surplus :=
          clamp (K * ((m.lag (drive input) input.nowS dt tau).mdl -
            (m.lag (drive input) input.nowS dt tau).before want)) (-surplusMax) surplusMax } := by
  constructor
  · rfl
  · intro ringed
    obtain ⟨head, n⟩ := Smith.ringed_lag ringed (drive input) input.nowS dt tau
    exact ⟨head, n⟩
  · intro ringed
    exact Smith.samples_lag ringed _ _ _ _
  · refine ⟨K, want, low, high, ?_⟩
    rw [Smith.before_eq, Smith.before_eq]
    rfl

/-- A call makes a step of the model as it was or restarted, restarts it, makes a new one, or
leaves it. -/
theorem call_smith {s : Controller} (planted : Planted s.plant) (c : Call) :
    (∃ input, c = .update input ∧ ∃ m, (m = s.smith ∨ m = restarted s.smith (drive input)) ∧
        Stepped m input (fraction c s) (call c s).smith) ∨
      (∃ input, c = .reset input ∧ (call c s).smith = restarted s.smith (drive input)) ∨
      (∃ config, c = .restart config ∧ (call c s).smith = {}) ∨
      fraction c s = 0 ∧ updates c = 0 ∧ (call c s).smith = s.smith := by
  cases c with
  | update input =>
      left
      refine ⟨input, rfl, _, prepared_smith s input, ?_⟩
      have kept := prepared_planted planted input
      rw [call, (update_smith planted input).1]
      exact lag_stepped _ input _ _ _ kept.kLow kept.kHigh
  | reset input => exact Or.inr (Or.inl ⟨input, rfl, rfl⟩)
  | restart config =>
      right; right; left
      refine ⟨config, rfl, ?_⟩
      rw [call]
      cases s.kv with
      | none => rfl
      | some r => rfl
  | configure c => exact Or.inr (Or.inr (Or.inr ⟨rfl, rfl, rfl⟩))
  | forget tuning refinement =>
      right; right; right
      exact ⟨rfl, rfl, by cases tuning <;> cases refinement <;> rfl⟩
  | applyTuning m =>
      right; right; right
      refine ⟨rfl, rfl, ?_⟩
      rw [call, applyTuning]
      dsimp only
      split
      · rfl
      · split
        · rfl
        · rfl

theorem fraction_mem {s : Controller} (planted : Planted s.plant) {c : Call} (brief : Brief c s) :
    0 ≤ fraction c s ∧ fraction c s ≤ 1 := by
  cases c with
  | update input =>
      have positive := (prepared_planted planted input).tau_pos
      exact ⟨div_nonneg (elapsed_pos _ _).le positive.le, (div_le_one positive).mpr brief⟩
  | _ => exact ⟨le_rfl, zero_le_one⟩

/-! ## The state stays between nothing and a full feed -/

/-- The state and all its samples are between nothing and a full feed. -/
structure Inside (s : Controller) : Prop where
  planted : Planted s.plant
  ringed : s.smith.Ringed
  mdl : s.smith.mdl ∈ Set.Icc 0 1
  samples : ∀ p ∈ s.smith.samples, p.2 ∈ Set.Icc 0 1

theorem restarted_samples (m : Smith) (u : ℚ) : (restarted m u).samples = [] := rfl

theorem restarted_ringed (m : Smith) (u : ℚ) : (restarted m u).Ringed where
  head := (by decide : 0 < mdlRing)
  n := Nat.zero_le _

theorem call_inside {s : Controller} {c : Call} (inside : s.Inside) (brief : Brief c s) :
    (call c s).Inside := by
  obtain ⟨planted, ringed, mdl, samples⟩ := inside
  obtain ⟨begun, whole⟩ := fraction_mem planted brief
  have next := call_planted planted c
  rcases call_smith planted c with ⟨input, _, m, origin, stepped⟩ | ⟨input, _, same⟩ |
    ⟨config, _, same⟩ | ⟨_, _, same⟩
  · have before : m.Ringed ∧ m.mdl ∈ Set.Icc 0 1 ∧ ∀ p ∈ m.samples, p.2 ∈ Set.Icc 0 1 := by
      rcases origin with rfl | rfl
      · exact ⟨ringed, mdl, samples⟩
      · exact ⟨restarted_ringed _ _, drive_mem input, List.forall_mem_nil _⟩
    have at_ : (call c s).smith.mdl ∈ Set.Icc 0 1 := by
      rw [stepped.mdl]
      exact relax_mem_Icc begun whole before.2.1 (drive_mem input)
    refine ⟨next, stepped.ringed before.1, at_, ?_⟩
    rw [stepped.samples before.1]
    intro p inside
    rcases List.mem_cons.mp (List.mem_of_mem_take inside) with rfl | older
    · exact at_
    · exact before.2.2 p older
  · constructor
    · exact next
    · rw [same]
      exact restarted_ringed _ _
    · rw [same]
      exact drive_mem input
    · rw [same]
      exact List.forall_mem_nil _
  · constructor
    · exact next
    · rw [same]
      exact ⟨by decide, by decide⟩
    · rw [same]
      exact ⟨le_rfl, zero_le_one⟩
    · rw [same]
      exact List.forall_mem_nil _
  · constructor
    · exact next
    · rwa [same]
    · rwa [same]
    · rwa [same]

/-! ## What is read back is a state the model was in -/

/-- A time and a state the model had then, after some of the calls. -/
def Had (calls : List Call) (start : Controller) (p : ℚ × ℚ) : Prop :=
  ∃ front rest, calls = front ++ rest ∧
    p = ((run call front start).loop.lastT, (run call front start).smith.mdl)

theorem Had.append {calls : List Call} {start : Controller} {p : ℚ × ℚ} (had : Had calls start p)
    (c : Call) : Had (calls ++ [c]) start p := by
  obtain ⟨front, rest, whole, same⟩ := had
  exact ⟨front, rest ++ [c], by rw [whole, List.append_assoc], same⟩

theorem run_planted (kv : Option Record) (config : Option Item) (calls : List Call) :
    Planted (run call calls (create kv config)).plant :=
  run_invariant (fun s : Controller => Planted s.plant) (fun c _ planted => call_planted planted c)
    (create_planted kv config)

theorem create_smith (kv : Option Record) (config : Option Item) :
    (create kv config).smith = {} := by
  cases kv with
  | none => rfl
  | some r => rfl

theorem new_ringed : ({} : Smith).Ringed := ⟨by decide, by decide⟩

theorem call_ringed {s : Controller} (planted : Planted s.plant) (ringed : s.smith.Ringed)
    (c : Call) : (call c s).smith.Ringed := by
  rcases call_smith planted c with ⟨input, _, m, origin, stepped⟩ | ⟨input, _, same⟩ |
    ⟨config, _, same⟩ | ⟨_, _, same⟩
  · rcases origin with rfl | rfl
    · exact stepped.ringed ringed
    · exact stepped.ringed (restarted_ringed _ _)
  · rw [same]
    exact restarted_ringed _ _
  · rw [same]
    exact new_ringed
  · rwa [same]

theorem run_ringed (kv : Option Record) (config : Option Item) (calls : List Call) :
    (run call calls (create kv config)).smith.Ringed := by
  have both : Planted (run call calls (create kv config)).plant ∧
      (run call calls (create kv config)).smith.Ringed := by
    apply run_invariant (fun s : Controller => Planted s.plant ∧ s.smith.Ringed)
    · rintro c s ⟨planted, ringed⟩
      exact ⟨call_planted planted c, call_ringed planted ringed c⟩
    · refine ⟨create_planted kv config, ?_⟩
      rw [create_smith]
      exact new_ringed
  exact both.2

theorem samples_had (kv : Option Record) (config : Option Item) (calls : List Call) :
    ∀ p ∈ (run call calls (create kv config)).smith.samples,
      Had calls (create kv config) p := by
  induction calls using List.reverseRecOn with
  | nil =>
      rw [run_nil, create_smith]
      exact List.forall_mem_nil _
  | append_singleton calls c ih =>
      have planted := run_planted kv config calls
      have ringed := run_ringed kv config calls
      have whole : run call (calls ++ [c]) (create kv config) =
          call c (run call calls (create kv config)) := run_append call calls [c] _
      intro p inside
      rw [whole] at inside
      rcases call_smith planted c with ⟨input, here, m, origin, stepped⟩ | ⟨input, _, same⟩ |
        ⟨other, _, same⟩ | ⟨_, _, same⟩
      · have older : m.Ringed ∧ ∀ q ∈ m.samples, Had calls (create kv config) q := by
          rcases origin with rfl | rfl
          · exact ⟨ringed, ih⟩
          · exact ⟨restarted_ringed _ _, List.forall_mem_nil _⟩
        rw [stepped.samples older.1] at inside
        rcases List.mem_cons.mp (List.mem_of_mem_take inside) with rfl | inside
        · refine ⟨calls ++ [c], [], (List.append_nil _).symm, ?_⟩
          rw [whole]
          subst here
          rw [call, (update_smith planted input).2.2]
        · exact (older.2 p inside).append c
      · rw [same] at inside
        exact absurd inside List.not_mem_nil
      · rw [same] at inside
        exact absurd inside List.not_mem_nil
      · rw [same] at inside
        exact (ih p inside).append c

/-- What an update takes the model to have been one dead time ago. -/
def past (s : Controller) (input : CtrlIn) : ℚ :=
  (s.prepared input).delayed input ((s.prepared input).elapsed input)

/-- The time that is. -/
def pastTime (s : Controller) (input : CtrlIn) : ℚ :=
  input.nowS - clamp (s.prepared input).plant.theta thetaMin thetaMax

theorem past_recalled {s : Controller} (planted : Planted s.plant) (input : CtrlIn) :
    Recalled (s.update input).smith.mdl (s.pastTime input) (s.update input).smith.samples
      (s.past input) := by
  rw [(update_smith planted input).1, past, delayed, Smith.before_eq]
  exact recalled _ _ _

/-! ## A feed that does not change -/

/-- The feed is the same throughout, and the controller is. -/
def Constant (u : ℚ) : Call → Prop
  | .update input => drive input = u
  | .reset input => drive input = u
  | .restart _ => False
  | _ => True

theorem clamp_sign {x c : ℚ} (positive : 0 ≤ c) :
    (0 ≤ x → 0 ≤ clamp x (-c) c) ∧ (x ≤ 0 → clamp x (-c) c ≤ 0) := by
  rw [clamp]
  constructor
  · intro above
    split_ifs <;> linarith
  · intro below
    split_ifs <;> linarith

theorem abs_clamp_le {x c : ℚ} (positive : 0 ≤ c) : |clamp x (-c) c| ≤ |x| := by
  rw [clamp]
  split_ifs with low high
  · rw [abs_neg, abs_of_nonneg positive, abs_of_neg (by linarith)]
    linarith
  · rw [abs_of_nonneg positive, abs_of_pos (by linarith)]
    exact le_of_lt high
  · exact le_rfl

/-- What the model is ahead has the sign of the way it had to go, and is no more than what is
left of it. -/
structure Ahead (u m0 : ℚ) (m : Smith) : Prop where
  up : m0 ≤ u → 0 ≤ m.surplus
  down : u ≤ m0 → m.surplus ≤ 0
  bound : ∀ B, |u - m.mdl| ≤ B → (∀ p ∈ m.samples, |u - p.2| ≤ B) → |m.surplus| ≤ kMax * B

/-- The model has been on its way to the feed since its oldest sample. -/
def Underway (u m0 : ℚ) (m : Smith) (samples : List (ℚ × ℚ)) : Prop :=
  ∀ p ∈ samples, p.2 ∈ Set.uIcc m0 u ∧ m.mdl ∈ Set.uIcc p.2 u

theorem recalled_below {u m0 B time value : ℚ} {m : Smith} (up : m0 ≤ u)
    (reached : m.mdl ∈ Set.uIcc m0 u) (underway : Underway u m0 m m.samples)
    (recalled : Recalled m.mdl time m.samples value) (left : |u - m.mdl| ≤ B)
    (lefts : ∀ p ∈ m.samples, |u - p.2| ≤ B) : u - B ≤ value ∧ value ≤ m.mdl ∧ m.mdl ≤ u := by
  rw [Set.uIcc_of_le up] at reached
  have inside : value ∈ Set.Icc (u - B) m.mdl := by
    apply recalled.mem_Icc
    · have here := abs_le.mp left
      exact ⟨by linarith, le_rfl⟩
    · intro p sampled
      obtain ⟨began, went⟩ := underway p sampled
      rw [Set.uIcc_of_le up] at began
      rw [Set.uIcc_of_le began.2] at went
      have there := abs_le.mp (lefts p sampled)
      exact ⟨by linarith, went.1⟩
  exact ⟨inside.1, inside.2, reached.2⟩

theorem recalled_above {u m0 B time value : ℚ} {m : Smith} (down : u ≤ m0)
    (reached : m.mdl ∈ Set.uIcc m0 u) (underway : Underway u m0 m m.samples)
    (recalled : Recalled m.mdl time m.samples value) (left : |u - m.mdl| ≤ B)
    (lefts : ∀ p ∈ m.samples, |u - p.2| ≤ B) : u ≤ m.mdl ∧ m.mdl ≤ value ∧ value ≤ u + B := by
  rw [Set.uIcc_of_ge down] at reached
  have inside : value ∈ Set.Icc m.mdl (u + B) := by
    apply recalled.mem_Icc
    · have here := abs_le.mp left
      exact ⟨le_rfl, by linarith⟩
    · intro p sampled
      obtain ⟨began, went⟩ := underway p sampled
      rw [Set.uIcc_of_ge down] at began
      rw [Set.uIcc_of_ge began.1] at went
      have there := abs_le.mp (lefts p sampled)
      exact ⟨went.2, by linarith⟩
  exact ⟨reached.1, inside.1, inside.2⟩

theorem ahead_of_underway {u m0 K want : ℚ} {m : Smith} (low : kMin ≤ K) (high : K ≤ kMax)
    (reached : m.mdl ∈ Set.uIcc m0 u) (underway : Underway u m0 m m.samples)
    (surplus : m.surplus = clamp (K * (m.mdl - m.before want)) (-surplusMax) surplusMax) :
    Ahead u m0 m := by
  have gain : 0 ≤ K := le_trans (by norm_num [kMin]) low
  have room : 0 ≤ surplusMax := by norm_num [surplusMax]
  have read : Recalled m.mdl want m.samples (m.before want) := by
    rw [Smith.before_eq]
    exact recalled _ _ _
  have farthest : ∃ B, |u - m.mdl| ≤ B ∧ ∀ p ∈ m.samples, |u - p.2| ≤ B := by
    refine ⟨|u - m0|, abs_target_sub_le reached, ?_⟩
    exact fun p sampled => abs_target_sub_le (underway p sampled).1
  obtain ⟨far, leftFar, leftsFar⟩ := farthest
  constructor
  · intro up
    have below := recalled_below up reached underway read leftFar leftsFar
    rw [surplus]
    exact (clamp_sign room).1 (mul_nonneg gain (sub_nonneg.mpr below.2.1))
  · intro down
    have above := recalled_above down reached underway read leftFar leftsFar
    rw [surplus]
    exact (clamp_sign room).2 (mul_nonpos_of_nonneg_of_nonpos gain (sub_nonpos.mpr above.2.1))
  · intro B left lefts
    have apart : |m.mdl - m.before want| ≤ B := by
      rcases le_total m0 u with up | down
      · have below := recalled_below up reached underway read left lefts
        rw [abs_of_nonneg (sub_nonneg.mpr below.2.1)]
        linarith [below.1, below.2.2]
      · have above := recalled_above down reached underway read left lefts
        rw [abs_of_nonpos (sub_nonpos.mpr above.2.1)]
        linarith [above.1, above.2.2]
    calc
      |m.surplus| ≤ |K * (m.mdl - m.before want)| := by
        rw [surplus]
        exact abs_clamp_le room
      _ = K * |m.mdl - m.before want| := by rw [abs_mul, abs_of_nonneg gain]
      _ ≤ kMax * B :=
        mul_le_mul high apart (abs_nonneg _) (le_trans gain high)

/-- A model on its way to a feed that does not change, after so many time constants and so
many updates. -/
structure Settled (u m0 A : ℚ) (n : ℕ) (m : Smith) : Prop where
  ringed : m.Ringed
  total : 0 ≤ A
  reached : m.mdl ∈ Set.uIcc m0 u
  near : |u - m.mdl| * (1 + A) ≤ |u - m0|
  underway : Underway u m0 m (m.samples.take n)
  settling : Settling u |u - m0| A ((m.samples.take n).map Prod.snd)

theorem restarted_settled {u A : ℚ} (m0 : ℚ) (total : 0 ≤ A) (n : ℕ) (m : Smith) :
    Settled u m0 A n (restarted m u) where
  ringed := restarted_ringed _ _
  total := total
  reached := Set.right_mem_uIcc
  near := by
    have arrived : u - (restarted m u).mdl = 0 := sub_self u
    rw [arrived, abs_zero, zero_mul]
    exact abs_nonneg _
  underway := by
    rw [restarted_samples, List.take_nil]
    exact List.forall_mem_nil _
  settling := by
    rw [restarted_samples, List.take_nil]
    trivial

theorem restarted_ahead (u m0 : ℚ) (m : Smith) : Ahead u m0 (restarted m u) := by
  have nothing : (restarted m u).surplus = 0 := rfl
  constructor
  · exact fun _ => nothing.ge
  · exact fun _ => nothing.le
  · intro B left _
    have gain : 0 ≤ kMax := by norm_num [kMax]
    rw [nothing, abs_zero]
    exact mul_nonneg gain (le_trans (abs_nonneg _) left)

theorem stepped_settled {u m0 A a : ℚ} {n : ℕ} {m m' : Smith} {input : CtrlIn}
    (settled : Settled u m0 A n m) (constant : drive input = u) (begun : 0 ≤ a) (whole : a ≤ 1)
    (stepped : Stepped m input a m') : Settled u m0 (A + a) (n + 1) m' := by
  obtain ⟨ringed, total, reached, near, underway, settling⟩ := settled
  have step : m'.mdl ∈ Set.uIcc m.mdl u := by
    rw [stepped.mdl, constant]
    exact relax_mem_uIcc begun whole
  have closer : |u - m'.mdl| * (1 + (A + a)) ≤ |u - m0| := by
    rw [stepped.mdl, constant]
    exact abs_target_sub_relax_le total begun whole near
  have ring : m'.samples.take (n + 1) =
      ((input.nowS, m'.mdl) :: m.samples.take n).take mdlRing := by
    rw [stepped.samples ringed, List.take_take, min_comm, ← List.take_take, List.take_succ_cons]
  constructor
  · exact stepped.ringed ringed
  · exact add_nonneg total begun
  · exact mem_uIcc_trans reached step
  · exact closer
  · rw [ring]
    intro p inside
    rcases List.mem_cons.mp (List.mem_of_mem_take inside) with rfl | older
    · exact ⟨mem_uIcc_trans reached step, Set.left_mem_uIcc⟩
    · obtain ⟨began, went⟩ := underway p older
      exact ⟨began, mem_uIcc_trans went step⟩
  · rw [ring, List.map_take, List.map_cons]
    apply Settling.take
    exact ⟨closer, settling.mono (by linarith)⟩

/-- What the calls of a stretch keep: the model is on its way, and what it is ahead is known
once the ring holds nothing older. -/
structure Course (u m0 A : ℚ) (n : ℕ) (s : Controller) : Prop where
  planted : Planted s.plant
  settled : Settled u m0 A n s.smith
  ahead : 0 < n → s.smith.samples.length ≤ n → Ahead u m0 s.smith

theorem call_course {u m0 A : ℚ} {n : ℕ} {s : Controller} {c : Call}
    (course : Course u m0 A n s) (brief : Brief c s) (constant : Constant u c) :
    Course u m0 (A + fraction c s) (n + updates c) (call c s) := by
  obtain ⟨planted, settled, ahead⟩ := course
  have next := call_planted planted c
  obtain ⟨begun, whole⟩ := fraction_mem planted brief
  rcases call_smith planted c with ⟨input, rfl, m, origin, stepped⟩ | ⟨input, rfl, same⟩ |
    ⟨config, rfl, _⟩ | ⟨still, none_, same⟩
  · have feed : drive input = u := constant
    have before : Settled u m0 A n m := by
      rcases origin with rfl | rfl
      · exact settled
      · rw [feed]
        exact restarted_settled m0 settled.total n _
    have after := stepped_settled before feed begun whole stepped
    refine ⟨next, after, ?_⟩
    intro _ few
    obtain ⟨K, want, low, high, surplus⟩ := stepped.ahead
    have all : Underway u m0 (call (.update input) s).smith
        (call (.update input) s).smith.samples := by
      have sampled := List.take_of_length_le few
      rw [← sampled]
      exact after.underway
    exact ahead_of_underway low high after.reached all surplus
  · have feed : drive input = u := constant
    have still : fraction (.reset input) s = 0 := rfl
    have none_ : updates (.reset input) = 0 := rfl
    rw [still, none_, add_zero, add_zero]
    refine ⟨next, ?_, ?_⟩
    · rw [same, feed]
      exact restarted_settled m0 settled.total n _
    · intro _ _
      rw [same, feed]
      exact restarted_ahead u m0 s.smith
  · exact absurd constant not_false
  · rw [still, none_, add_zero, add_zero]
    refine ⟨next, ?_, ?_⟩
    · rwa [same]
    · rwa [same]

/-- How many time constants a run goes on. -/
def lags : List Call → Controller → ℚ
  | [], _ => 0
  | c :: calls, s => fraction c s + lags calls (call c s)

/-- How many updates there are in a run. -/
def updatesIn (calls : List Call) : ℕ := (calls.map updates).sum

theorem run_course {u m0 A : ℚ} {n : ℕ} {s : Controller} {calls : List Call}
    (course : Course u m0 A n s) (brief : Along call Brief calls s)
    (constant : ∀ c ∈ calls, Constant u c) :
    Course u m0 (A + lags calls s) (n + updatesIn calls) (run call calls s) := by
  induction calls generalizing A n s with
  | nil =>
      rw [lags, add_zero]
      exact course
  | cons c calls ih =>
      have next := call_course course brief.1 (constant c List.mem_cons_self)
      have rest := ih next brief.2
        (fun other inside => constant other (List.mem_cons_of_mem c inside))
      rw [run_cons, lags, updatesIn, List.map_cons, List.sum_cons, ← add_assoc, ← add_assoc]
      exact rest

theorem lags_le {s : Controller} {calls : List Call} (planted : Planted s.plant)
    (brief : Along call Brief calls s) : lags calls s ≤ updatesIn calls := by
  induction calls generalizing s with
  | nil => exact le_rfl
  | cons c calls ih =>
      have rest := ih (call_planted planted c) brief.2
      have here : fraction c s ≤ updates c := by
        cases c with
        | update input =>
            have whole := (fraction_mem planted brief.1).2
            rw [updates, Nat.cast_one]
            exact whole
        | _ => exact le_rfl
      rw [lags, updatesIn, List.map_cons, List.sum_cons, Nat.cast_add]
      exact add_le_add here rest

theorem course_begins {s : Controller} (planted : Planted s.plant) (ringed : s.smith.Ringed)
    (u : ℚ) : Course u s.smith.mdl 0 0 s where
  planted := planted
  settled :=
    { ringed := ringed
      total := le_rfl
      reached := Set.left_mem_uIcc
      near := by rw [add_zero, mul_one]
      underway := List.forall_mem_nil _
      settling := trivial }
  ahead := fun none_ => absurd none_ (lt_irrefl 0)

theorem Course.samples_few {u m0 A : ℚ} {n : ℕ} {s : Controller} (course : Course u m0 A n s)
    (long : mdlRing ≤ n) : s.smith.samples.length ≤ n := by
  rw [Smith.length_samples]
  exact course.settled.ringed.n.trans long

theorem Course.bound {u m0 A tolerance : ℚ} {n : ℕ} {s : Controller}
    (course : Course u m0 A n s) (unit : |u - m0| ≤ 1) (long : mdlRing ≤ n)
    (positive : 0 < tolerance) (enough : 63 + kMax / tolerance ≤ A) :
    |s.smith.surplus| ≤ tolerance := by
  have gain : 0 < kMax := by norm_num [kMax]
  have few := course.samples_few long
  have ahead := course.ahead (lt_of_lt_of_le (by decide) long) few
  have room : 0 < A - 63 := by
    have some_ : 0 < kMax / tolerance := div_pos gain positive
    linarith
  have left : |u - s.smith.mdl| ≤ 1 / (A - 63) := by
    rw [le_div_iff₀ room]
    have shrunk := course.settled.near.trans unit
    have less := mul_le_mul_of_nonneg_left (by linarith : A - 63 ≤ 1 + A)
      (abs_nonneg (u - s.smith.mdl))
    linarith
  have lefts : ∀ p ∈ s.smith.samples, |u - p.2| ≤ 1 / (A - 63) := by
    intro p sampled
    have ring : s.smith.samples.take n = s.smith.samples := List.take_of_length_le few
    have settling := course.settled.settling
    rw [ring] at settling
    have count : (s.smith.samples.map Prod.snd).length ≤ mdlRing := by
      rw [List.length_map, Smith.length_samples]
      exact course.settled.ringed.n
    have shrunk := settling.all count p.2 (List.mem_map_of_mem sampled)
    have same : 1 + (A - (mdlRing : ℚ)) = A - 63 := by
      norm_num [mdlRing]
      ring
    rw [same] at shrunk
    rw [le_div_iff₀ room]
    exact shrunk.trans unit
  calc
    |s.smith.surplus| ≤ kMax * (1 / (A - 63)) := ahead.bound _ left lefts
    _ = kMax / (A - 63) := mul_one_div _ _
    _ ≤ tolerance := by
      rw [div_le_iff₀ room]
      have share := mul_le_mul_of_nonneg_left (by linarith : kMax / tolerance ≤ A - 63) positive.le
      rwa [mul_div_cancel₀ _ positive.ne'] at share

/-- What is to be said of the model after some calls and, behind these, a stretch with one
feed. -/
structure Sound (origin : Controller) (before steady : List Call) (u : ℚ) : Prop where
  /-- The state is between nothing and a full feed. -/
  inside : (run call (before ++ steady) origin).smith.mdl ∈ Set.Icc 0 1
  /-- What the next update takes the model to have been is recalled from the ring, and
  everything in the ring is a state the model was in. -/
  recalled : ∀ input,
    Recalled ((run call (before ++ steady) origin).update input).smith.mdl
        ((run call (before ++ steady) origin).pastTime input)
        ((run call (before ++ steady) origin).update input).smith.samples
        ((run call (before ++ steady) origin).past input) ∧
      ∀ p ∈ ((run call (before ++ steady) origin).update input).smith.samples,
        Had (before ++ steady ++ [.update input]) origin p
  /-- Once the stretch has filled the ring, the correction has the sign of the way the model
  had to go when the stretch began. -/
  sign : mdlRing ≤ updatesIn steady →
    ((run call before origin).smith.mdl ≤ u →
        0 ≤ (run call (before ++ steady) origin).smith.surplus) ∧
      (u ≤ (run call before origin).smith.mdl →
        (run call (before ++ steady) origin).smith.surplus ≤ 0)
  /-- It becomes as small as one likes. -/
  dies : ∀ tolerance > 0, 63 + kMax / tolerance ≤ lags steady (run call before origin) →
    |(run call (before ++ steady) origin).smith.surplus| ≤ tolerance

/-- In a run whose steps are no longer than the time constant, the state stays between nothing
and a full feed, what is read from the ring is a value the model had, and with a feed that does
not change the correction keeps its sign and dies out. -/
theorem smith_model_sound {kv : Option Record} {config : Option Item}
    {before steady : List Call} {u : ℚ} (feed : u ∈ Set.Icc 0 1)
    (brief : Along call Brief (before ++ steady) (create kv config))
    (constant : ∀ c ∈ steady, Constant u c) : Sound (create kv config) before steady u := by
  have planted := run_planted kv config before
  have ringed := run_ringed kv config before
  have origin : (create kv config).Inside := by
    refine ⟨create_planted kv config, ?_, ?_, ?_⟩
    · rw [create_smith]
      exact new_ringed
    · rw [create_smith]
      exact ⟨le_rfl, zero_le_one⟩
    · rw [create_smith]
      exact List.forall_mem_nil _
  have inside (calls : List Call) (along : Along call Brief calls (create kv config)) :
      (run call calls (create kv config)).Inside :=
    run_preserves Brief Inside (fun _ _ inside brief => call_inside inside brief) origin along
  obtain ⟨first, second⟩ := along_append.mp brief
  have whole := run_course (course_begins planted ringed u) second constant
  rw [zero_add, zero_add, ← run_append] at whole
  constructor
  · exact (inside _ brief).mdl
  · intro input
    have had := samples_had kv config (before ++ steady ++ [.update input])
    rw [run_append call (before ++ steady)] at had
    exact ⟨past_recalled (run_planted kv config _) input, had⟩
  · intro long
    have ahead := whole.ahead (lt_of_lt_of_le (by decide) long) (whole.samples_few long)
    exact ⟨ahead.up, ahead.down⟩
  · intro tolerance positive enough
    have unit : |u - (run call before (create kv config)).smith.mdl| ≤ 1 := by
      have start := (inside before first).mdl
      rw [abs_le]
      constructor
      · linarith [feed.1, start.2]
      · linarith [feed.2, start.1]
    have long : mdlRing ≤ updatesIn steady := by
      have some_ : 0 < kMax / tolerance := div_pos (by norm_num [kMax]) positive
      have few := lags_le planted second
      have more : (63 : ℚ) < updatesIn steady := by linarith
      have count : 63 < updatesIn steady := by exact_mod_cast more
      exact count
    exact whole.bound unit long positive enough

/-- A reading at 110 degrees after so many seconds, with a feed. -/
def fed (now feed : ℚ) : CtrlIn :=
  { nowS := now, pitC := some 110, setpointC := 110, uPrevApplied := feed }

/-- The feed goes from nothing to full, and the next update comes two time constants later:
the model takes up twice the feed, and once the feed is back at nothing the same pause takes it
as far below nothing. -/
theorem long_step_overshoots :
    (run call [.update (fed 0 0), .update (fed 2000 1)] (create none none)).smith.mdl = 2 ∧
      (run call [.update (fed 0 0), .update (fed 2000 1), .update (fed 4000 0)]
        (create none none)).smith.mdl = -2 := by
  decide +kernel

/-- The feed is full from the second update on. -/
theorem smith_model_sound_full :
    Sound (create none none) [.update (fed 0 0)] [.update (fed 20 1), .update (fed 40 1)] 1 := by
  apply smith_model_sound
  · exact ⟨zero_le_one, le_rfl⟩
  · refine ⟨?_, ?_, ?_, trivial⟩
    · decide +kernel
    · decide +kernel
    · decide +kernel
  · intro c inside
    rcases List.mem_cons.mp inside with rfl | inside
    · exact (by decide : drive (fed 20 1) = 1)
    · obtain rfl := List.mem_singleton.mp inside
      exact (by decide : drive (fed 40 1) = 1)

end Controller

end PiFire.Adaptive
