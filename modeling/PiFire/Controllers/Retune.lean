import PiFire.Controllers.Adaptive

/-!
# New gains without a bump

The integral's share of the output is a gain times an accumulated error. Whatever gives the
controller new gains goes through `recompute`, once, and `recompute` rescales what has been
accumulated: the share stays what it was, as long as there is an integral before and after.
-/

namespace PiFire.Adaptive

open Transition Settings

namespace Controller

/-- The gain times the accumulated error. -/
def contribution (s : Controller) : ℚ := s.tuned.gains.ki * s.loop.inter

/-- The integral's share of the output, with its clamp. -/
def integralTerm (s : Controller) : ℚ := clamp s.contribution (-1 / 2) (1 / 2)

/-- The gains in force are those `recompute` would work out. -/
def Computed (s : Controller) : Prop := s.tuned.gains = s.tuned.regain

@[simp]
theorem recompute_gains (s : Controller) : s.recompute.tuned.gains = s.tuned.regain := rfl

theorem recompute_contribution {s : Controller} (before : s.tuned.gains.ki ≠ 0)
    (after : s.tuned.regain.ki ≠ 0) : s.recompute.contribution = s.contribution := by
  have both : s.tuned.gains.ki ≠ 0 ∧ s.tuned.regain.ki ≠ 0 := ⟨before, after⟩
  rw [contribution, contribution, recompute]
  dsimp only
  rw [if_pos both]
  field_simp

@[simp]
theorem saveLearned_contribution (s : Controller) :
    s.saveLearned.contribution = s.contribution := rfl

/-- What changes the gains of a controller. -/
inductive Retune where
  | configure (c : Option Item)
  | useBand (setpointC : ℚ)
  | takeSchedule (input : CtrlIn)
  | adjustTi (faster : ℚ)
  | adjustBand (tighter : ℚ)
  | forget (tuning refinement : Bool)
  | applyTuning (m : Measurement)

def retune : Retune → Controller → Controller
  | .configure c, s => s.configure c
  | .useBand setpointC, s => s.useBand setpointC
  | .takeSchedule input, s => s.takeSchedule input
  | .adjustTi faster, s => s.adjustTi faster
  | .adjustBand tighter, s => s.adjustBand tighter
  | .forget tuning refinement, s => s.forget tuning refinement
  | .applyTuning m, s => s.applyTuning m

/-- Each path touches nothing that counts for the share, or rescales it once: it is the same
state, or one that `recompute` finished, with the accumulated error and the gains as before. -/
theorem retune_recomputes (r : Retune) (s : Controller) :
    (retune r s).tuned.gains = s.tuned.gains ∧ (retune r s).loop.inter = s.loop.inter ∨
      ∃ touched : Controller, (retune r s).tuned = touched.recompute.tuned ∧
        (retune r s).loop.inter = touched.recompute.loop.inter ∧
        touched.tuned.gains = s.tuned.gains ∧ touched.loop.inter = s.loop.inter := by
  cases r with
  | configure c => exact Or.inr ⟨_, rfl, rfl, rfl, rfl⟩
  | useBand setpointC => exact Or.inr ⟨_, rfl, rfl, rfl, rfl⟩
  | takeSchedule input =>
      rw [retune, takeSchedule]
      split
      · exact Or.inr ⟨_, rfl, rfl, rfl, rfl⟩
      · exact Or.inl ⟨rfl, rfl⟩
  | adjustTi faster =>
      rcases s.adjustTi_cases faster with same | ⟨want, _, _, _, learned⟩
      · exact Or.inl ⟨by rw [retune, same], by rw [retune, same]⟩
      · exact Or.inr ⟨s.learnTi want s.tuned.anchorTi, by rw [retune, learned]; rfl,
          by rw [retune, learned]; rfl, rfl, rfl⟩
  | adjustBand tighter =>
      rcases s.adjustBand_cases tighter with same | ⟨want, _, _, learned⟩
      · exact Or.inl ⟨by rw [retune, same], by rw [retune, same]⟩
      · exact Or.inr ⟨s.learnBand want (if 0 < s.tuned.anchorPb then s.tuned.anchorPb else want),
          by rw [retune, learned]; rfl, by rw [retune, learned]; rfl, rfl, rfl⟩
  | forget tuning refinement =>
      right
      cases tuning <;> cases refinement <;> exact ⟨_, rfl, rfl, rfl, rfl⟩
  | applyTuning m =>
      rw [retune, applyTuning]
      dsimp only
      split
      · exact Or.inl ⟨rfl, rfl⟩
      · split
        · exact Or.inl ⟨rfl, rfl⟩
        · exact Or.inr ⟨_, rfl, rfl, rfl, rfl⟩

/-- There is an integral before and after. -/
def Gained (r : Retune) (s : Controller) : Prop :=
  s.tuned.gains.ki ≠ 0 ∧ (retune r s).tuned.gains.ki ≠ 0

theorem retune_contribution {r : Retune} {s : Controller} (gained : Gained r s) :
    (retune r s).contribution = s.contribution := by
  obtain ⟨before, after⟩ := gained
  rcases retune_recomputes r s with ⟨gains, inter⟩ | ⟨touched, done, left, gains, inter⟩
  · rw [contribution, contribution, gains, inter]
  · calc
      (retune r s).contribution = touched.recompute.contribution := by
        rw [contribution, contribution, done, left]
      _ = touched.contribution := by
        apply recompute_contribution
        · rwa [gains]
        · rwa [done] at after
      _ = s.contribution := by rw [contribution, contribution, gains, inter]

theorem regain_ki_ne_zero_iff (t : Tuned) :
    t.regain.ki ≠ 0 ↔ 0 < t.regain.pbC ∧ 0 < t.regain.ti := by
  have formula : t.regain.ki =
      if 0 < t.regain.ti then (if 0 < t.regain.pbC then -1 / t.regain.pbC else 0) / t.regain.ti
      else 0 := rfl
  rw [formula]
  by_cases ti : 0 < t.regain.ti <;> by_cases pb : 0 < t.regain.pbC
  · rw [if_pos ti, if_pos pb]
    exact iff_of_true (div_ne_zero (div_ne_zero (by norm_num) pb.ne') ti.ne') ⟨pb, ti⟩
  · simp [pb]
  · simp [ti]
  · simp [ti]

/-- A controller that learns, on the gains worked out for it, with an integral. -/
structure Learning (s : Controller) : Prop where
  learns : s.tuned.conf.autoTune = true
  computed : s.Computed
  gained : s.tuned.gains.ki ≠ 0

theorem Learning.positive {s : Controller} (learning : s.Learning) :
    0 < s.tuned.regain.pbC ∧ 0 < s.tuned.regain.ti := by
  rw [← regain_ki_ne_zero_iff, ← learning.computed]
  exact learning.gained

theorem Learning.adjustBand {s : Controller} (learning : s.Learning) (tighter : ℚ) :
    (s.adjustBand tighter).Learning := by
  rcases s.adjustBand_cases tighter with same | ⟨want, some_, _, learned⟩
  · rwa [same]
  · rw [learned]
    refine ⟨learning.learns, rfl, ?_⟩
    apply (regain_ki_ne_zero_iff _).mpr
    constructor
    · have inForce : (s.learnBand want
          (if 0 < s.tuned.anchorPb then s.tuned.anchorPb else want)).tuned.regain.pbC = want :=
        Tuned.regain_pbC_of_lesson learning.learns some_
      rwa [inForce]
    · exact learning.positive.2

theorem Learning.adjustTi {s : Controller} (learning : s.Learning) (faster : ℚ) :
    (s.adjustTi faster).Learning := by
  rcases s.adjustTi_cases faster with same | ⟨want, positive, near, _, learned⟩
  · rwa [same]
  · rw [learned]
    have some_ : 0 < want := (mul_pos positive (by norm_num [tiLearnMin])).trans_le near
    refine ⟨learning.learns, rfl, ?_⟩
    apply (regain_ki_ne_zero_iff _).mpr
    constructor
    · exact learning.positive.1
    · have inForce : (s.learnTi want s.tuned.anchorTi).tuned.regain.ti = want :=
        Tuned.regain_ti_of_lesson learning.learns some_
      rwa [inForce]

theorem Learning.adjustBand_contribution {s : Controller} (learning : s.Learning) (tighter : ℚ) :
    (s.adjustBand tighter).contribution = s.contribution :=
  retune_contribution (r := .adjustBand tighter)
    ⟨learning.gained, (learning.adjustBand tighter).gained⟩

theorem Learning.adjustTi_contribution {s : Controller} (learning : s.Learning) (faster : ℚ) :
    (s.adjustTi faster).contribution = s.contribution :=
  retune_contribution (r := .adjustTi faster)
    ⟨learning.gained, (learning.adjustTi faster).gained⟩

/-- The monitor, which may set the band and the integral time several times in one call, leaves
the integral's share as it was. -/
theorem judge_contribution {s : Controller} (computed : s.Computed)
    (gained : s.tuned.gains.ki ≠ 0) (input : CtrlIn) (e : Option ℚ) :
    (s.judge input e).contribution = s.contribution := by
  by_cases learns : s.tuned.conf.autoTune = true
  · have kept := judge_keeps
      (fun now => now.Learning ∧ now.contribution = s.contribution)
      (fun _ _ kept => ⟨⟨kept.1.learns, kept.1.computed, kept.1.gained⟩, kept.2⟩)
      (fun _ tighter kept => ⟨kept.1.adjustBand tighter,
        (kept.1.adjustBand_contribution tighter).trans kept.2⟩)
      (fun _ faster kept => ⟨kept.1.adjustTi faster,
        (kept.1.adjustTi_contribution faster).trans kept.2⟩)
      ⟨⟨learns, computed, gained⟩, rfl⟩ input e
    exact kept.2
  · rw [judge, if_pos learns]

theorem adjustBand_computed {s : Controller} (computed : s.Computed) (tighter : ℚ) :
    (s.adjustBand tighter).Computed := by
  rcases s.adjustBand_cases tighter with same | ⟨want, _, _, learned⟩
  · rwa [same]
  · rw [learned]
    rfl

theorem adjustTi_computed {s : Controller} (computed : s.Computed) (faster : ℚ) :
    (s.adjustTi faster).Computed := by
  rcases s.adjustTi_cases faster with same | ⟨want, _, _, _, learned⟩
  · rwa [same]
  · rw [learned]
    rfl

theorem judge_computed {s : Controller} (computed : s.Computed) (input : CtrlIn)
    (e : Option ℚ) : (s.judge input e).Computed :=
  judge_keeps Computed (fun _ _ kept => kept)
    (fun _ tighter kept => adjustBand_computed kept tighter)
    (fun _ faster kept => adjustTi_computed kept faster) computed input e

theorem takeSchedule_computed {s : Controller} (computed : s.Computed) (input : CtrlIn) :
    (s.takeSchedule input).Computed := by
  rw [takeSchedule]
  split
  · rfl
  · exact computed

theorem prepared_computed {s : Controller} (computed : s.Computed) (input : CtrlIn) :
    (s.prepared input).Computed := by
  rw [prepared]
  split
  · have fresh : (s.reset input).Computed := rfl
    exact takeSchedule_computed fresh input
  · exact takeSchedule_computed computed input

theorem update_computed {s : Controller} (computed : s.Computed) (input : CtrlIn) :
    (s.update input).Computed := by
  apply judge_computed
  have tuned := driven_tuned s input
  rw [Computed, tuned]
  exact prepared_computed computed input

theorem applyTuning_computed {s : Controller} (computed : s.Computed) (m : Measurement) :
    (s.applyTuning m).Computed := by
  rw [applyTuning]
  dsimp only
  split
  · exact computed
  · split
    · exact computed
    · rfl

theorem call_computed {s : Controller} (computed : s.Computed) (c : Call) :
    (call c s).Computed := by
  cases c with
  | reset input => rfl
  | update input => exact update_computed computed input
  | configure c => rfl
  | forget tuning refinement => rfl
  | applyTuning m => exact applyTuning_computed computed m
  | restart c => rfl

theorem run_computed (kv : Option Record) (c : Option Item) (calls : List Call) :
    (run call calls (create kv c)).Computed :=
  run_invariant Computed (fun c _ computed => call_computed computed c) rfl

/-- In any state, new gains leave the integral's share of the output as it was, one change
after the other, as long as there is an integral before and after each. In every state the
controller can be in, so does the monitor. -/
theorem bumpless_retune :
    (∀ (s : Controller) (retunes : List Retune), Along retune Gained retunes s →
      (run retune retunes s).contribution = s.contribution ∧
        (run retune retunes s).integralTerm = s.integralTerm) ∧
    ∀ (kv : Option Record) (c : Option Item) (calls : List Call) (input : CtrlIn)
      (e : Option ℚ), (run call calls (create kv c)).tuned.gains.ki ≠ 0 →
        ((run call calls (create kv c)).judge input e).contribution =
          (run call calls (create kv c)).contribution := by
  constructor
  · intro s retunes gained
    have same : (run retune retunes s).contribution = s.contribution :=
      run_preserves Gained (fun now => now.contribution = s.contribution)
        (fun _ _ kept gained => (retune_contribution gained).trans kept) rfl gained
    exact ⟨same, by rw [integralTerm, integralTerm, same]⟩
  · intro kv c calls input e gained
    exact judge_contribution (run_computed kv c calls) gained input e

/-- A new controller that has accumulated some error. -/
def wound : Controller :=
  let s := create none none
  { s with loop := { s.loop with inter := 500 } }

/-- What a relay measured. -/
def relayRun : Measurement := { Ku := 1 / 25, Pu := 300 }

/-- A relay's tuning is taken over: the accumulated error is another, its share is not. -/
theorem bumpless_retune_relay :
    (run retune [.applyTuning relayRun] wound).integralTerm = wound.integralTerm ∧
      (run retune [.applyTuning relayRun] wound).loop.inter ≠ wound.loop.inter ∧
      ((create none none).judge { nowS := 0, pitC := none, setpointC := 100, uPrevApplied := 0 }
        none).contribution = (create none none).contribution := by
  have gained : Along retune Gained [.applyTuning relayRun] wound := by
    refine ⟨⟨?_, ?_⟩, trivial⟩
    · decide +kernel
    · decide +kernel
  refine ⟨(bumpless_retune.1 wound _ gained).2, by decide +kernel, ?_⟩
  exact bumpless_retune.2 none none [] _ none (by decide +kernel)

end Controller

end PiFire.Adaptive
