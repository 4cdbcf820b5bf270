import PiFire.Controllers.Retune

/-!
# Refinement stays near its anchor

A lesson is kept with the tuning it was learned against, and is put on the current tuning in
proportion, within bounds. That is done when a set point is taken up and when the tuning
library's answer changes; a tuning that is stored or forgotten, or a new configuration, moves
the anchor and leaves the lesson in force where it was.
-/

namespace PiFire.Adaptive

open Transition Settings

namespace Tuned

/-- The band and the integral time in force are near those of the anchor. -/
def Refined (t : Tuned) : Prop :=
  t.anchorPb * learnMin ≤ t.gains.pbC ∧ t.gains.pbC ≤ t.anchorPb * learnMax ∧
    t.anchorTi * tiLearnMin ≤ t.gains.ti ∧ t.gains.ti ≤ t.anchorTi * tiLearnMax

instance (t : Tuned) : Decidable t.Refined := inferInstanceAs (Decidable (_ ∧ _))

/-- Where the tunings and the lessons come from: all are positive, and a lesson on a band has
an anchor. -/
structure Sourced (t : Tuned) : Prop where
  typedPb : 0 < t.conf.cfgPbC
  typedTi : 0 < t.conf.cfgTi
  measured : t.l.valid = true → 0 < t.l.pbC ∧ 0 < t.l.ti
  scheduled : t.sch.valid = true → 0 < t.sch.pbC ∧ 0 < t.sch.ti
  anchored : ∀ b, 0 < t.lessons.bandLearned b → 0 < t.lessons.bandAnchor b

/-- The lessons in force are near the anchor. -/
structure Near (t : Tuned) : Prop where
  pb : 0 < t.bandPbC → t.anchorPb * learnMin ≤ t.bandPbC ∧ t.bandPbC ≤ t.anchorPb * learnMax
  ti : 0 < t.bandTi → t.anchorTi * tiLearnMin ≤ t.bandTi ∧ t.bandTi ≤ t.anchorTi * tiLearnMax

theorem anchorPb_pos {t : Tuned} (sourced : t.Sourced) : 0 < t.anchorPb := by
  rw [anchorPb]
  split_ifs with sched learned typed
  · exact sched.2
  · exact learned.2.2
  · exact typed
  · exact absurd sourced.typedPb typed

theorem anchorTi_pos {t : Tuned} (sourced : t.Sourced) : 0 < t.anchorTi := by
  rw [anchorTi]
  split_ifs with sched learned typed
  · exact sched.2
  · exact learned.2.2
  · exact typed
  · exact absurd sourced.typedTi typed

theorem regain_ti_of_sourced {t : Tuned} (sourced : t.Sourced)
    (none_ : ¬(t.conf.autoTune = true ∧ 0 < t.bandTi)) : t.regain.ti = t.anchorTi := by
  rw [regain_ti_of_none none_, anchorTi]
  by_cases sched : t.sch.valid = true
  · rw [if_pos sched, if_pos ⟨sched, (sourced.scheduled sched).2⟩]
  · rw [if_neg sched, if_neg (not_and_of_not_left _ sched)]
    by_cases learned : t.conf.autoTune = true ∧ t.l.valid = true
    · rw [if_pos (Bool.and_eq_true_iff.mpr learned),
        if_pos ⟨learned.1, learned.2, (sourced.measured learned.2).2⟩]
    · have unlearned : ¬(t.conf.autoTune = true ∧ t.l.valid = true ∧ 0 < t.l.ti) :=
        fun all => learned ⟨all.1, all.2.1⟩
      rw [if_neg (fun both => learned (Bool.and_eq_true_iff.mp both)), if_neg unlearned,
        if_pos sourced.typedTi]

theorem refined_of_near {t : Tuned} (sourced : t.Sourced) (near : t.Near)
    (computed : t.gains = t.regain) : t.Refined := by
  have pbPos := anchorPb_pos sourced
  have tiPos := anchorTi_pos sourced
  have band : t.anchorPb * learnMin ≤ t.regain.pbC ∧ t.regain.pbC ≤ t.anchorPb * learnMax := by
    by_cases lesson : t.conf.autoTune = true ∧ 0 < t.bandPbC
    · rw [regain_pbC_of_lesson lesson.1 lesson.2]
      exact near.pb lesson.2
    · rw [regain_pbC_of_none lesson]
      constructor
      · exact mul_le_of_le_one_right pbPos.le (by norm_num [learnMin])
      · exact le_mul_of_one_le_right pbPos.le (by norm_num [learnMax])
  have time : t.anchorTi * tiLearnMin ≤ t.regain.ti ∧ t.regain.ti ≤ t.anchorTi * tiLearnMax := by
    by_cases lesson : t.conf.autoTune = true ∧ 0 < t.bandTi
    · rw [regain_ti_of_lesson lesson.1 lesson.2]
      exact near.ti lesson.2
    · rw [regain_ti_of_sourced sourced lesson]
      constructor
      · exact mul_le_of_le_one_right tiPos.le (by norm_num [tiLearnMin])
      · exact le_mul_of_one_le_right tiPos.le (by norm_num [tiLearnMax])
  rw [Refined, computed]
  exact ⟨band.1, band.2, time.1, time.2⟩

theorem near_of_unmoved {t t' : Tuned} (near : t.Near)
    (pb : 0 < t'.bandPbC → t'.bandPbC = t.bandPbC) (ti : 0 < t'.bandTi → t'.bandTi = t.bandTi)
    (unmoved : 0 < t'.bandPbC ∨ 0 < t'.bandTi →
      t'.anchorPb = t.anchorPb ∧ t'.anchorTi = t.anchorTi) : t'.Near := by
  constructor
  · intro lesson
    rw [(unmoved (Or.inl lesson)).1, pb lesson]
    exact near.pb (pb lesson ▸ lesson)
  · intro lesson
    rw [(unmoved (Or.inr lesson)).2, ti lesson]
    exact near.ti (ti lesson ▸ lesson)

theorem anchors_of_unmeasured {t t' : Tuned} (sourced : t.Sourced) (conf : t'.conf = t.conf)
    (sch : t'.sch = t.sch) (unmeasured : t.sch.valid = true ∨ t.conf.autoTune = false ∨
      t.l.valid = false ∧ t'.l.valid = false) :
    t'.anchorPb = t.anchorPb ∧ t'.anchorTi = t.anchorTi := by
  rw [anchorPb, anchorPb, anchorTi, anchorTi, conf, sch]
  by_cases sched : t.sch.valid = true
  · have scheduled := sourced.scheduled sched
    simp [sched, scheduled]
  · have typed := And.intro sourced.typedPb sourced.typedTi
    rcases unmeasured with valid | typedOnly | ⟨before, after⟩
    · exact absurd valid sched
    · simp [sched, typedOnly, typed]
    · simp [sched, before, after, typed]

theorem wantedPb_near {t : Tuned} (sourced : t.Sourced) (b : Band) (some_ : 0 < t.wantedPb b) :
    t.anchorPb * learnMin ≤ t.wantedPb b ∧ t.wantedPb b ≤ t.anchorPb * learnMax := by
  have positive := anchorPb_pos sourced
  by_cases lesson : 0 < t.lessons.bandLearned b
  · rw [wantedPb, if_pos lesson, if_pos ⟨sourced.anchored b lesson, positive⟩]
    exact clamp_mem (Controller.learn_ordered positive)
  · rw [wantedPb, if_neg lesson] at some_
    exact absurd some_ (lt_irrefl 0)

theorem wantedTi_near {t : Tuned} (sourced : t.Sourced) (b : Band) (some_ : 0 < t.wantedTi b) :
    t.anchorTi * tiLearnMin ≤ t.wantedTi b ∧ t.wantedTi b ≤ t.anchorTi * tiLearnMax := by
  by_cases lesson : 0 < t.lessons.tiLearned b ∧ 0 < t.lessons.tiAnchor b ∧ 0 < t.anchorTi
  · rw [wantedTi, if_pos lesson]
    exact clamp_mem (Controller.tiLearn_ordered (anchorTi_pos sourced))
  · rw [wantedTi, if_neg lesson] at some_
    exact absurd some_ (lt_irrefl 0)

end Tuned

namespace Controller

open Tuned

/-- What is kept from call to call. -/
structure Fits (s : Controller) : Prop where
  sourced : s.tuned.Sourced
  near : s.tuned.Near
  computed : s.Computed

theorem Fits.refined {s : Controller} (fits : s.Fits) : s.tuned.Refined :=
  refined_of_near fits.sourced fits.near fits.computed

/-- Taking up a set point puts the lesson of its range near the anchor, whatever was in force. -/
theorem useBand_fits {s : Controller} (sourced : s.tuned.Sourced) (setpointC : ℚ) :
    (s.useBand setpointC).Fits where
  sourced := ⟨sourced.typedPb, sourced.typedTi, sourced.measured, sourced.scheduled,
    sourced.anchored⟩
  near := ⟨wantedPb_near sourced _, wantedTi_near sourced _⟩
  computed := rfl

theorem adjustTi_fits {s : Controller} (fits : s.Fits) (faster : ℚ) :
    (s.adjustTi faster).Fits := by
  rcases s.adjustTi_cases faster with same | ⟨want, _, above, below, learned⟩
  · rwa [same]
  · rw [learned]
    obtain ⟨sourced, near, _⟩ := fits
    exact {
      sourced := ⟨sourced.typedPb, sourced.typedTi, sourced.measured, sourced.scheduled,
        sourced.anchored⟩
      near := ⟨near.pb, fun _ => ⟨above, below⟩⟩
      computed := rfl }

theorem adjustBand_fits {s : Controller} (fits : s.Fits) (tighter : ℚ) :
    (s.adjustBand tighter).Fits := by
  rcases s.adjustBand_cases tighter with same | ⟨want, some_, inside, learned⟩
  · rwa [same]
  · rw [learned]
    obtain ⟨sourced, near, _⟩ := fits
    have positive := anchorPb_pos sourced
    have anchored : ∀ b, 0 < Function.update s.tuned.lessons.bandLearned
        (bandOf s.loop.setpointC) want b →
          0 < Function.update s.tuned.lessons.bandAnchor (bandOf s.loop.setpointC)
            (if 0 < s.tuned.anchorPb then s.tuned.anchorPb else want) b := by
      intro b lesson
      by_cases here : b = bandOf s.loop.setpointC
      · rw [here, Function.update_self, if_pos positive]
        exact positive
      · rw [Function.update_of_ne here] at lesson ⊢
        exact sourced.anchored b lesson
    exact {
      sourced := ⟨sourced.typedPb, sourced.typedTi, sourced.measured, sourced.scheduled, anchored⟩
      near := ⟨fun _ => inside positive, near.ti⟩
      computed := rfl }

theorem judge_fits {s : Controller} (fits : s.Fits) (input : CtrlIn) (e : Option ℚ) :
    (s.judge input e).Fits :=
  judge_keeps Fits (fun _ _ fits => ⟨fits.sourced, fits.near, fits.computed⟩)
    (fun _ tighter fits => adjustBand_fits fits tighter)
    (fun _ faster fits => adjustTi_fits fits faster) fits input e

theorem reset_fits {s : Controller} (sourced : s.tuned.Sourced) (input : CtrlIn) :
    (s.reset input).Fits := by
  have fits := useBand_fits sourced input.setpointC
  exact ⟨fits.sourced, fits.near, rfl⟩

theorem takeSchedule_fits {s : Controller} (fits : s.Fits) (input : CtrlIn) :
    (s.takeSchedule input).Fits := by
  rw [takeSchedule]
  split
  · apply useBand_fits
    obtain ⟨sourced, _, _⟩ := fits
    exact ⟨sourced.typedPb, sourced.typedTi, sourced.measured, of_decide_eq_true, sourced.anchored⟩
  · exact fits

theorem prepared_fits {s : Controller} (fits : s.Fits) (input : CtrlIn) :
    (s.prepared input).Fits := by
  have taken {now : Controller} (fits : now.Fits) :
      ((now.takeSchedule input).takePlant input).Fits := by
    obtain ⟨sourced, near, computed⟩ := takeSchedule_fits fits input
    exact ⟨sourced, near, computed⟩
  rw [prepared]
  split
  · exact taken (reset_fits fits.sourced input)
  · exact taken fits

theorem update_fits {s : Controller} (fits : s.Fits) (input : CtrlIn) :
    (s.update input).Fits := by
  obtain ⟨sourced, near, computed⟩ := prepared_fits fits input
  apply judge_fits
  have same := driven_tuned s input
  constructor
  · rwa [same]
  · rwa [same]
  · rwa [Computed, same]

/-- A lesson is in force. -/
def Lesson (t : Tuned) : Prop := 0 < t.bandPbC ∨ 0 < t.bandTi

/-- The stored lessons on bands have their anchors. -/
def Anchored (kv : Option Record) : Prop :=
  ∀ r ∈ kv, ∀ b, 0 < (loadedLessons r).bandLearned b → 0 < (loadedLessons r).bandAnchor b

/-- What is typed in is positive. -/
def Typed (c : Option Item) : Prop := 0 < (configOf c).cfgPbC ∧ 0 < (configOf c).cfgTi

/-- What was measured is not the anchor. -/
def Unmeasured (t : Tuned) : Prop := t.sch.valid = true ∨ t.conf.autoTune = false

/-- A call that moves the anchor finds no lesson in force; what is typed in is positive, and
what is stored has anchors. -/
def Apt : Call → Controller → Prop
  | .reset _, _ => True
  | .update _, _ => True
  | .configure c, s => Typed c ∧ (Lesson s.tuned →
      ({ s.tuned with conf := configOf c } : Tuned).anchorPb = s.tuned.anchorPb ∧
        ({ s.tuned with conf := configOf c } : Tuned).anchorTi = s.tuned.anchorTi)
  | .forget tuning refinement, s =>
      tuning = true → refinement = false ∧ 0 < s.tuned.bandPbC ∨ 0 < s.tuned.bandTi →
        Unmeasured s.tuned ∨ s.tuned.l.valid = false
  | .applyTuning m, s => Lesson s.tuned →
      Unmeasured s.tuned ∨ m.relay = false ∧ ¬(0 < m.K ∧ 0 < m.tau ∧ 0 < m.theta)
  | .restart c, s => Typed c ∧ Anchored s.kv

theorem create_fits {kv : Option Record} {c : Option Item} (typed : Typed c)
    (anchored : Anchored kv) : (create kv c).Fits := by
  constructor
  · cases kv with
    | none =>
        exact ⟨typed.1, typed.2, fun none_ => Bool.noConfusion none_,
          fun none_ => Bool.noConfusion none_, fun _ none_ => absurd none_ (lt_irrefl 0)⟩
    | some r =>
        refine ⟨typed.1, typed.2, ?_, fun none_ => Bool.noConfusion none_, anchored r rfl⟩
        intro valid
        have parts : (r.valid && decide (0 < r.pbC.getD 0) && decide (0 < r.ti.getD 0)) = true :=
          valid
        rw [Bool.and_eq_true, Bool.and_eq_true, decide_eq_true_eq, decide_eq_true_eq] at parts
        exact ⟨parts.1.2, parts.2⟩
  · cases kv with
    | none =>
        exact ⟨fun none_ => absurd none_ (lt_irrefl 0), fun none_ => absurd none_ (lt_irrefl 0)⟩
    | some r =>
        exact ⟨fun none_ => absurd none_ (lt_irrefl 0), fun none_ => absurd none_ (lt_irrefl 0)⟩
  · rfl

theorem configure_fits {s : Controller} (fits : s.Fits) {c : Option Item}
    (apt : Apt (.configure c) s) : (s.configure c).Fits := by
  obtain ⟨sourced, near, _⟩ := fits
  obtain ⟨typed, unmoved⟩ := apt
  constructor
  · exact ⟨typed.1, typed.2, sourced.measured, sourced.scheduled, sourced.anchored⟩
  · exact near_of_unmoved near (fun _ => rfl) (fun _ => rfl) unmoved
  · rfl

theorem forget_fits {s : Controller} (fits : s.Fits) {tuning refinement : Bool}
    (apt : Apt (.forget tuning refinement) s) : (s.forget tuning refinement).Fits := by
  obtain ⟨sourced, near, _⟩ := fits
  have pb : 0 < (s.forget tuning refinement).tuned.bandPbC →
      refinement = false ∧ (s.forget tuning refinement).tuned.bandPbC = s.tuned.bandPbC := by
    intro lesson
    cases refinement with
    | true => exact absurd lesson (by cases tuning <;> exact lt_irrefl 0)
    | false => cases tuning <;> exact ⟨rfl, rfl⟩
  have ti : (s.forget tuning refinement).tuned.bandTi = s.tuned.bandTi := by
    cases tuning <;> cases refinement <;> rfl
  constructor
  · cases tuning <;> cases refinement
    · exact ⟨sourced.typedPb, sourced.typedTi, sourced.measured, sourced.scheduled,
        sourced.anchored⟩
    · exact ⟨sourced.typedPb, sourced.typedTi, sourced.measured, sourced.scheduled,
        fun _ none_ => absurd none_ (lt_irrefl 0)⟩
    · exact ⟨sourced.typedPb, sourced.typedTi, fun none_ => Bool.noConfusion none_,
        sourced.scheduled, sourced.anchored⟩
    · exact ⟨sourced.typedPb, sourced.typedTi, fun none_ => Bool.noConfusion none_,
        sourced.scheduled, fun _ none_ => absurd none_ (lt_irrefl 0)⟩
  · apply near_of_unmoved near (fun lesson => (pb lesson).2) (fun _ => ti)
    intro lesson
    cases tuning with
    | false => cases refinement <;> exact ⟨rfl, rfl⟩
    | true =>
        have inForce : refinement = false ∧ 0 < s.tuned.bandPbC ∨ 0 < s.tuned.bandTi := by
          rcases lesson with lesson | lesson
          · exact Or.inl ⟨(pb lesson).1, (pb lesson).2 ▸ lesson⟩
          · exact Or.inr (ti ▸ lesson)
        apply anchors_of_unmeasured sourced (by cases refinement <;> rfl)
          (by cases refinement <;> rfl)
        rcases apt rfl inForce with (sched | typedOnly) | invalid
        · exact Or.inl sched
        · exact Or.inr (Or.inl typedOnly)
        · exact Or.inr (Or.inr ⟨invalid, by cases refinement <;> rfl⟩)
  · rfl

theorem bounded_pos {t : Tuned} (sourced : t.Sourced) (relay : Bool) (tuning : Tuning) :
    0 < (bounded t relay tuning).pbC ∧ 0 < (bounded t relay tuning).ti := by
  have above (x : ℚ) : 0 < clamp x 15 400 := by
    have inside : 15 ≤ clamp x 15 400 ∧ clamp x 15 400 ≤ 400 := clamp_mem (by norm_num)
    linarith
  have above' (x : ℚ) : 0 < clamp x 60 3600 := by
    have inside : 60 ≤ clamp x 60 3600 ∧ clamp x 60 3600 ≤ 3600 := clamp_mem (by norm_num)
    linarith
  rw [bounded]
  generalize (if relay then tuning else
    { pbC := clamp tuning.pbC (t.conf.cfgPbC * (1 / 2)) (t.conf.cfgPbC * (3 / 2))
      ti := clamp tuning.ti (t.conf.cfgTi * (1 / 2)) (t.conf.cfgTi * 2)
      td := clamp tuning.td 0 (t.conf.cfgTd * 2) }) = held
  dsimp only
  have pb := above held.pbC
  have ti := above' held.ti
  split
  · next smoothed =>
      obtain ⟨pbWas, tiWas⟩ := sourced.measured smoothed.1
      constructor
      · exact mul_pos (by norm_num) (add_pos pb pbWas)
      · exact mul_pos (by norm_num) (add_pos ti tiWas)
  · exact ⟨pb, ti⟩

theorem rescaled_anchored {l : Lessons}
    (anchored : ∀ b, 0 < l.bandLearned b → 0 < l.bandAnchor b)
    (band : Band) {pbC : ℚ} (positive : 0 < pbC) (b : Band)
    (lesson : 0 < (rescaled l band pbC).bandLearned b) :
    0 < (rescaled l band pbC).bandAnchor b := by
  rw [rescaled] at lesson ⊢
  generalize (if 0 < l.bandLearned band ∧ 0 < l.bandAnchor band
    then l.bandLearned band / l.bandAnchor band else 0) = r at lesson ⊢
  dsimp only at lesson ⊢
  by_cases here : b = band
  · rw [here, Function.update_self] at lesson ⊢
    by_cases some_ : 0 < r
    · rwa [if_pos some_]
    · rw [if_neg some_] at lesson
      exact absurd lesson (lt_irrefl 0)
  · rw [Function.update_of_ne here] at lesson ⊢
    exact anchored b lesson

theorem applyTuning_fits {s : Controller} (fits : s.Fits) {m : Measurement}
    (apt : Apt (.applyTuning m) s) : (s.applyTuning m).Fits := by
  obtain ⟨sourced, near, computed⟩ := fits
  rw [applyTuning]
  dsimp only
  split
  · exact ⟨sourced, near, computed⟩
  · next t measured =>
      split
      · exact ⟨sourced, near, computed⟩
      · have positive := bounded_pos sourced m.relay t
        constructor
        · exact ⟨sourced.typedPb, sourced.typedTi, fun _ => positive, sourced.scheduled,
            rescaled_anchored sourced.anchored _ positive.1⟩
        · refine near_of_unmoved near ?_ ?_ ?_
          · exact fun _ => rfl
          · exact fun _ => rfl
          · intro lesson
            refine anchors_of_unmeasured sourced rfl rfl ?_
            rcases apt lesson with (sched | typedOnly) | ⟨passive, nothing⟩
            · exact Or.inl sched
            · exact Or.inr (Or.inl typedOnly)
            · rw [designed, passive, if_neg Bool.false_ne_true, if_neg nothing] at measured
              cases measured
        · rfl

theorem call_fits {c : Call} {s : Controller} (fits : s.Fits) (apt : Apt c s) :
    (call c s).Fits := by
  cases c with
  | reset input => exact reset_fits fits.sourced input
  | update input => exact update_fits fits input
  | configure c => exact configure_fits fits apt
  | forget tuning refinement => exact forget_fits fits apt
  | applyTuning m => exact applyTuning_fits fits apt
  | restart c => exact create_fits apt.1 apt.2

/-- In a run whose calls find no lesson in force where they move the anchor, the band and the
integral time are near the anchor's in every state reached. -/
theorem refinement_near_anchor {kv : Option Record} {c : Option Item} {calls : List Call}
    (typed : Typed c) (anchored : Anchored kv) (apt : Along call Apt calls (create kv c)) :
    (create kv c).tuned.Refined ∧
      Throughout call (fun s => s.tuned.Refined) calls (create kv c) := by
  have fits := create_fits typed anchored
  refine ⟨fits.refined, ?_⟩
  apply Along.strengthen Fits (fun _ _ => call_fits) _ fits apt
  exact fun _ _ fits apt => (call_fits fits apt).refined

/-- What a controller stored that runs on a band of a hundred degrees, with the lesson that it
should. -/
def wideRecord : Record where
  pbC := some 100
  ti := some 300
  td := some 30
  bandLearned := List.replicate 4 (some 100)
  bandAnchor := List.replicate 4 (some 100)
  tiLearned := []
  tiAnchor := []
  valid := true
  ts := none
  src := none
  theta := none
  K := none
  tau := none
  m := some 2
  bg := some 2

/-- A first reading at 110 degrees. -/
def atTarget : CtrlIn := { nowS := 0, pitC := some 110, setpointC := 110, uPrevApplied := 1 / 4 }

/-- A relay's tuning is stored while the lesson is in force: the band in force is more than
four times the new one. -/
theorem lesson_left_behind :
    ¬(run call [.update atTarget, .applyTuning relayRun]
      (create (some wideRecord) none)).tuned.Refined := by
  decide +kernel

/-- Where the lesson of another range is taken up instead, and no tuning is stored. -/
theorem refinement_near_anchor_wide :
    Throughout call (fun s => s.tuned.Refined)
      [.update atTarget, .update { atTarget with nowS := 20, setpointC := 150 }]
      (create (some wideRecord) none) := by
  have typed : Typed none := by
    constructor
    · decide +kernel
    · decide
  have anchored : Anchored (some wideRecord) := by
    rintro r ⟨⟩ b _
    revert b
    decide
  have apt : Along call Apt
      [.update atTarget, .update { atTarget with nowS := 20, setpointC := 150 }]
      (create (some wideRecord) none) := ⟨trivial, trivial, trivial⟩
  exact (refinement_near_anchor typed anchored apt).2

end Controller

end PiFire.Adaptive
