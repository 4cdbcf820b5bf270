import PiFire.Relay.Passage
import PiFire.Safety.Lockout
import PiFire.Settings.Disk
import PiFire.Settings.Validate

/-!
# How long the lid excuses the pit

An open lid and a lid event both hold the flame supervision back. The pause of an open
lid lasts as long as the settings say, whatever that is; the event has a limit of its
own. A lid that is opened once, with a pause within that limit, excuses the pit no longer
than the limit and the step it ran out in.
-/

namespace PiFire

open Transition

/-- What the control state knows of the lid, and the mode it is watched in. -/
structure Lid where
  mode : Mode
  isOpen : Bool
  openUntil : ℚ
  event : Bool
  eventT : ℚ

/-- The lid part of the control state. -/
def lidOf (c : Control) : Lid :=
  { mode := c.mode
    isOpen := c.lidOpen
    openUntil := c.lidOpenUntil
    event := c.lidEvent
    eventT := c.lidEventT }

/-- The lid as it was, or shut; one that stays open is watched in the same mode. -/
structure Lid.Kept (before after : Lid) : Prop where
  isOpen : after.isOpen = true → before.isOpen = true ∧ after.mode = before.mode
  openUntil : after.openUntil = before.openUntil
  event : after.event = before.event
  eventT : after.eventT = before.eventT

namespace Lid.Kept

theorem refl (lid : Lid) : lid.Kept lid := ⟨fun opened => ⟨opened, rfl⟩, rfl, rfl, rfl⟩

theorem of_eq {before after : Lid} (same : after = before) : before.Kept after :=
  same ▸ refl after

theorem shut (lid : Lid) (m : Mode) : lid.Kept { lid with mode := m, isOpen := false } :=
  ⟨fun opened => (by cases opened), rfl, rfl, rfl⟩

theorem trans {first second third : Lid} (left : first.Kept second) (right : second.Kept third) :
    first.Kept third where
  isOpen := by
    intro opened
    obtain ⟨still, same⟩ := right.isOpen opened
    obtain ⟨before, sameBefore⟩ := left.isOpen still
    exact ⟨before, same.trans sameBefore⟩
  openUntil := right.openUntil.trans left.openUntil
  event := right.event.trans left.event
  eventT := right.eventT.trans left.eventT

end Lid.Kept

/-! ## What leaves the lid alone -/

section Frame

variable {t : Tick} {p : Phase} {c : Control}

@[simp]
theorem lidOf_setOutput (o : Output) (on : Bool) : lidOf (setOutput o on c) = lidOf c := rfl

@[simp]
theorem lidOf_setFanPct (pct : ℤ) : lidOf (setFanPct pct c) = lidOf c := rfl

@[simp]
theorem lidOf_fanOn (pct : ℤ) : lidOf (fanOn pct c) = lidOf c := by
  simp only [fanOn]
  split <;> rfl

@[simp]
theorem lidOf_smokeCycle : lidOf (smokeCycle t c) = lidOf c := by
  unfold smokeCycle
  extract_lets times learned
  cases learned <;> rfl

theorem lidOf_setupLight : lidOf (setupLight t c) = lidOf c := by
  have entered (c : Control) : lidOf (onStartupEnter t c) = lidOf c := rfl
  have chosen (c : Control) : lidOf (selectSmartstartProfile c) = lidOf c := rfl
  simp only [setupLight, lidOf_setOutput, lidOf_smokeCycle, entered, chosen, lidOf_fanOn]

theorem lidOf_enterMode (m : Mode) :
    lidOf (enterMode t m c) = { lidOf c with mode := m, isOpen := false } := by
  have left : lidOf (leaveMode t m c) = { lidOf c with mode := m, isOpen := false } := by
    unfold leaveMode
    extract_lets quiet
    unfold quiet
    split_ifs <;> rfl
  have run (c : Control) (prev : Mode) : lidOf (onRunEnter t prev c) = lidOf c := rfl
  have cycle (cycle : Cycle) (c : Control) : lidOf (applyCycle cycle c) = lidOf c := rfl
  have books (c : Control) : lidOf (beginCook t c) = lidOf c := rfl
  rw [← left]
  cases m with
  | stop => rfl
  | monitor | manual => rfl
  | prime =>
      simp only [enterMode, setupPrime, lidOf_setOutput]
      split_ifs <;> rfl
  | startup => exact lidOf_setupLight.trans (books _)
  | reignite => exact lidOf_setupLight
  | smoke =>
      simp only [enterMode, setupSmoke, lidOf_setOutput, lidOf_smokeCycle, lidOf_fanOn, run]
  | hold => simp only [enterMode, setupHold, lidOf_setOutput, cycle, lidOf_fanOn, run]
  | shutdown => exact lidOf_fanOn _
  | error =>
      simp only [enterMode, setupError]
      split_ifs
      · exact lidOf_fanOn _
      all_goals first | rfl | exact lidOf_fanOn _

theorem kept_of_passes {d : Control} {entered : Option Entry}
    (passes : Passes withoutFire t c entered d) : (lidOf c).Kept (lidOf d) := by
  rcases (passes.blind lidOf fun _ => rfl).stays_or_enters rfl with
    ⟨-, same⟩ | ⟨e, from_, -, same, into⟩
  · exact .of_eq same
  · rw [into, lidOf_enterMode, same]
    exact .shut _ _

theorem lidOf_manualOutput (str : String) (on : Bool) (num : ℚ) :
    lidOf (manualOutput t str on num c) = lidOf c := by
  have switched (until_ : ℚ) (o : Output) : lidOf (manualSwitch t until_ o on c) = lidOf c := by
    unfold manualSwitch
    extract_lets blown switched
    have same : lidOf blown = lidOf c := by
      unfold blown
      split_ifs <;> rfl
    exact same
  unfold manualOutput
  extract_lets until_
  split_ifs
  · rfl
  · split
    · exact switched _ _
    · rfl
  · rfl

theorem lidOf_feedAuger : lidOf (feedAuger t c) = lidOf c := by
  have next : lidOf (nextCycle t c) = lidOf c := by
    have same := congrArg lidOf (withoutFeed_nextCycle t c)
    exact same
  have follows (c : Control) : lidOf (followCycle t c) = lidOf c := by
    simp only [followCycle]
    split_ifs <;> rfl
  have drives : lidOf (driveCycle t c) = lidOf c := by
    unfold driveCycle parkAuger
    split_ifs
    · rw [follows, next]
    · rfl
    · rfl
  have rests (c : Control) : lidOf (restAuger t c) = lidOf c := by
    unfold restAuger
    split_ifs <;> rfl
  have caps (c : Control) : lidOf (capAuger t c) = lidOf c := by
    unfold capAuger
    split_ifs <;> rfl
  rw [feedAuger, caps, rests, drives]

theorem kept_act (notLid : p ≠ .lid)
    (shut : p = .command .lidToggle → c.mode = .hold → c.lidOpen = true) :
    (lidOf c).Kept (lidOf (p.act t c)) := by
  by_cases plans : p.plans = true ∨ p = .read ∨ p = .supervise
  · exact kept_of_passes (passes_fire t c plans)
  · obtain ⟨works, notRead, notSupervise⟩ := by simpa only [not_or] using plans
    cases p with
    | command cmd =>
        cases cmd with
        | dutyCycle num =>
            simp only [Phase.act, handleCmd]
            split_ifs <;> exact .refl _
        | manualOutput str flag num => exact .of_eq (lidOf_manualOutput str flag num)
        | lidToggle =>
            simp only [Phase.act, handleCmd, lidToggle]
            by_cases holds : c.mode = .hold
            · rw [if_pos holds, if_pos (shut rfl holds), lidOf_fanOn]
              exact .shut _ _
            · rw [if_neg holds]
              exact .refl _
        | settingsChanged =>
            simp only [Phase.act, handleCmd, controlReloadSettings]
            split_ifs <;> exact .refl _
        | controllerChanged => exact .refl _
        | _ => exact absurd rfl works
    | lid => exact absurd rfl notLid
    | feed => exact .of_eq lidOf_feedAuger
    | fan =>
        have same := congrArg lidOf (withoutFeed_runFan t c)
        exact .of_eq same
    | expire =>
        simp only [Phase.act, expireManual]
        split_ifs <;> exact .refl _
    | checkpoint => exact .refl _
    | read => exact absurd rfl notRead
    | supervise => exact absurd rfl notSupervise
    | _ => exact absurd rfl works

end Frame

/-! ## What opens the lid -/

/-- The look at the pit in Smoke and Hold: the state after it, and whether the pit
dropped. -/
def lidLook (t : Tick) (c : Control) : Control × Bool :=
  lidWatch t
    (if c.mode = .hold ∧ readsAtLeast c.pitC c.setpointC then { c with targetReached := true }
    else c)

/-- The lid opens in this phase: toggled in Hold, or found open from the pit, which
begins an event, or a pause, or both. -/
def opensLid (t : Tick) : Phase → Control → Bool
  | .command .lidToggle, c => c.mode == .hold && !c.lidOpen
  | .lid, c =>
      let look := lidLook t c
      c.mode.isRunning &&
        (look.2 && !look.1.lidEvent || lidOpens look.2 (trackLidEvent t look.2 look.1))
  | _, _ => false

/-- What a phase does to the lid: what stands after it stood before, or begins with it. -/
structure Lid.Moved (now pause : ℚ) (opens : Bool) (before after : Lid) : Prop where
  isOpen : after.isOpen = true →
    before.isOpen = true ∧ after.mode = before.mode ∧ after.openUntil = before.openUntil ∨
      opens = true ∧ after.mode.isRunning = true ∧ after.openUntil = now + pause
  event : after.event = true →
    before.event = true ∧ after.eventT = before.eventT ∨ opens = true ∧ after.eventT = now

section Opening

variable {t : Tick} {p : Phase} {c : Control}

theorem Lid.Kept.moved {now pause : ℚ} {opens : Bool} {before after : Lid}
    (kept : before.Kept after) : Lid.Moved now pause opens before after where
  isOpen := by
    intro opened
    obtain ⟨still, same⟩ := kept.isOpen opened
    exact Or.inl ⟨still, same, kept.openUntil⟩
  event := by
    intro begun
    rw [kept.event] at begun
    exact Or.inl ⟨begun, kept.eventT⟩

theorem lidOf_lidLook : lidOf (lidLook t c).1 = lidOf c := by
  have sampled (pit : ℚ) (c : Control) : lidOf (sampleLid t pit c) = lidOf c := by
    unfold sampleLid
    split_ifs <;> rfl
  have watched (c : Control) : lidOf (lidWatch t c).1 = lidOf c := by
    unfold lidWatch
    split
    · rfl
    · exact sampled _ _
  rw [lidLook, watched]
  split_ifs <;> rfl

theorem lidLook_cfg : (lidLook t c).1.cfg = c.cfg := by
  have watched (c : Control) : (lidWatch t c).1.cfg = c.cfg := by
    unfold lidWatch
    split
    · rfl
    · simp only [sampleLid]
      split_ifs <;> rfl
  rw [lidLook, watched]
  split_ifs <;> rfl

theorem trackLidEvent_cfg (dropped : Bool) : (trackLidEvent t dropped c).cfg = c.cfg := by
  simp only [trackLidEvent]
  split_ifs <;> rfl

theorem trackLidEvent_mode (dropped : Bool) : (trackLidEvent t dropped c).mode = c.mode := by
  simp only [trackLidEvent]
  split_ifs <;> rfl

theorem lidOf_openLid :
    lidOf (openLid t c) =
      { lidOf c with isOpen := true, openUntil := t.now + c.cfg.lidPauseS } :=
  lidOf_fanOn (c := setOutput .auger false { c with
    lidOpen := true, lidOpenUntil := t.now + c.cfg.lidPauseS, lidLowC := c.pitC
    targetReached := false }) c.dutyCycle

theorem moved_trackLidEvent (pause : ℚ) (dropped : Bool) :
    Lid.Moved t.now pause (dropped && !c.lidEvent) (lidOf c)
      (lidOf (trackLidEvent t dropped c)) := by
  unfold trackLidEvent
  extract_lets begun recovered
  have begins : Lid.Moved t.now pause (dropped && !c.lidEvent) (lidOf c) (lidOf begun) := by
    unfold begun
    split_ifs with starts
    · refine ⟨fun opened => Or.inl ⟨opened, rfl, rfl⟩, fun _ => Or.inr ⟨?_, rfl⟩⟩
      rw [starts.1, starts.2]
      rfl
    · exact (Lid.Kept.refl _).moved
  split_ifs
  · exact ⟨begins.isOpen, fun stands => by cases stands⟩
  · exact begins

theorem kept_closeLid :
    (lidOf c).Kept (lidOf (closeLid t c)) ∧
      ((closeLid t c).lidOpen = true → t.now ≤ (closeLid t c).lidOpenUntil) := by
  unfold closeLid
  by_cases opened : c.lidOpen = true
  · rw [if_pos opened]
    extract_lets low risen tracked closed
    have shut : lidOf closed = { lidOf c with isOpen := false } := lidOf_fanOn _
    have isShut : closed.lidOpen = false := congrArg Lid.isOpen shut
    split_ifs with ends holds
    · refine ⟨?_, fun stays => ?_⟩
      · rw [shut]
        exact .shut _ _
      · rw [isShut] at stays
        cases stays
    · refine ⟨?_, fun stays => ?_⟩
      · change (lidOf c).Kept (lidOf closed)
        rw [shut]
        exact .shut _ _
      · change closed.lidOpen = true at stays
        rw [isShut] at stays
        cases stays
    · refine ⟨.refl _, fun _ => ?_⟩
      exact not_lt.mp fun late => ends (Or.inr late)
  · rw [if_neg opened]
    exact ⟨.refl _, fun stays => absurd stays opened⟩

theorem Lid.Moved.weaken {now pause : ℚ} {opens more : Bool} {before after : Lid}
    (moved : Lid.Moved now pause opens before after) (implies : opens = true → more = true) :
    Lid.Moved now pause more before after where
  isOpen := fun opened => (moved.isOpen opened).imp_right fun begun => ⟨implies begun.1, begun.2⟩
  event := fun begun => (moved.event begun).imp_right fun now => ⟨implies now.1, now.2⟩

theorem Lid.Moved.kept {now pause : ℚ} {opens : Bool} {before between after : Lid}
    (moved : Lid.Moved now pause opens before between) (kept : between.Kept after) :
    Lid.Moved now pause opens before after where
  isOpen := by
    intro opened
    obtain ⟨still, same⟩ := kept.isOpen opened
    rw [same, kept.openUntil]
    exact moved.isOpen still
  event := by
    intro begun
    rw [kept.event] at begun
    rw [kept.eventT]
    exact moved.event begun

theorem moved_watchLid :
    Lid.Moved t.now c.cfg.lidPauseS (opensLid t .lid c) (lidOf c) (lidOf (watchLid t c)) := by
  by_cases running : c.mode.isRunning = true
  · have look : watchLid t c =
        (let tracked := trackLidEvent t (lidLook t c).2 (lidLook t c).1
        closeLid t (if lidOpens (lidLook t c).2 tracked then openLid t tracked else tracked)) := by
      rw [watchLid, if_pos running]
      rfl
    have opens : opensLid t .lid c =
        ((lidLook t c).2 && !(lidLook t c).1.lidEvent ||
          lidOpens (lidLook t c).2 (trackLidEvent t (lidLook t c).2 (lidLook t c).1)) := by
      simp only [opensLid, running, Bool.true_and]
    have seen : lidOf (lidLook t c).1 = lidOf c := lidOf_lidLook
    have cfg : (trackLidEvent t (lidLook t c).2 (lidLook t c).1).cfg = c.cfg :=
      (trackLidEvent_cfg _).trans lidLook_cfg
    rw [look, opens]
    have mode : (trackLidEvent t (lidLook t c).2 (lidLook t c).1).mode = c.mode :=
      (trackLidEvent_mode _).trans (congrArg Lid.mode seen)
    generalize lidLook t c = found at seen cfg mode
    obtain ⟨watched, dropped⟩ := found
    simp only at seen cfg mode ⊢
    have tracks := moved_trackLidEvent (t := t) (c := watched) c.cfg.lidPauseS dropped
    rw [seen] at tracks
    generalize trackLidEvent t dropped watched = tracked at tracks cfg mode
    refine Lid.Moved.kept ?_ kept_closeLid.1
    cases found : lidOpens dropped tracked with
    | false => exact tracks.weaken (by simp)
    | true =>
        simp only [if_true, Bool.or_true]
        rw [lidOf_openLid, cfg]
        refine ⟨fun _ => Or.inr ⟨rfl, ?_, rfl⟩, (tracks.weaken fun _ => rfl).event⟩
        change tracked.mode.isRunning = true
        rw [mode, running]
  · rw [watchLid, if_neg running]
    exact (Lid.Kept.refl _).moved

theorem moved_lidToggle :
    Lid.Moved t.now c.cfg.lidPauseS (opensLid t (.command .lidToggle) c) (lidOf c)
      (lidOf (lidToggle t c)) := by
  by_cases opens : c.mode = .hold ∧ c.lidOpen = false
  · have opened : opensLid t (.command .lidToggle) c = true := by
      simp [opensLid, opens.1, opens.2]
    have toggled : lidOf (lidToggle t c) =
        { lidOf c with isOpen := true, openUntil := t.now + c.cfg.lidPauseS } := by
      rw [lidToggle, if_pos opens.1, if_neg (by simp [opens.2])]
      exact lidOf_fanOn (c := setOutput .auger false { c with
        lidOpen := true, lidOpenUntil := t.now + c.cfg.lidPauseS, lidLowC := c.pitC }) c.dutyCycle
    rw [toggled]
    refine ⟨fun _ => Or.inr ⟨opened, ?_, rfl⟩, fun stands => Or.inl ⟨stands, rfl⟩⟩
    change c.mode.isRunning = true
    rw [opens.1]
    rfl
  · have kept : (lidOf c).Kept (lidOf (Phase.act t (.command .lidToggle) c)) := by
      refine kept_act (fun same => by cases same) fun _ holds => ?_
      by_contra shut
      exact opens ⟨holds, Bool.eq_false_iff.mpr shut⟩
    exact kept.moved

theorem moved_act :
    Lid.Moved t.now c.cfg.lidPauseS (opensLid t p c) (lidOf c) (lidOf (p.act t c)) := by
  by_cases watches : p = .lid
  · rw [watches]
    exact moved_watchLid
  · by_cases toggles : p = .command .lidToggle
    · rw [toggles]
      exact moved_lidToggle
    · exact (kept_act watches fun same => absurd same toggles).moved

theorem watchLid_timely (running : c.mode.isRunning = true)
    (opened : (watchLid t c).lidOpen = true) : t.now ≤ (watchLid t c).lidOpenUntil := by
  rw [watchLid, if_pos running] at opened ⊢
  exact kept_closeLid.2 opened

end Opening

/-! ## The bound on one opening -/

/-- A lid that was opened by then, for a pause within the limit. -/
structure Lid.Within (opened : ℚ) (lid : Lid) : Prop where
  isOpen : lid.isOpen = true → lid.mode.isRunning = true ∧ lid.openUntil ≤ opened + lidAllowS
  event : lid.event = true → lid.eventT ≤ opened

/-- Where a phase of the step opens the lid, the pause is within the limit. -/
def PausesInLimit (t : Tick) (c : Control) : Prop :=
  Along (Phase.act t) (fun p c => opensLid t p c = true → c.cfg.lidPauseS ≤ lidAllowS)
    (phases t) c

/-- No phase of the step opens the lid. -/
def OpensNoLid (t : Tick) (c : Control) : Prop :=
  Along (Phase.act t) (fun p c => opensLid t p c = false) (phases t) c

instance (t : Tick) (c : Control) : Decidable (PausesInLimit t c) :=
  inferInstanceAs (Decidable (Along _ _ _ _))

instance (t : Tick) (c : Control) : Decidable (OpensNoLid t c) :=
  inferInstanceAs (Decidable (Along _ _ _ _))

section Bound

variable {t : Tick} {p : Phase} {c : Control} {opened : ℚ}

/-- The look at the lid, and the phases after it. -/
def settledPhases : List Phase :=
  [.feed, .fan, .expire, .timed, .input, .checkpoint, .close]

theorem phases_eq_lid (t : Tick) :
    phases t = (drainPhases t ++ cookPhases ++ [.supervise]) ++ .lid :: settledPhases := by
  simp only [phases, closePhases, settledPhases, List.append_assoc, List.cons_append,
    List.nil_append]

theorem Lid.Moved.within {now pause : ℚ} {opens : Bool} {before after : Lid}
    (moved : Lid.Moved now pause opens before after) (within : before.Within opened)
    (limited : opens = true → now ≤ opened ∧ pause ≤ lidAllowS) : after.Within opened where
  isOpen := by
    intro stands
    rcases moved.isOpen stands with ⟨stood, mode, until_⟩ | ⟨opens, running, until_⟩
    · rw [mode, until_]
      exact within.isOpen stood
    · obtain ⟨early, short⟩ := limited opens
      refine ⟨running, ?_⟩
      rw [until_]
      exact add_le_add early short
  event := by
    intro stands
    rcases moved.event stands with ⟨stood, since⟩ | ⟨opens, since⟩
    · rw [since]
      exact within.event stood
    · rw [since]
      exact (limited opens).1

theorem run_within {ps : List Phase} (within : (lidOf c).Within opened)
    (limited : Along (Phase.act t)
      (fun p c => opensLid t p c = true → t.now ≤ opened ∧ c.cfg.lidPauseS ≤ lidAllowS) ps c) :
    (lidOf (run (Phase.act t) ps c)).Within opened :=
  run_preserves _ (fun c => (lidOf c).Within opened)
    (fun _ _ within limited => moved_act.within within limited) within limited

theorem kept_run {ps : List Phase} (notLid : ∀ p ∈ ps, p ≠ .lid)
    (shut : Along (Phase.act t) (fun p c => opensLid t p c = false) ps c) :
    (lidOf c).Kept (lidOf (run (Phase.act t) ps c)) := by
  induction ps generalizing c with
  | nil => exact .refl _
  | cons p ps ih =>
      refine .trans (kept_act (notLid p List.mem_cons_self) ?_)
        (ih (fun q inside => notLid q (List.mem_cons_of_mem p inside)) shut.2)
      rintro rfl holds
      have closed := shut.1
      simpa [opensLid, holds] using closed

theorem controlStep_timely (within : (lidOf c).Within opened)
    (limited : Along (Phase.act t)
      (fun p c => opensLid t p c = true → t.now ≤ opened ∧ c.cfg.lidPauseS ≤ lidAllowS)
      (phases t) c) :
    (lidOf (controlStep t c)).Within opened ∧
      ((controlStep t c).lidOpen = true → t.now ≤ opened + lidAllowS) := by
  have after : (lidOf (controlStep t c)).Within opened := by
    rw [controlStep_eq_run]
    exact run_within within limited
  refine ⟨after, fun stands => ?_⟩
  rw [phases_eq_lid, along_append] at limited
  have before := run_within within limited.1
  have settles : controlStep t c = run (Phase.act t) settledPhases
      (watchLid t (run (Phase.act t) (drainPhases t ++ cookPhases ++ [.supervise]) c)) := by
    rw [controlStep_eq_run, phases_eq_lid, run_append]
    rfl
  generalize run (Phase.act t) (drainPhases t ++ cookPhases ++ [.supervise]) c = found
    at before settles
  have settled : (lidOf (watchLid t found)).Kept (lidOf (controlStep t c)) := by
    rw [settles]
    apply kept_run
    · simp [settledPhases]
    · refine along_of_forall (fun p inside c => ?_) _
      simp only [settledPhases, List.mem_cons, List.not_mem_nil, or_false] at inside
      rcases inside with rfl | rfl | rfl | rfl | rfl | rfl | rfl <;> rfl
  obtain ⟨looked, -⟩ := settled.isOpen stands
  have running : found.mode.isRunning = true := by
    by_contra idle
    rw [watchLid, if_neg idle] at looked
    exact idle (before.isOpen looked).1
  have timely := watchLid_timely (t := t) running looked
  have until_ : (controlStep t c).lidOpenUntil = (watchLid t found).lidOpenUntil :=
    settled.openUntil
  rw [← until_] at timely
  exact timely.trans (after.isOpen stands).2

theorem kept_beforeSupervision (shut : OpensNoLid t c) :
    (lidOf c).Kept (lidOf (beforeSupervision t c)) := by
  rw [beforeSupervision, ← run_append]
  rw [OpensNoLid, phases, ← List.append_assoc, along_append] at shut
  apply kept_run _ shut.1
  intro p inside
  rintro rfl
  simp [drainPhases, cookPhases] at inside

theorem excuses_run {later : List Tick} (within : (lidOf c).Within opened)
    (timely : c.lidOpen = true → c.lastStep ≤ opened + lidAllowS)
    (rising : (c.lastStep :: later.map Tick.now).IsChain (· ≤ ·))
    (shut : Along controlStep OpensNoLid later c) :
    Along controlStep (fun t c => c.lastStep > opened + lidAllowS →
      lidExcuses t (beforeSupervision t c) = false) later c := by
  induction later generalizing c with
  | nil => trivial
  | cons t later ih =>
      rw [List.map_cons, List.isChain_cons_cons] at rising
      have stepped := controlStep_timely within (shut.1.mono fun _ _ _ closed opens => by
        rw [closed] at opens
        cases opens)
      refine ⟨fun late => ?_, ih stepped.1 stepped.2 rising.2 shut.2⟩
      have kept := kept_beforeSupervision shut.1
      simp only [lidExcuses, Bool.or_eq_false_iff, Bool.and_eq_false_iff, decide_eq_false_iff_not,
        not_lt]
      constructor
      · refine Bool.eq_false_iff.mpr fun stands => ?_
        exact absurd (timely (kept.isOpen stands).1) (not_le.mpr late)
      · by_cases stands : (beforeSupervision t c).lidEvent = true
        · right
          have stood : c.lidEvent = true := kept.event.symm.trans stands
          have since : c.lidEventT ≤ opened := within.event stood
          have same : (beforeSupervision t c).lidEventT = c.lidEventT := kept.eventT
          rw [same]
          linarith [rising.1]
        · exact Or.inl (Bool.eq_false_iff.mpr stands)

end Bound

/-! ## A bench in Hold -/

/-- The bench with these settings, handed over to Hold by hand. -/
def benchHolding (settings : Json) : Control :=
  run controlStep
    [benchTick [] 1 (some 107) [.mode .startup 0 false],
      benchTick [] 2 (some 107) [.mode .hold 225 true]]
    (controlInit settings some)

theorem reachable_benchHolding (settings : Json) : Reachable 2 (benchHolding settings) :=
  ((Reachable.init settings some).move
    (.step (benchTick [] 1 (some 107) [.mode .startup 0 false])) (by decide)
    (by decide)).move (.step (benchTick [] 2 (some 107) [.mode .hold 225 true]))
    (by decide) (by decide)

theorem controlStep_cfg {t : Tick} {c : Control}
    (plain : ∀ cmd ∈ t.cmds, cmdCfg t c.cfg cmd = c.cfg) : (controlStep t c).cfg = c.cfg := by
  refine controlStep_preserves (fun p _ => ∀ cmd, p = .command cmd → cmd ∈ t.cmds)
    (fun after => after.cfg = c.cfg) ?_ rfl (along_of_forall ?_ c)
  · intro p after same given
    by_cases isCommand : ∃ cmd, p = .command cmd
    · obtain ⟨cmd, rfl⟩ := isCommand
      rw [Phase.act, handleCmd_cfg, same]
      exact plain cmd (given cmd rfl)
    · rw [act_cfg t p after fun cmd named => isCommand ⟨cmd, named⟩]
      exact same
  · rintro p inside - cmd rfl
    simpa [phases, drainPhases, cookPhases, closePhases] using inside

theorem benchHolding_cfg (settings : Json) :
    (benchHolding settings).cfg = loadCfg { augerontime := 0, pMode := 0 } settings := by
  rw [benchHolding, run_cons, run_cons, run_nil, controlStep_cfg, controlStep_cfg]
  · rfl
  · intro cmd inside
    obtain rfl := List.mem_singleton.mp inside
    rfl
  · intro cmd inside
    obtain rfl := List.mem_singleton.mp inside
    rfl

/-- Settings with a pause of an hour. -/
def hourPause : Json := .obj [("cycle_data", .obj [("LidOpenPauseTime", .num 3600)])]

/-! ## One opening -/

/-- A lid that is opened in one step and not again, for a pause within the limit, excuses
the pit in no later step but those whose step before was within the limit. -/
theorem lid_excuses_within_limit (opening : Tick) {c : Control}
    (judged : lidExcuses opening c = false) (limited : PausesInLimit opening c)
    {later : List Tick} (rising : ((opening :: later).map Tick.now).IsChain (· ≤ ·))
    (once : Along controlStep OpensNoLid later (controlStep opening c)) :
    Along controlStep (fun t c => c.lastStep > opening.now + lidAllowS →
      lidExcuses t (beforeSupervision t c) = false) later (controlStep opening c) := by
  have shut : c.lidOpen = false ∧ (c.lidEvent = true → lidAllowS ≤ opening.now - c.lidEventT) := by
    simpa [lidExcuses] using judged
  have begun : (lidOf c).Within opening.now := by
    refine ⟨fun opened => ?_, fun stands => ?_⟩
    · change c.lidOpen = true at opened
      rw [shut.1] at opened
      cases opened
    · have past := shut.2 stands
      change c.lidEventT ≤ opening.now
      simp only [lidAllowS] at past
      linarith
  obtain ⟨within, timely⟩ := controlStep_timely (t := opening) begun
    (Along.mono (fun _ _ _ limited opens => ⟨le_rfl, limited opens⟩) limited)
  exact excuses_run within timely rising once

/-- On the bench the lid is toggled at 10 and the pit falls: from the second step after
310 on nothing is excused. -/
theorem lid_excuses_within_limit_on_bench :
    Along controlStep (fun t c => c.lastStep > (10 : ℚ) + lidAllowS →
      lidExcuses t (beforeSupervision t c) = false)
      [benchTick [] 200 (some 100) [], benchTick [] 320 (some 95) [],
        benchTick [] 330 (some 94) []]
      (controlStep (benchTick [] 10 (some 107) [.lidToggle]) (benchHolding (.obj []))) :=
  lid_excuses_within_limit (benchTick [] 10 (some 107) [.lidToggle])
    (by decide +kernel) (by decide +kernel) (by decide +kernel) (by decide +kernel)

/-- Settings that are accepted pause for an hour: the lid excuses a pit that falls all the
while. -/
theorem lid_hides_dead_fire :
    ¬∀ settings : Json, Settings.Valid (Settings.Item.ofJson settings) →
      ∀ (time : ℚ) (c : Control), Reachable time c →
      c.cfg = loadCfg { augerontime := 0, pMode := 0 } settings →
      ∀ (opening : Tick) (later : List Tick),
      (∀ t ∈ opening :: later, t.settings = settings) → (∀ t ∈ later, t.cmds = []) →
      (time :: (opening :: later).map Tick.now).IsChain (· ≤ ·) → c.mode.isRunning = true →
      lidExcuses opening c = false → Along controlStep ModeStays (opening :: later) c →
      Along controlStep OpensNoLid later (controlStep opening c) →
      Along controlStep (fun t c => c.lastStep > opening.now + lidAllowS →
        lidExcuses t (beforeSupervision t c) = false) later (controlStep opening c) := by
  intro always
  have excused := always hourPause (by decide +kernel) 2 (benchHolding hourPause)
    (reachable_benchHolding hourPause) (benchHolding_cfg hourPause)
    { benchTick [] 10 (some 107) [.lidToggle] with settings := hourPause }
    [{ benchTick [] 320 (some 95) [] with settings := hourPause },
      { benchTick [] 330 (some 94) [] with settings := hourPause }]
    (by simp) (by simp [benchTick]) (by decide +kernel) (by decide +kernel) (by decide +kernel)
    (by decide +kernel) (by decide +kernel)
  exact absurd excused (by decide +kernel)

end PiFire
