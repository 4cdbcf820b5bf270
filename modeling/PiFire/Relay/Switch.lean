import PiFire.Relay.Entry
import PiFire.Relay.Still

/-!
# What a phase does to the core

A phase that enters a mode does nothing else to the core. The others are the
quiet ones, the ones that read the pit or the limits, and the few that switch a
relay by themselves: the hand, the lid, the auger cycle, the supervision and
the end of the fan in Error.
-/

namespace PiFire

/-- What a phase enters, if anything. -/
def phaseEntry (t : Tick) (p : Phase) (c : Control) : Option Entry :=
  match p with
  | .command cmd => cmdEntry t c cmd
  | .request => requestEntry c
  | .notify => notifyEntry t c
  | .recipe => recipeEntry t c
  | .supervise => superviseEntry t c
  | .timed => timedEntry t c
  | .input => inputEntry t c
  | _ => none

/-- The set point after a phase. -/
def phaseAim (t : Tick) (p : Phase) (c : Control) : ℚ :=
  match p with
  | .command cmd => cmdAim t c cmd
  | .request => requestAim c
  | .clampSp => (clampSetpoint c).setpointC
  | .notify => actionAim (tickNotify t c).pendingAction c
  | .recipe => recipeAim t c
  | .timed => timedAim c
  | _ => c.setpointC

/-- The request that waits after a phase. -/
def phaseReq (p : Phase) (c : Control) : Option Request :=
  match p with
  | .command cmd => cmdReq c cmd
  | .request => none
  | _ => c.req

/-- The core with the set point and the request a phase leaves. -/
def aimed (t : Tick) (p : Phase) (c : Control) : Relay :=
  { relayOf c with setpointC := phaseAim t p c, req := phaseReq p c }

/-- The phases that work on the course of the cook, or enter a mode. -/
def Phase.plans : Phase → Bool
  | command cmd => cmd.plans
  | read | supervise | lid | feed | fan | expire | checkpoint => false
  | _ => true

theorem passes_phase (t : Tick) (c : Control) {p : Phase} (plans : p.plans = true)
    (notError : p = .timed → c.mode ≠ .error) :
    Passes withoutCourse t (c.aiming (phaseAim t p c) (phaseReq p c)) (phaseEntry t p c)
      (p.act t c) := by
  cases p with
  | begin =>
      simp only [Phase.act, beginStep]
      split <;> exact .stays rfl
  | command cmd => exact passes_handleCmd t c plans
  | request => exact passes_applyRequest t c
  | idleHeat =>
      simp only [Phase.act, noticeIdleHeat]
      split <;> exact .stays rfl
  | clampSp =>
      simp only [Phase.act, phaseAim, clampSetpoint]
      split <;> exact .stays rfl
  | notify => exact passes_runNotify t c
  | recipe => exact passes_runRecipe t c
  | aftercare =>
      simp only [Phase.act, recipeAftercare]
      split <;> exact .stays rfl
  | timed => exact passes_timedTransition t c (notError rfl)
  | input => exact passes_shutdownInput t c
  | close => exact .stays rfl
  | read | supervise | lid | feed | fan | expire | checkpoint => cases plans

/-! ## Switching on the core -/

/-- A relay switched by hand. Switching the auger on begins its stamp again. -/
def Relay.byHand (now : ℚ) (o : Output) (on : Bool) (r : Relay) : Relay :=
  match o with
  | .auger => { r with auger := on, augerOnSince := if on then now else r.augerOnSince }
  | .igniter => { r with igniter := on }
  | _ => r

@[simp]
theorem Relay.byHand_mode (now : ℚ) (o : Output) (on : Bool) (r : Relay) :
    (r.byHand now o on).mode = r.mode := by
  cases o <;> rfl

/-- The auger at rest after the cap. -/
def Relay.rest (now : ℚ) (r : Relay) : Relay :=
  if now < r.augerRestUntil ∧ r.auger then { r with auger := false } else r

/-- The cap on the auger. -/
def Relay.cap (now : ℚ) (r : Relay) : Relay :=
  if r.auger ∧ now - r.augerOnSince > r.cfg.augerMaxOnS then
    { r with auger := false, augerRestUntil := now + augerRestS }
  else r

/-- The auger switched on by its cycle. -/
def Relay.feed (now : ℚ) (r : Relay) : Relay :=
  { r with auger := true, augerOnSince := now }

/-- The cap on the igniter, with its clock. -/
def Relay.capIgniter (now : ℚ) (r : Relay) : Relay :=
  if r.igniter then
    if r.igniterLockedOut then { r with igniter := false }
    else if r.igniterOnSince = 0 then { r with igniterOnSince := now }
    else if now - r.igniterOnSince > r.cfg.igniterMaxOnS then
      { r with igniter := false, igniterLockedOut := true }
    else r
  else { r with igniterOnSince := 0 }

theorem Relay.capIgniter_eq (now : ℚ) (r : Relay) :
    ∃ igniter since locked, r.capIgniter now =
      { r with igniter := igniter, igniterOnSince := since, igniterLockedOut := locked } := by
  unfold capIgniter
  repeat' split
  all_goals exact ⟨_, _, _, rfl⟩

theorem Relay.rest_cap_eq (now : ℚ) (r : Relay) :
    ∃ auger until_, (r.rest now).cap now = { r with auger := auger, augerRestUntil := until_ } := by
  unfold rest cap
  repeat' split
  all_goals exact ⟨_, _, rfl⟩

theorem Relay.byHand_eq (now : ℚ) (o : Output) (on : Bool) (r : Relay) :
    ∃ auger igniter since, r.byHand now o on =
      { r with auger := auger, igniter := igniter, augerOnSince := since } := by
  cases o
  all_goals exact ⟨_, _, _, rfl⟩

/-! ## The hand and the lid -/

section Direct

variable (t : Tick) (c : Control)

theorem relayOf_manualSwitch (until_ : ℚ) (o : Output) (on : Bool) :
    relayOf (manualSwitch t until_ o on c) = (relayOf c).byHand t.now o on := by
  have switched (blown : Control) (same : relayOf blown = relayOf c)
      (since : blown.augerOnSince = c.augerOnSince) :
      relayOf { setOutput o on blown with
          manualUntil := c.manualUntil.set o until_
          augerOnSince := if o = .auger ∧ on then t.now else c.augerOnSince } =
        (relayOf c).byHand t.now o on := by
    rw [← same]
    cases o with
    | auger =>
        simp only [Relay.byHand, true_and, ← since]
        rfl
    | igniter =>
        simp only [Relay.byHand, reduceCtorEq, false_and, if_false, ← since]
        rfl
    | power | fan =>
        simp only [Relay.byHand, reduceCtorEq, false_and, if_false, ← since]
        rfl
  unfold manualSwitch
  extract_lets blown
  have kept : relayOf blown = relayOf c := by
    unfold blown
    split <;> rfl
  exact switched blown kept (congrArg Relay.augerOnSince kept)

/-- The output a manual command names. -/
def namedOutput (str : String) : Option Output :=
  if str = "pwm" then none else Output.all.find? fun o => str == o.name

theorem relayOf_manualOutput (str : String) (on : Bool) (num : ℚ) :
    relayOf (manualOutput t str on num c) =
      match namedOutput str with
      | some o => if acceptsManual c then (relayOf c).byHand t.now o on else relayOf c
      | none => relayOf c := by
  unfold manualOutput namedOutput
  by_cases accepted : acceptsManual c = true
  · rw [if_pos accepted]
    simp only
    by_cases pwm : str = "pwm"
    · rw [if_pos pwm, if_pos pwm]
      rfl
    · rw [if_neg pwm, if_neg pwm]
      cases Output.all.find? fun o => str == o.name with
      | none => rfl
      | some o =>
          simp only [accepted, if_true]
          exact relayOf_manualSwitch t c _ o on
  · rw [if_neg accepted]
    simp only [accepted]
    split <;> rfl

theorem relayOf_lidToggle :
    relayOf (lidToggle t c) = relayOf c ∨
      relayOf (lidToggle t c) = { relayOf c with auger := false } := by
  rcases withoutPause_lidToggle t c with same | off
  · have kept := congrArg relayOf same
    exact Or.inl kept
  · have parked := congrArg relayOf off
    exact Or.inr parked

theorem relayOf_watchLid :
    relayOf (watchLid t c) = relayOf c ∨
      relayOf (watchLid t c) = { relayOf c with auger := false } := by
  rcases withoutPause_watchLid t c with same | off
  · have kept := congrArg relayOf same
    exact Or.inl kept
  · have parked := congrArg relayOf off
    exact Or.inr parked

end Direct

/-! ## The auger cycle -/

section Feed

variable (t : Tick) (c : Control)

theorem relayOf_nextCycle : relayOf (nextCycle t c) = relayOf c := by
  have same := congrArg relayOf (withoutAsking_nextCycle t c)
  exact same

theorem relayOf_followCycle :
    relayOf (followCycle t c) = relayOf c ∨
      relayOf (followCycle t c) = { relayOf c with auger := false } ∨
      relayOf (followCycle t c) = (relayOf c).feed t.now ∧ c.outputs.auger = false := by
  simp only [followCycle]
  split
  · split
    · next wanted => exact Or.inr (Or.inr ⟨rfl, wanted.2.1⟩)
    · split
      · exact Or.inr (Or.inl rfl)
      · exact Or.inl rfl
  · exact Or.inl rfl

theorem relayOf_driveCycle :
    relayOf (driveCycle t c) = relayOf c ∨
      relayOf (driveCycle t c) = { relayOf c with auger := false } ∨
      relayOf (driveCycle t c) = (relayOf c).feed t.now ∧
        c.outputs.auger = false ∧ cycleRuns c := by
  unfold driveCycle
  split
  · next runs =>
      have same := relayOf_nextCycle t c
      have parked : (nextCycle t c).outputs.auger = c.outputs.auger :=
        congrArg Relay.auger same
      have followed := relayOf_followCycle t (nextCycle t c)
      rw [same, parked] at followed
      rcases followed with kept | off | ⟨on, wasOff⟩
      · exact Or.inl kept
      · exact Or.inr (Or.inl off)
      · exact Or.inr (Or.inr ⟨on, wasOff, runs⟩)
  · unfold parkAuger
    split
    · exact Or.inr (Or.inl rfl)
    · exact Or.inl rfl

theorem relayOf_restAuger : relayOf (restAuger t c) = (relayOf c).rest t.now := by
  rw [restAuger, apply_ite relayOf]
  rfl

theorem relayOf_capAuger : relayOf (capAuger t c) = (relayOf c).cap t.now := by
  rw [capAuger, apply_ite relayOf]
  rfl

theorem relayOf_feedAuger :
    relayOf (feedAuger t c) = ((relayOf (driveCycle t c)).rest t.now).cap t.now := by
  rw [feedAuger, relayOf_capAuger, relayOf_restAuger]

theorem relayOf_runFan : relayOf (runFan t c) = relayOf c := by
  have same := congrArg relayOf (withoutFan_runFan t c)
  exact same

end Feed

/-! ## The supervision -/

/-- A judgement on the core `r`: it may switch the two relays, and when it asks
for no change of mode it keeps the auger and switches the igniter on only in
Smoke or Hold, and not against the lock. -/
def Judged (r : Relay) (judged : Control × Action) : Prop :=
  ∃ auger igniter, relayOf judged.1 = { r with auger := auger, igniter := igniter } ∧
    (judged.2 = .none → auger = r.auger ∧
      (igniter = true → r.igniter = true ∨ r.igniterLockedOut = false ∧ r.mode.isRunning))

/-- What is left without what the supervision remembers of the light and the fire. -/
def withoutSigns (c : Control) : Control :=
  { c with
    safety := { safetyReset c.safety.reigniteRetriesLeft with
      reigniteLast := c.safety.reigniteLast, igniterOnSince := c.safety.igniterOnSince
      igniterLockedOut := c.safety.igniterLockedOut, ctrlFaultCount := c.safety.ctrlFaultCount
      errorFanUntil := c.safety.errorFanUntil, errorPitC := c.safety.errorPitC
      stopOvertempSaid := c.safety.stopOvertempSaid } }

/-- The state with the two relays that make heat switched so. -/
def Control.heated (auger igniter : Bool) (c : Control) : Control :=
  { c with outputs := { c.outputs with auger := auger, igniter := igniter } }

/-- The state as a relight takes a try from it. -/
def relighting (c : Control) : Control :=
  { c.heated c.outputs.auger false with
    safety := { c.safety with
      reigniteRetriesLeft := c.safety.reigniteRetriesLeft - 1, reigniteLast := c.mode } }

/-- What a judgement does: it goes on, and may drive the igniter, in Smoke or Hold and
not against the lock; it gives up; or it takes a try to relight. -/
inductive Judges (c : Control) : Control × Action → Prop where
  | calm {d : Control} (igniter : Bool)
      (same : withoutSigns d = withoutSigns (c.heated c.outputs.auger igniter))
      (lit : igniter = true →
        c.outputs.igniter = true ∨ c.safety.igniterLockedOut = false ∧ c.mode.isRunning) :
      Judges c (d, .none)
  | fails {d : Control} (auger igniter : Bool)
      (same : withoutSigns d = withoutSigns (c.heated auger igniter)) : Judges c (d, .error)
  | relights {d : Control} (same : withoutSigns d = withoutSigns (relighting c)) :
      Judges c (d, .reignite)

theorem Judges.after {c c' : Control} {judged : Control × Action} (judges : Judges c' judged)
    (same : withoutSigns c' = withoutSigns c) : Judges c judged := by
  have kept (auger igniter : Bool) :
      withoutSigns (c'.heated auger igniter) = withoutSigns (c.heated auger igniter) := by
    have switched := congrArg (Control.heated auger igniter) same
    exact switched
  have seen : (c'.outputs, c'.safety.igniterLockedOut, c'.mode) =
      (c.outputs, c.safety.igniterLockedOut, c.mode) := by
    have left := congrArg (fun c => (c.outputs, c.safety.igniterLockedOut, c.mode)) same
    exact left
  simp only [Prod.mk.injEq] at seen
  obtain ⟨outputs, locked, mode⟩ := seen
  cases judges with
  | calm igniter before lit =>
      rw [outputs, locked, mode] at lit
      rw [outputs] at before
      exact .calm igniter (before.trans (kept _ _)) lit
  | fails auger igniter before => exact .fails auger igniter (before.trans (kept _ _))
  | relights before =>
      have tried := congrArg relighting same
      exact .relights (before.trans tried)

theorem Judges.blind {β : Type} {c : Control} {judged : Control × Action}
    (judges : Judges c judged) (view : Control → β) (signs : ∀ c, view (withoutSigns c) = view c)
    (heat : ∀ auger igniter c, view (Control.heated auger igniter c) = view c)
    (tries : ∀ c, view (relighting c) = view c) : view judged.1 = view c := by
  have seen {a b : Control} (same : withoutSigns a = withoutSigns b) : view a = view b := by
    rw [← signs a, same, signs b]
  cases judges with
  | calm igniter same => exact (seen same).trans (heat _ _ _)
  | fails auger igniter same => exact (seen same).trans (heat _ _ _)
  | relights same => exact (seen same).trans (tries _)

theorem Judges.same {c d : Control} (same : withoutSigns d = withoutSigns c) :
    Judges c (d, .none) :=
  .calm c.outputs.igniter same Or.inl

section Supervise

variable (t : Tick) (c : Control)

theorem relayOf_capIgniter : relayOf (capIgniter t c) = (relayOf c).capIgniter t.now := by
  simp only [capIgniter, apply_ite relayOf]
  rfl

theorem judges_judgeProbe : Judges c (judgeProbe t c) := by
  unfold judgeProbe
  split_ifs
  · exact .same rfl
  · exact .fails c.outputs.auger c.outputs.igniter rfl
  · exact .same rfl

theorem judges_judgeLight : Judges c (judgeLight t c) := by
  have fails {d : Control} (same : withoutSigns d = withoutSigns c) (fault : Fault) :
      Judges c (setError fault (setOutput .igniter false (setOutput .auger false d)), .error) := by
    have off := congrArg (Control.heated false false) same
    exact .fails false false off
  unfold judgeLight
  extract_lets filt judged
  have same : withoutSigns judged = withoutSigns c := by
    unfold judged
    split_ifs <;> rfl
  split_ifs
  · exact fails same _
  · exact .same same

theorem judges_proveFire (running : c.mode.isRunning) : Judges c (proveFire t c, .none) := by
  unfold proveFire
  split_ifs with proves ended
  · exact .calm false rfl (by simp)
  · exact .calm true rfl fun _ => Or.inr ⟨by simpa using (not_or.mp ended).2, running⟩
  · exact .same rfl

theorem judges_flameout (fault : Fault) : Judges c (flameout fault c) := by
  simp only [flameout]
  split_ifs
  · exact .fails c.outputs.auger false rfl
  · exact .relights rfl

theorem judges_superviseFire (pit : ℚ) (running : c.mode.isRunning) :
    Judges c (superviseFire t pit c) := by
  have armed (c : Control) : withoutSigns (armCoast pit c) = withoutSigns c := rfl
  have held (c : Control) : withoutSigns (holdClimb t pit c) = withoutSigns c := rfl
  have peaked (c : Control) : withoutSigns (followPeak pit c) = withoutSigns c := rfl
  have noted (c : Control) : withoutSigns (noteHeat pit (timeFall t pit c)) = withoutSigns c := rfl
  have coasted (c : Control) : withoutSigns (endCoast t pit c) = withoutSigns c := by
    simp only [endCoast]
    split_ifs <;> rfl
  have climbed (c : Control) : withoutSigns (timeClimb t pit c) = withoutSigns c := by
    unfold timeClimb
    split_ifs <;> rfl
  have proved {d : Control} (same : withoutSigns d = withoutSigns c) :
      Judges c (proveFire t d, .none) := by
    have mode := congrArg Control.mode same
    have runs : d.mode.isRunning := by
      have kept : d.mode = c.mode := mode
      rwa [kept]
    exact (judges_proveFire t d runs).after same
  simp only [superviseFire]
  split_ifs
  · exact proved (by rw [coasted, held, armed])
  · exact (judges_flameout _ _).after ((peaked _).trans (armed c))
  · refine .fails false c.outputs.igniter ?_
    have off := congrArg (Control.heated false c.outputs.igniter)
      ((noted _).trans ((peaked _).trans (armed c)))
    exact off
  · exact proved (by rw [coasted, climbed, noted, peaked, armed])

theorem judges_judgeFiring (pit : ℚ) (firing : c.mode.isFiring) :
    Judges c (judgeFiring t pit c) := by
  unfold judgeFiring
  extract_lets filtered
  split_ifs with lighting
  · exact (judges_judgeLight t filtered).after rfl
  · exact .same rfl
  · have running : c.mode.isRunning := by
      cases mode : c.mode <;> simp_all [Mode.isFiring, Mode.isLighting, Mode.isRunning]
    exact (judges_superviseFire t filtered pit running).after rfl

theorem capIgniter_mode : (capIgniter t c).mode = c.mode := by
  have capped := congrArg Relay.mode (relayOf_capIgniter t c)
  simp only [Relay.capIgniter, apply_ite Relay.mode, ite_self] at capped
  exact capped

theorem judges_safetyTick (cool : overheated c = false) :
    Judges (capIgniter t c) (safetyTick t c) := by
  unfold safetyTick
  rw [if_neg (by simp [cool])]
  simp only
  split
  · next firing =>
      split
      · exact judges_judgeProbe t _
      · exact judges_judgeFiring t _ _ (capIgniter_mode t c ▸ firing)
  · exact .same rfl

theorem Judges.judged {c : Control} {judged : Control × Action} (judges : Judges c judged) :
    Judged (relayOf c) judged := by
  cases judges with
  | calm igniter same lit =>
      have core := congrArg relayOf same
      exact ⟨c.outputs.auger, igniter, core, fun _ => ⟨rfl, lit⟩⟩
  | fails auger igniter same =>
      have core := congrArg relayOf same
      exact ⟨auger, igniter, core, nofun⟩
  | relights same =>
      have core := congrArg relayOf same
      exact ⟨c.outputs.auger, false, core, nofun⟩

theorem judged_safetyTick (cool : overheated c = false) :
    Judged ((relayOf c).capIgniter t.now) (safetyTick t c) := by
  rw [← relayOf_capIgniter]
  exact (judges_safetyTick t c cool).judged

end Supervise

/-! ## The effect of a phase -/

section SuperviseEffect

variable (t : Tick) (c : Control)

theorem Relay.enter_switched (now : ℚ) (e : Entry) (r : Relay) (auger igniter : Bool) :
    ({ r with auger := auger, igniter := igniter } : Relay).enter now e = r.enter now e := rfl

theorem Relay.enter_capIgniter (now : ℚ) (e : Entry) (r : Relay) :
    (r.capIgniter now).enter now e = r.enter now e := by
  unfold capIgniter
  repeat' split
  all_goals rfl

theorem relayOf_supervise_entry {e : Entry} (entered : superviseEntry t c = some e) :
    relayOf (supervise t c) = (relayOf c).enter t.now e := by
  have judgedCore : (relayOf (safetyTick t c).1).enter t.now e = (relayOf c).enter t.now e := by
    by_cases hot : overheated c = true
    · rw [safetyTick, if_pos hot]
      rfl
    · obtain ⟨auger, igniter, judged, -⟩ := judged_safetyTick t c (by simpa using hot)
      rw [judged, Relay.enter_switched, Relay.enter_capIgniter]
  rw [← judgedCore]
  unfold superviseEntry at entered
  unfold supervise carryAction
  generalize (safetyTick t c).2 = action at entered ⊢
  cases action with
  | none => cases entered
  | error =>
      cases entered
      exact relayOf_enterMode_plain t .error _ (by decide)
  | reignite =>
      cases entered
      exact relayOf_enterMode_plain t .reignite _ (by decide)

theorem relayOf_supervise_quiet (quiet : superviseEntry t c = none) :
    ∃ igniter, relayOf (supervise t c) =
        { (relayOf c).capIgniter t.now with igniter := igniter } ∧
      (igniter = true → ((relayOf c).capIgniter t.now).igniter = true ∨
        ((relayOf c).capIgniter t.now).igniterLockedOut = false ∧ c.mode.isRunning) := by
  have calm : (safetyTick t c).2 = .none := by
    unfold superviseEntry at quiet
    split at quiet
    · assumption
    · cases quiet
    · cases quiet
  have cool : overheated c = false := by
    by_contra hot
    rw [safetyTick, if_pos (by simpa using hot)] at calm
    cases calm
  obtain ⟨auger, igniter, judged, kept⟩ := judged_safetyTick t c cool
  obtain ⟨sameAuger, lit⟩ := kept calm
  refine ⟨igniter, ?_, fun on => (lit on).imp_right fun proving => ?_⟩
  · rw [supervise, carryAction, calm, judged, sameAuger]
  · have capped := congrArg Relay.mode (relayOf_capIgniter t c)
    rw [relayOf_mode, capIgniter_mode] at capped
    exact ⟨proving.1, capped ▸ proving.2⟩

end SuperviseEffect

/-- The phases with an effect of their own: reading the pit and the two caps. -/
def Phase.isSpecial : Phase → Bool
  | .read | .supervise | .feed => true
  | _ => false

/-- The phases that act on the core as their entry and in no other way. -/
def Phase.follows : Phase → Bool
  | .command cmd => !cmd.isDirect
  | .read | .supervise | .lid | .feed | .timed => false
  | _ => true

/-- What a phase does to the core: with the set point and the request it leaves,
it enters a mode, reads the pit or the limits, moves a relay by hand, switches
relays off, caps the igniter, or feeds under the cap. -/
inductive Effect (t : Tick) : Phase → Control → Relay → Prop where
  | enter {p : Phase} {c : Control} {e : Entry} (entered : phaseEntry t p c = some e) :
      Effect t p c ((aimed t p c).enter t.now e)
  | read {c : Control} :
      Effect t .read c
        { relayOf c with
          pitC := t.sensors.pit.or c.pitC, pitValid := t.sensors.pit.isSome }
  | limits {cmd : Cmd} {c : Control} (loads : cmd = .settingsChanged ∨ cmd = .controllerChanged)
      (cfg : Cfg) :
      Effect t (.command cmd) c { relayOf c with cfg := cfg }
  | byHand {str : String} {on : Bool} {num : ℚ} {c : Control} {o : Output}
      (named : namedOutput str = some o) (accepted : acceptsManual c) :
      Effect t (.command (.manualOutput str on num)) c ((relayOf c).byHand t.now o on)
  | lower (p : Phase) {c : Control} (auger igniter : Bool) (plain : p.isSpecial = false)
      (stays : phaseEntry t p c = none)
      (augerLower : auger = true → c.outputs.auger = true)
      (igniterLower : igniter = true → c.outputs.igniter = true) :
      Effect t p c { aimed t p c with auger := auger, igniter := igniter }
  | judge {c : Control} {igniter : Bool} (quiet : superviseEntry t c = none)
      (lit : igniter = true → ((relayOf c).capIgniter t.now).igniter = true ∨
        ((relayOf c).capIgniter t.now).igniterLockedOut = false ∧ c.mode.isRunning) :
      Effect t .supervise c { (relayOf c).capIgniter t.now with igniter := igniter }
  | feed {c : Control} {driven : Relay}
      (drives : driven = relayOf c ∨ driven = { relayOf c with auger := false } ∨
        driven = (relayOf c).feed t.now ∧ c.outputs.auger = false ∧ cycleRuns c)
      (same : driven = relayOf (driveCycle t c)) :
      Effect t .feed c ((driven.rest t.now).cap t.now)

section EffectOfPhase

variable {t : Tick} {p : Phase} {c : Control}

theorem Effect.keep (p : Phase) (plain : p.isSpecial = false) (stays : phaseEntry t p c = none) :
    Effect t p c (aimed t p c) :=
  .lower p c.outputs.auger c.outputs.igniter plain stays id id

theorem Effect.enterIf (p : Phase) (plain : p.isSpecial = false) :
    Effect t p c ((aimed t p c).enterIf t.now (phaseEntry t p c)) := by
  cases entered : phaseEntry t p c with
  | none => exact .keep p plain entered
  | some e => exact .enter entered

variable (t p c)

theorem effect_handleCmd (cmd : Cmd) : Effect t (.command cmd) c (relayOf (handleCmd t c cmd)) := by
  by_cases direct : cmd.isDirect = true
  · cases cmd with
    | manualOutput str on num =>
        rw [handleCmd, relayOf_manualOutput]
        split
        · next o named =>
            split
            · next accepted => exact .byHand named accepted
            · exact .keep (.command (.manualOutput str on num)) rfl rfl
        · exact .keep (.command (.manualOutput str on num)) rfl rfl
    | lidToggle =>
        rw [handleCmd]
        rcases relayOf_lidToggle t c with same | off
        · rw [same]
          exact .keep (.command .lidToggle) rfl rfl
        · rw [off]
          exact .lower (.command .lidToggle) false c.outputs.igniter rfl rfl (by simp) id
    | settingsChanged =>
        rw [handleCmd, controlReloadSettings, apply_ite relayOf]
        have fitted : relayOf { reloadCfg t c with ccfg := cycleCfgFor (reloadCfg t c).cfg } =
            { relayOf c with cfg := (reloadCfg t c).cfg } := rfl
        have loaded (id : String) (c : Control) : relayOf (controllerLoad t id c) = relayOf c :=
          rfl
        simp only [loaded, fitted, ite_self]
        exact .limits (Or.inl rfl) _
    | controllerChanged => exact .limits (Or.inr rfl) (reloadCfg t c).cfg
    | _ => simp [Cmd.isDirect] at direct
  · rw [relayOf_handleCmd t c cmd (by simpa using direct)]
    exact .enterIf (.command cmd) rfl

theorem relayOf_follows {p : Phase} (follows : p.follows = true) :
    relayOf (p.act t c) = (aimed t p c).enterIf t.now (phaseEntry t p c) := by
  by_cases plans : p.plans = true
  · refine (passes_phase t c plans ?_).core
    rintro rfl
    cases follows
  · cases p with
    | command cmd => exact relayOf_handleCmd t c cmd (by simpa [Phase.follows] using follows)
    | fan => exact relayOf_runFan t c
    | expire =>
        simp only [Phase.act, expireManual]
        split <;> rfl
    | checkpoint => rfl
    | read | supervise | lid | feed => cases follows
    | _ => exact absurd rfl plans

theorem effect_act : Effect t p c (relayOf (p.act t c)) := by
  cases p with
  | command cmd => exact effect_handleCmd t c cmd
  | read =>
      have ambient (c : Control) : relayOf (readAmbient t c) = relayOf c := by
        unfold readAmbient
        split
        · rfl
        · simp only [apply_ite relayOf]
          exact ite_self _
      have read : relayOf (readSensors t c) =
          { relayOf c with
            pitC := t.sensors.pit.or c.pitC, pitValid := t.sensors.pit.isSome } := by
        simp only [readSensors, ambient]
        cases t.sensors.pit with
        | none => rfl
        | some pit => rfl
      rw [Phase.act, read]
      exact .read
  | supervise =>
      cases entered : superviseEntry t c with
      | some e =>
          rw [Phase.act, relayOf_supervise_entry t c entered]
          exact .enter entered
      | none =>
          obtain ⟨igniter, judged, lit⟩ := relayOf_supervise_quiet t c entered
          rw [Phase.act, judged]
          exact .judge entered lit
  | lid =>
      rcases relayOf_watchLid t c with same | off
      · rw [Phase.act, same]
        exact .keep .lid rfl rfl
      · rw [Phase.act, off]
        exact .lower .lid false c.outputs.igniter rfl rfl (by simp) id
  | feed =>
      rw [Phase.act, relayOf_feedAuger]
      exact .feed (relayOf_driveCycle t c) rfl
  | timed =>
      by_cases faulted : c.mode = .error
      · have stays : timedEntry t c = none := by rw [timedEntry, faulted]
        have still : aimed t .timed c = relayOf c := by
          have aim : timedAim c = c.setpointC := by simp [timedAim, faulted, Mode.isLighting]
          simp only [aimed, phaseAim, aim]
          rfl
        rw [Phase.act, relayOf_timedTransition_error t c faulted]
        rcases relayOf_errorFan t c with same | dark
        · rw [same, ← still]
          exact .keep .timed rfl stays
        · rw [dark, ← still]
          exact .lower .timed false false rfl stays (by simp) (by simp)
      · have moved := (passes_phase t c (p := Phase.timed) rfl fun _ => faulted).core
        rw [moved]
        exact .enterIf .timed rfl
  | begin | request | idleHeat | clampSp | notify | recipe | aftercare | fan | expire | input
    | checkpoint | close =>
      rw [relayOf_follows t c rfl]
      exact .enterIf _ rfl

theorem act_core :
    ((p.act t c).mode = ((phaseEntry t p c).map Entry.mode).getD c.mode) ∧
      (p.act t c).req = phaseReq p c ∧ (p.act t c).setpointC = phaseAim t p c := by
  have moved := effect_act t p c
  change (relayOf (p.act t c)).mode = _ ∧ (relayOf (p.act t c)).req = _ ∧
    (relayOf (p.act t c)).setpointC = _
  generalize relayOf (p.act t c) = r at moved
  cases moved with
  | enter entered =>
      rw [entered]
      exact ⟨rfl, rfl, rfl⟩
  | read => exact ⟨rfl, rfl, rfl⟩
  | limits loads =>
      rcases loads with rfl | rfl
      all_goals exact ⟨rfl, rfl, rfl⟩
  | @byHand _ on _ _ o named accepted =>
      obtain ⟨auger, igniter, since, switched⟩ := Relay.byHand_eq t.now o on (relayOf c)
      rw [switched]
      exact ⟨rfl, rfl, rfl⟩
  | lower _ _ _ plain stays =>
      rw [stays]
      exact ⟨rfl, rfl, rfl⟩
  | judge quiet =>
      obtain ⟨igniter, since, locked, capped⟩ := Relay.capIgniter_eq t.now (relayOf c)
      rw [capped]
      simp only [phaseEntry, quiet]
      exact ⟨rfl, rfl, rfl⟩
  | @feed _ driven drives =>
      obtain ⟨auger, until_, capped⟩ := Relay.rest_cap_eq t.now driven
      rw [capped]
      rcases drives with rfl | rfl | ⟨rfl, -⟩
      all_goals exact ⟨rfl, rfl, rfl⟩

theorem act_mode : (p.act t c).mode = ((phaseEntry t p c).map Entry.mode).getD c.mode :=
  (act_core t p c).1

theorem act_req : (p.act t c).req = phaseReq p c := (act_core t p c).2.1

theorem act_setpointC : (p.act t c).setpointC = phaseAim t p c := (act_core t p c).2.2

theorem act_cfg (notCommand : ∀ cmd, p ≠ .command cmd) : (p.act t c).cfg = c.cfg := by
  have moved := effect_act t p c
  change (relayOf (p.act t c)).cfg = _
  generalize relayOf (p.act t c) = r at moved
  cases moved with
  | enter => rfl
  | read => rfl
  | limits => exact absurd rfl (notCommand _)
  | byHand => exact absurd rfl (notCommand _)
  | lower => rfl
  | judge =>
      obtain ⟨igniter, since, locked, capped⟩ := Relay.capIgniter_eq t.now (relayOf c)
      rw [capped]
      rfl
  | @feed _ driven drives =>
      obtain ⟨auger, until_, capped⟩ := Relay.rest_cap_eq t.now driven
      rw [capped]
      rcases drives with rfl | rfl | ⟨rfl, -⟩
      all_goals rfl

theorem act_validPit (notRead : p ≠ .read) : (p.act t c).validPit = c.validPit := by
  have moved := effect_act t p c
  have pit (c : Control) (r : Relay) (pitC : r.pitC = c.pitC) (valid : r.pitValid = c.pitValid)
      (same : relayOf (p.act t c) = r) : (p.act t c).validPit = c.validPit := by
    have readPit : (p.act t c).pitC = r.pitC := congrArg Relay.pitC same
    have readValid : (p.act t c).pitValid = r.pitValid := congrArg Relay.pitValid same
    rw [Control.validPit, Control.validPit, readPit, readValid, pitC, valid]
  generalize core : relayOf (p.act t c) = r at moved
  apply pit c r _ _ core
  all_goals cases moved with
  | enter => rfl
  | read => exact absurd rfl notRead
  | limits => rfl
  | @byHand _ on _ _ o =>
      obtain ⟨auger, igniter, since, switched⟩ := Relay.byHand_eq t.now o on (relayOf c)
      rw [switched]
      rfl
  | lower => rfl
  | judge =>
      obtain ⟨igniter, since, locked, capped⟩ := Relay.capIgniter_eq t.now (relayOf c)
      rw [capped]
      rfl
  | @feed _ driven drives =>
      obtain ⟨auger, until_, capped⟩ := Relay.rest_cap_eq t.now driven
      rw [capped]
      rcases drives with rfl | rfl | ⟨rfl, -⟩
      all_goals rfl

theorem readSensors_validPit : (readSensors t c).validPit = t.sensors.pit := by
  have moved := effect_act t .read c
  generalize core : relayOf (Phase.act t .read c) = r at moved
  have readPit : (readSensors t c).pitC = r.pitC := congrArg Relay.pitC core
  have readValid : (readSensors t c).pitValid = r.pitValid := congrArg Relay.pitValid core
  rw [Control.validPit, readPit, readValid]
  cases moved with
  | enter entered => cases entered
  | read => cases t.sensors.pit <;> rfl
  | lower _ _ _ plain => cases plain

end EffectOfPhase

end PiFire
