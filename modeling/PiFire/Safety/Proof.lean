import PiFire.Safety.Light
import PiFire.Safety.Verdict
import PiFire.Transition.Timed

/-!
# The proof of fire

A light is proven by a rise of the pit that holds, or by a hot pit that stops
falling. The supervision keeps a running minimum and two stamps of the readings
it has seen. Here a run keeps the readings themselves, and what the supervision
concludes is compared with them.
-/

namespace PiFire

open Transition

/-! ## The log of a light -/

/-- A valid tick of a light, as it was judged. -/
structure Sample where
  time : ℚ
  /-- The filtered pit. -/
  filt : ℚ
  proveRise : ℚ
  /-- The outdoor air. -/
  air : ℚ

/-- What a light has shown so far, its newest sample first. -/
structure LightLog where
  begun : ℚ
  /-- The pit it began with, when that could be read. -/
  entry : Option ℚ
  /-- The longest prove time in force since it began. -/
  proveS : ℚ
  samples : List Sample

/-- The lowest filtered pit of a light that began with `entry`. -/
def lowSoFar (entry : Option ℚ) : List Sample → Option ℚ
  | [] => entry
  | s :: earlier => some ((lowSoFar entry earlier).elim s.filt (min s.filt))

/-- The newest filtered pit. -/
def LightLog.filt (log : LightLog) : Option ℚ :=
  (log.samples.head?.map Sample.filt).or log.entry

/-- A sample at least the proving rise over the lowest so far. -/
def Risen (entry : Option ℚ) (s : Sample) (earlier : List Sample) : Prop :=
  ∃ low, lowSoFar entry (s :: earlier) = some low ∧ low + s.proveRise ≤ s.filt

/-- A sample that has not slipped under `flat`. -/
def NotSlipped (flat : ℚ) (s : Sample) (_ : List Sample) : Prop :=
  flat - hotSlipC ≤ s.filt

/-- The rise held for its time, at `proof`, and the pit stands a further
`exitRise` over the lowest reading up to then. -/
def ProvenByRise (exitRise : ℚ) (log : LightLog) : Prop :=
  ∃ later newest earlier since low pit,
    log.samples = later ++ newest :: earlier ∧
    HeldSince Sample.time (Risen log.entry) since (newest :: earlier) ∧
    proveHoldS ≤ newest.time - since ∧
    lowSoFar log.entry (newest :: earlier) = some low ∧
    log.filt = some pit ∧ low + exitRise ≤ pit

/-- A pit far above the air stopped falling for its time. -/
def ProvenByHold (log : LightLog) : Prop :=
  ∃ later newest earlier since flat,
    log.samples = later ++ newest :: earlier ∧
    HeldSince Sample.time (NotSlipped flat) since (newest :: earlier) ∧
    hotFlatS ≤ newest.time - since ∧
    hotDeltaC ≤ newest.filt - newest.air

/-- The log of a light that begins now. -/
def beginLog (t : Tick) (c : Control) : LightLog :=
  { begun := t.now, entry := c.validPit, proveS := c.cfg.ssProveS, samples := [] }

/-- The sample of a tick at which the pit reads `pit`. -/
def sampleNow (t : Tick) (pit : ℚ) (c : Control) : Sample :=
  { time := t.now
    filt := filterStep (stepTime t c) proveFilterS c.safety.filtC pit
    proveRise := c.cfg.ssProveRiseC
    air := ambientOr20 c }

/-- The log with one more sample. -/
def LightLog.push (s : Sample) (log : LightLog) : LightLog :=
  { log with samples := s :: log.samples }

/-- The log after a tick of a light: a valid one adds its sample. -/
def observe (t : Tick) (c : Control) (log : LightLog) : LightLog :=
  match c.validPit with
  | none => log
  | some pit => log.push (sampleNow t pit c)

/-- The log after a phase. A light that is entered begins one; any other mode
that is entered ends it. -/
def phaseLog (t : Tick) (p : Phase) (c : Control) (log : Option LightLog) : Option LightLog :=
  match phaseEntry t p c, p with
  | some e, _ => if e.mode.isLighting then some (beginLog t c) else none
  | none, .supervise => log.map (observe t c)
  | none, _ => log

/-- The prove time now in force. -/
def LightLog.allow (proveS : ℚ) (log : LightLog) : LightLog :=
  { log with proveS := max log.proveS proveS }

/-- One phase, with the log. -/
def logPhase (t : Tick) (p : Phase) (s : Control × Option LightLog) :
    Control × Option LightLog :=
  let c := p.act t s.1
  (c, (phaseLog t p s.1 s.2).map (LightLog.allow c.cfg.ssProveS))

/-- The log after a move other than a step. A light that a warm restart takes
over began in an earlier run. -/
def moveLog (m : Move) (c : Control) (log : Option LightLog) : Option LightLog :=
  match m with
  | .resume t o => if (resumedMode t o c).isSome then none else log
  | .recover b o =>
      match recoverEntry b o c with
      | none => log
      | some e => if e.mode.isLighting then some (beginLog b.tick c) else none
  | .bootCheck _ resuming => if (bootEntry resuming c).isSome then none else log
  | _ => log

/-- One move, with the log. -/
def logMove (m : Move) (s : Control × Option LightLog) : Control × Option LightLog :=
  match m with
  | .step t => run (logPhase t) (phases t) s
  | m => (m.act s.1, (moveLog m s.1 s.2).map (LightLog.allow (m.act s.1).cfg.ssProveS))

/-! ## What is claimed of a light -/

/-- A phase that takes a Startup to Smoke or Hold is the user's own hand-over, or
finds the light proven. -/
def ProvenFirst (t : Tick) (p : Phase) (s : Control × Option LightLog) : Prop :=
  ∀ log, s.2 = some log → s.1.mode = .startup → (p.act t s.1).mode.isRunning →
    (∃ m num, p = .command (.mode m num true)) ∨
      ProvenByRise s.1.cfg.ssExitRiseC log ∨ ProvenByHold log

/-- No light outlasts twice the prove time at a valid reading. -/
def EndsInTime (t : Tick) (s : Control × Option LightLog) : Prop :=
  ∀ log ∈ s.2, s.1.mode.isLighting → s.1.validPit.isSome →
    t.now ≤ log.begun + 2 * log.proveS

/-- Every hand-over of a move is proven first. -/
def MoveProvenFirst (m : Move) (s : Control × Option LightLog) : Prop :=
  match m with
  | .step t => Along (logPhase t) (ProvenFirst t) (phases t) s
  | _ => True

/-- A step ends its lights in time. -/
def MoveEndsInTime (m : Move) (s : Control × Option LightLog) : Prop :=
  match m with
  | .step t => EndsInTime t (logMove m s)
  | _ => True

instance (t : Tick) (s : Control × Option LightLog) : Decidable (EndsInTime t s) :=
  inferInstanceAs (Decidable (∀ log ∈ s.2, _ → _ → _))

instance (m : Move) (s : Control × Option LightLog) : Decidable (MoveEndsInTime m s) :=
  match m with
  | .step t => inferInstanceAs (Decidable (EndsInTime t _))
  | .reload _ | .resume _ _ | .recover _ _ | .bootCheck _ _ => isTrue trivial

/-- A supervision that finds the rise proven only after the light's time. -/
def provenLate (t : Tick) (p : Phase) (c : Control) : Bool :=
  match p, c.validPit with
  | .supervise, some pit =>
      let filt := (sampleNow t pit c).filt
      c.mode.isLighting && !c.safety.ssProven && c.safety.ssDeadline < t.now &&
        c.safety.ssAboveSince != 0 && proveHoldS ≤ t.now - c.safety.ssAboveSince &&
        lowest c.safety.ssBaselineC filt + c.cfg.ssProveRiseC ≤ filt
  | _, _ => false

/-- No supervision of a move proves a rise late. -/
def MoveProvesInTime (m : Move) (s : Control × Option LightLog) : Prop :=
  match m with
  | .step t => Along (logPhase t) (fun p s => provenLate t p s.1 = false) (phases t) s
  | _ => True

instance (m : Move) (s : Control × Option LightLog) : Decidable (MoveProvesInTime m s) :=
  match m with
  | .step t =>
      inferInstanceAs
        (Decidable (Along (logPhase t) (fun p s => provenLate t p s.1 = false) (phases t) s))
  | .reload _ | .resume _ _ | .recover _ _ | .bootCheck _ _ => isTrue trivial

/-! ## What the supervision remembers of the log -/

/-- A light not yet proven: the running minimum and the two stamps. -/
structure Proving (log : LightLog) (s : Safety) : Prop where
  low : s.ssBaselineC = lowSoFar log.entry log.samples
  above : Stamps (· = 0) Sample.time (Risen log.entry) s.ssAboveSince log.samples
  flat : Stamps (· = 0) Sample.time (NotSlipped s.ssFlatC) s.ssFlatT log.samples
  notHeld : s.ssHeld = false

/-- A light proven by a rise that held, with its minimum at the time. -/
def RiseHeld (log : LightLog) (s : Safety) : Prop :=
  ∃ later newest earlier since,
    log.samples = later ++ newest :: earlier ∧
    HeldSince Sample.time (Risen log.entry) since (newest :: earlier) ∧
    proveHoldS ≤ newest.time - since ∧
    s.ssBaselineC = lowSoFar log.entry (newest :: earlier)

/-- What is remembered of a light is what its log shows. -/
structure Tracks (log : LightLog) (s : Safety) : Prop where
  active : s.ssActive = true
  filt : s.filtC = log.filt
  proving : s.ssProven = false → Proving log s
  held : s.ssProven = true → s.ssHeld = true → ProvenByHold log
  risen : s.ssProven = true → s.ssHeld = false → RiseHeld log s

section Log

variable {log : LightLog} {s s' : Safety} {sample : Sample}

theorem Tracks.watched (tracks : Tracks log s) : Tracks log s.watched :=
  ⟨tracks.active, tracks.filt,
    fun not => ⟨(tracks.proving not).low, (tracks.proving not).above, (tracks.proving not).flat,
      (tracks.proving not).notHeld⟩,
    tracks.held, tracks.risen⟩

theorem Tracks.of_watched (tracks : Tracks log s.watched) : Tracks log s :=
  ⟨tracks.active, tracks.filt,
    fun not => ⟨(tracks.proving not).low, (tracks.proving not).above, (tracks.proving not).flat,
      (tracks.proving not).notHeld⟩,
    tracks.held, tracks.risen⟩

theorem Tracks.congr (tracks : Tracks log s) (same : s'.watched = s.watched) : Tracks log s' :=
  .of_watched (same ▸ tracks.watched)

theorem Tracks.allow (proveS : ℚ) (tracks : Tracks log s) : Tracks (log.allow proveS) s :=
  ⟨tracks.active, tracks.filt,
    fun not => ⟨(tracks.proving not).low, (tracks.proving not).above, (tracks.proving not).flat,
      (tracks.proving not).notHeld⟩,
    tracks.held, tracks.risen⟩

theorem ProvenByHold.push (held : ProvenByHold log) : ProvenByHold (log.push sample) := by
  obtain ⟨later, newest, earlier, since, flat, split, proof⟩ := held
  exact ⟨sample :: later, newest, earlier, since, flat, congrArg (sample :: ·) split, proof⟩

theorem RiseHeld.push (baseline : s'.ssBaselineC = s.ssBaselineC) (held : RiseHeld log s) :
    RiseHeld (log.push sample) s' := by
  obtain ⟨later, newest, earlier, since, split, proof, time, low⟩ := held
  exact ⟨sample :: later, newest, earlier, since, congrArg (sample :: ·) split, proof, time,
    baseline.trans low⟩

theorem Tracks.done {c : Control} (tracks : Tracks log c.safety) (done : startupDone c = true) :
    ProvenByRise c.cfg.ssExitRiseC log ∨ ProvenByHold log := by
  simp only [startupDone, Bool.and_eq_true, Bool.or_eq_true] at done
  obtain ⟨⟨-, proven⟩, exit⟩ := done
  cases hot : c.safety.ssHeld with
  | true => exact Or.inr (tracks.held proven hot)
  | false =>
      left
      obtain ⟨later, newest, earlier, since, split, proof, time, low⟩ := tracks.risen proven hot
      rw [hot] at exit
      simp only [Bool.false_eq_true, false_or] at exit
      split at exit
      · next pit base filtered baseline =>
          refine ⟨later, newest, earlier, since, base, pit, split, proof, time, ?_, ?_, ?_⟩
          · rw [← low, baseline]
          · rw [← tracks.filt, filtered]
          · simpa using exit
      · cases exit

end Log

/-! ## One judgement of a light -/

theorem lowest_eq (baseline : Option ℚ) (filt : ℚ) :
    lowest baseline filt = baseline.elim filt (min filt) := by
  cases baseline with
  | none => rfl
  | some low =>
      simp only [lowest, Option.elim_some]
      split
      · next below => exact (min_eq_left below.le).symm
      · next above => exact (min_eq_right (not_lt.mp above)).symm

section Judgement

variable {t : Tick} {c : Control} {pit : ℚ} {log : LightLog}

theorem tracks_proveByRise (proving : Proving log c.safety) (unproven : c.safety.ssProven = false)
    (sample : Sample) (now : sample.time = t.now) (rise : sample.proveRise = c.cfg.ssProveRiseC) :
    let judged := (proveByRise t sample.filt c).safety
    judged.ssBaselineC = lowSoFar log.entry (sample :: log.samples) ∧
      Stamps (· = 0) Sample.time (Risen log.entry) judged.ssAboveSince (sample :: log.samples) ∧
      (judged.ssProven = true → RiseHeld (log.push sample) judged) := by
  intro judged
  have low : judged.ssBaselineC = lowSoFar log.entry (sample :: log.samples) := by
    change some (lowest c.safety.ssBaselineC sample.filt) = _
    rw [lowest_eq, proving.low]
    rfl
  have here (risen : sample.filt ≥ lowest c.safety.ssBaselineC sample.filt + c.cfg.ssProveRiseC) :
      Risen log.entry sample log.samples := by
    refine ⟨lowest c.safety.ssBaselineC sample.filt, low.symm, ?_⟩
    rw [rise]
    exact risen
  have above : Stamps (· = 0) Sample.time (Risen log.entry) judged.ssAboveSince
      (sample :: log.samples) := by
    have stamped := proving.above.sample rfl here
    rw [now] at stamped
    exact stamped
  refine ⟨low, above, ?_⟩
  intro proven
  have held : sample.filt ≥ lowest c.safety.ssBaselineC sample.filt + c.cfg.ssProveRiseC ∧
      c.safety.ssAboveSince ≠ 0 ∧ t.now - c.safety.ssAboveSince ≥ proveHoldS := by
    by_contra notHeld
    have still : judged.ssProven = c.safety.ssProven := if_neg notHeld
    rw [still, unproven] at proven
    cases proven
  obtain ⟨risen, stamped, time⟩ := held
  refine ⟨[], sample, log.samples, c.safety.ssAboveSince, rfl, ?_, ?_, low⟩
  · exact .extend (proving.above stamped) (here risen)
  · rw [now]
    exact time

theorem tracks_proveByHold
    (flat : Stamps (· = 0) Sample.time (NotSlipped c.safety.ssFlatC) c.safety.ssFlatT log.samples)
    (sample : Sample) (now : sample.time = t.now) (air : sample.air = ambientOr20 c) :
    let judged := (proveByHold t sample.filt c).safety
    Stamps (· = 0) Sample.time (NotSlipped judged.ssFlatC) judged.ssFlatT
        (sample :: log.samples) ∧
      (judged.ssProven = true ∧ judged.ssHeld = true ∧ ProvenByHold (log.push sample) ∨
        judged.ssProven = c.safety.ssProven ∧ judged.ssHeld = c.safety.ssHeld) := by
  intro judged
  have since : HeldSince Sample.time (NotSlipped judged.ssFlatC) judged.ssFlatT
      (sample :: log.samples) := by
    by_cases slipped : sample.filt < c.safety.ssFlatC - hotSlipC ∨ c.safety.ssFlatT = 0
    · have from_ : judged.ssFlatC = sample.filt := if_pos slipped
      have begun : judged.ssFlatT = t.now := if_pos slipped
      rw [from_, begun]
      apply HeldSince.start _ now
      simp only [NotSlipped, hotSlipC]
      linarith
    · have from_ : judged.ssFlatC = c.safety.ssFlatC := if_neg slipped
      have begun : judged.ssFlatT = c.safety.ssFlatT := if_neg slipped
      rw [from_, begun]
      rw [not_or, not_lt] at slipped
      exact .extend (flat slipped.2) slipped.1
  refine ⟨fun _ => since, ?_⟩
  by_cases held : c.safety.ssProven = false ∧ sample.filt - ambientOr20 c ≥ hotDeltaC ∧
      t.now - judged.ssFlatT ≥ hotFlatS
  · refine Or.inl ⟨if_pos held, if_pos held, ?_⟩
    refine ⟨[], sample, log.samples, judged.ssFlatT, judged.ssFlatC, rfl, since, ?_, ?_⟩
    · rw [now]
      exact held.2.2
    · rw [air]
      exact held.2.1
  · exact Or.inr ⟨if_neg held, if_neg held⟩

theorem tracks_judgedLight (tracks : Tracks log c.safety) :
    Tracks (log.push (sampleNow t pit c)) (judgedLight t (filterPit t pit c)).safety := by
  have filtered : (filterPit t pit c).safety.filtC = some (sampleNow t pit c).filt := rfl
  unfold judgedLight
  rw [filtered, Option.getD_some]
  generalize keeps : sampleNow t pit c = sample
  have now : sample.time = t.now := by rw [← keeps]; rfl
  have rise : sample.proveRise = c.cfg.ssProveRiseC := by rw [← keeps]; rfl
  have air : sample.air = ambientOr20 c := by rw [← keeps]; rfl
  rw [keeps] at filtered
  cases proof : c.safety.ssProven with
  | true =>
      have proven : (filterPit t pit c).safety.ssProven = true := proof
      simp only [proven, if_true]
      refine ⟨tracks.active, filtered, ?_, ?_, ?_⟩
      · intro unproven
        rw [unproven] at proven
        cases proven
      · intro _ held
        exact (tracks.held proof held).push
      · intro _ notHeld
        exact (tracks.risen proof notHeld).push rfl
  | false =>
      have unproven : (filterPit t pit c).safety.ssProven = false := proof
      have proving : Proving log (filterPit t pit c).safety :=
        ⟨(tracks.proving proof).low, (tracks.proving proof).above, (tracks.proving proof).flat,
          (tracks.proving proof).notHeld⟩
      simp only [unproven, Bool.false_eq_true, if_false]
      obtain ⟨low, above, risen⟩ := tracks_proveByRise proving unproven sample now rise
      generalize ascent : proveByRise t sample.filt (filterPit t pit c) = ascended
        at low above risen ⊢
      have flat : Stamps (· = 0) Sample.time (NotSlipped ascended.safety.ssFlatC)
          ascended.safety.ssFlatT log.samples := by
        rw [← ascent]
        exact proving.flat
      have notHeld : ascended.safety.ssHeld = false := by
        rw [← ascent]
        exact proving.notHeld
      have outdoors : sample.air = ambientOr20 ascended := by
        rw [← ascent]
        exact air
      obtain ⟨stands, verdict⟩ := tracks_proveByHold flat sample now outdoors
      have active : (proveByHold t sample.filt ascended).safety.ssActive = true := by
        rw [← ascent]
        exact tracks.active
      have pitKept : (proveByHold t sample.filt ascended).safety.filtC = some sample.filt := by
        rw [← ascent]
        exact filtered
      rcases verdict with ⟨proven, hot, byHold⟩ | ⟨same, cold⟩
      · refine ⟨active, pitKept, ?_, fun _ _ => byHold, ?_⟩
        · intro still
          rw [proven] at still
          cases still
        · intro _ not
          rw [hot] at not
          cases not
      · rw [notHeld] at cold
        refine ⟨active, pitKept, fun _ => ⟨low, above, stands, cold⟩, ?_, ?_⟩
        · intro _ hot
          rw [cold] at hot
          cases hot
        · intro proven _
          rw [same] at proven
          exact risen proven

end Judgement

/-! ## The run of the log -/

/-- The log of a light is what is remembered of it, and the prove time in force
is one it allows. -/
structure Watches (s : Control × Option LightLog) : Prop where
  limits : 0 ≤ s.1.cfg.ssProveS
  lighting : ∀ log, s.2 = some log → s.1.mode.isLighting = true
  tracks : ∀ log, s.2 = some log → Tracks log s.1.safety
  allowed : ∀ log, s.2 = some log → s.1.cfg.ssProveS ≤ log.proveS

/-- A deadline within one prove time of the light, or two once it is proven. -/
def InTime (log : LightLog) (s : Safety) : Prop :=
  s.ssDeadline ≤ log.begun + (if s.ssProven then 2 * log.proveS else log.proveS)

/-- A light with a deadline in time. -/
def OnTime (s : Control × Option LightLog) : Prop :=
  ∀ log, s.2 = some log → InTime log s.1.safety

theorem proveS_nonneg (before : StartupProfile) (r : Json) : 0 ≤ (loadCfg before r).ssProveS := by
  change 0 ≤ clamp _ 60 igniterMaxS
  unfold clamp
  split_ifs
  all_goals norm_num [igniterMaxS]
  all_goals linarith

section Phases

variable {t : Tick} {p : Phase} {s : Control × Option LightLog} {c : Control} {log : LightLog}

theorem tracks_light {before : Watch} {now proveS : ℚ} {cfg : Cfg} {pit : Option ℚ} :
    Tracks { begun := now, entry := pit, proveS := proveS, samples := [] }
      (before.light now cfg pit).safety :=
  ⟨rfl, rfl, fun _ => ⟨rfl, .cleared rfl _, .cleared rfl _, rfl⟩,
    fun proven => absurd proven Bool.false_ne_true,
    fun proven => absurd proven Bool.false_ne_true⟩

theorem supervise_light (quiet : superviseEntry t c = none) (lighting : c.mode.isLighting = true)
    (active : c.safety.ssActive = true) :
    (c.validPit = none ∧
        ∃ since, (supervise t c).safety.watched =
          { c.safety.watched with primaryInvalidSince := since }) ∨
      ∃ pit c', c.validPit = some pit ∧ Capped c c' ∧
        supervise t c = judgedLight t (filterPit t pit c') ∧
        t.now ≤ (judgedLight t (filterPit t pit c')).safety.ssDeadline := by
  obtain ⟨calm, acted⟩ := superviseEntry_none quiet
  rw [acted]
  have verdict := verdict_safetyTick t c
  generalize safetyTick t c = judged at verdict calm
  cases verdict with
  | overheat => cases calm
  | blind capped firing unread =>
      left
      rw [← capped.watched]
      exact ⟨unread, watched_judgeProbe calm⟩
  | light capped lighting read active =>
      right
      obtain ⟨same, inTime⟩ := judgeLight_quiet calm
      exact ⟨_, _, read, capped, same, inTime⟩
  | unlit capped lighting read inactive =>
      rw [active] at inactive
      cases inactive
  | cook _ _ running =>
      cases mode : c.mode <;> simp_all [Mode.isLighting, Mode.isRunning]
  | idle _ _ notFiring =>
      cases mode : c.mode <;> simp_all [Mode.isLighting, Mode.isFiring]

theorem Tracks.unread (since : ℚ) {s : Safety} (tracks : Tracks log s) :
    Tracks log { s with primaryInvalidSince := since } :=
  ⟨tracks.active, tracks.filt,
    fun not => ⟨(tracks.proving not).low, (tracks.proving not).above, (tracks.proving not).flat,
      (tracks.proving not).notHeld⟩,
    tracks.held, tracks.risen⟩

theorem Capped.sampleNow {c' : Control} (capped : Capped c c') (t : Tick) (pit : ℚ) :
    sampleNow t pit c' = PiFire.sampleNow t pit c := by
  have filt := Safety.of_watched Safety.filtC (fun _ => rfl) capped.watched
  rw [PiFire.sampleNow, PiFire.sampleNow, filt]
  cases capped
  rfl

theorem tracks_supervise (quiet : superviseEntry t c = none) (lighting : c.mode.isLighting = true)
    (tracks : Tracks log c.safety) : Tracks (observe t c log) (supervise t c).safety := by
  rcases supervise_light quiet lighting tracks.active with
    ⟨unread, since, watched⟩ | ⟨pit, c', read, capped, acted, -⟩
  · rw [observe, unread]
    apply Tracks.of_watched
    rw [watched]
    exact tracks.watched.unread since
  · rw [observe, read, acted]
    simp only
    rw [← capped.sampleNow t pit]
    exact tracks_judgedLight (tracks.congr capped.watched)

theorem phaseLog_entry {e : Entry} (entered : phaseEntry t p c = some e)
    (log : Option LightLog) :
    phaseLog t p c log = if e.mode.isLighting then some (beginLog t c) else none := by
  unfold phaseLog
  rw [entered]

theorem phaseLog_supervise (quiet : superviseEntry t c = none) (log : Option LightLog) :
    phaseLog t .supervise c log = log.map (observe t c) := by
  have stays : phaseEntry t .supervise c = none := quiet
  unfold phaseLog
  rw [stays]

theorem phaseLog_quiet (quiet : phaseEntry t p c = none) (notSupervise : p ≠ .supervise)
    (log : Option LightLog) : phaseLog t p c log = log := by
  unfold phaseLog
  rw [quiet]
  cases p <;> first | rfl | exact absurd rfl notSupervise

theorem Watches.phase (t : Tick) (p : Phase) (watches : Watches s) :
    Watches (logPhase t p s) := by
  obtain ⟨c, log⟩ := s
  have limits := act_loaded (fun cfg => 0 ≤ cfg.ssProveS) proveS_nonneg t p watches.limits
  have tracked (log' : LightLog) (kept : phaseLog t p c log = some log') :
      (p.act t c).mode.isLighting = true ∧ Tracks log' (p.act t c).safety := by
    rw [act_mode]
    cases entered : phaseEntry t p c with
    | some e =>
        rw [phaseLog_entry entered] at kept
        by_cases lighting : e.mode.isLighting = true
        · rw [if_pos lighting] at kept
          cases kept
          obtain ⟨before, lit⟩ := act_lights entered lighting
          refine ⟨lighting, .of_watched ?_⟩
          rw [lit]
          exact tracks_light
        · rw [if_neg lighting] at kept
          cases kept
    | none =>
        by_cases supervised : p = .supervise
        · subst supervised
          rw [phaseLog_supervise entered] at kept
          obtain ⟨old, logged, rfl⟩ := Option.map_eq_some_iff.mp kept
          have lighting := watches.lighting old logged
          exact ⟨lighting, tracks_supervise entered lighting (watches.tracks old logged)⟩
        · rw [phaseLog_quiet entered supervised] at kept
          exact ⟨watches.lighting log' kept,
            (watches.tracks log' kept).congr (act_quiet entered supervised)⟩
  constructor
  · exact limits
  · intro log' kept
    obtain ⟨old, logged, rfl⟩ := Option.map_eq_some_iff.mp kept
    exact (tracked old logged).1
  · intro log' kept
    obtain ⟨old, logged, rfl⟩ := Option.map_eq_some_iff.mp kept
    exact (tracked old logged).2.allow _
  · intro log' kept
    obtain ⟨old, logged, rfl⟩ := Option.map_eq_some_iff.mp kept
    exact le_max_right _ _

theorem judgedLight_deadline (t : Tick) (c : Control) :
    (judgedLight t c).safety.ssDeadline = c.safety.ssDeadline ∨
      c.safety.ssProven = false ∧ c.safety.ssAboveSince ≠ 0 ∧
        proveHoldS ≤ t.now - c.safety.ssAboveSince ∧
        lowest c.safety.ssBaselineC (c.safety.filtC.getD 0) + c.cfg.ssProveRiseC ≤
          c.safety.filtC.getD 0 ∧
        (judgedLight t c).safety.ssProven = true ∧
        (judgedLight t c).safety.ssDeadline = t.now + c.cfg.ssProveS := by
  unfold judgedLight
  extract_lets filt
  cases unproven : c.safety.ssProven with
  | true => exact Or.inl rfl
  | false =>
      simp only [Bool.false_eq_true, if_false]
      by_cases held : filt ≥ lowest c.safety.ssBaselineC filt + c.cfg.ssProveRiseC ∧
          c.safety.ssAboveSince ≠ 0 ∧ t.now - c.safety.ssAboveSince ≥ proveHoldS
      · right
        have proven : (proveByRise t filt c).safety.ssProven = true := if_pos held
        have kept : (proveByHold t filt (proveByRise t filt c)).safety.ssProven = true := by
          simp only [proveByHold, proven]
          split <;> rfl
        exact ⟨trivial, held.2.1, held.2.2, held.1, kept, if_pos held⟩
      · exact Or.inl (if_neg held)

theorem judgedLight_proven {c : Control} (proven : c.safety.ssProven = true) :
    (judgedLight t c).safety.ssProven = true := by
  unfold judgedLight
  rw [if_pos proven]
  exact proven

theorem InTime.congr {safety safety' : Safety} (inTime : InTime log safety)
    (same : safety'.watched = safety.watched) : InTime log safety' := by
  unfold InTime
  rw [Safety.of_watched Safety.ssDeadline (fun _ => rfl) same,
    Safety.of_watched Safety.ssProven (fun _ => rfl) same]
  exact inTime

theorem InTime.allow {safety : Safety} (proveS : ℚ) (inTime : InTime log safety) :
    InTime (log.allow proveS) safety := by
  have grown : log.proveS ≤ (log.allow proveS).proveS := le_max_left _ _
  refine inTime.trans (add_le_add_right ?_ _)
  split
  · linarith
  · exact grown

theorem inTime_light {before : Watch} {now : ℚ} {cfg : Cfg} {pit : Option ℚ} :
    InTime { begun := now, entry := pit, proveS := cfg.ssProveS, samples := [] }
      (before.light now cfg pit).safety :=
  le_refl (now + cfg.ssProveS)

theorem inTime_supervise (quiet : superviseEntry t c = none) (lighting : c.mode.isLighting = true)
    (active : c.safety.ssActive = true) (nonneg : 0 ≤ log.proveS)
    (allowed : c.cfg.ssProveS ≤ log.proveS) (inTime : InTime log c.safety)
    (notLate : provenLate t .supervise c = false) : InTime log (supervise t c).safety := by
  rcases supervise_light quiet lighting active with
    ⟨-, since, watched⟩ | ⟨pit, c', read, capped, acted, -⟩
  · have same : (supervise t c).safety.ssDeadline = c.safety.ssDeadline := by
      have kept := congrArg Safety.ssDeadline watched
      exact kept
    have proven : (supervise t c).safety.ssProven = c.safety.ssProven := by
      have kept := congrArg Safety.ssProven watched
      exact kept
    unfold InTime
    rw [same, proven]
    exact inTime
  · have sample := capped.sampleNow t pit
    have capInTime := inTime.congr capped.watched
    have was := Safety.of_watched Safety.ssDeadline (fun _ => rfl) capped.watched
    have above := Safety.of_watched Safety.ssAboveSince (fun _ => rfl) capped.watched
    have base := Safety.of_watched Safety.ssBaselineC (fun _ => rfl) capped.watched
    have proof := Safety.of_watched Safety.ssProven (fun _ => rfl) capped.watched
    have limits : c'.cfg = c.cfg := by
      cases capped
      rfl
    rw [acted]
    unfold InTime
    rcases judgedLight_deadline t (filterPit t pit c') with
      same | ⟨unproven, stamped, held, risen, proven, moved⟩
    · rw [same]
      refine capInTime.trans (add_le_add_right ?_ _)
      by_cases was : c'.safety.ssProven = true
      · have still : (judgedLight t (filterPit t pit c')).safety.ssProven = true :=
          judgedLight_proven was
        rw [was, still]
      · rw [if_neg was]
        split
        · linarith
        · exact le_refl _
    · have within : t.now ≤ c.safety.ssDeadline := by
        by_contra late
        have isLate : provenLate t .supervise c = true := by
          simp only [provenLate, read, Bool.and_eq_true, decide_eq_true_eq, Bool.not_eq_true',
            bne_iff_ne]
          rw [← above, ← base, ← limits, ← sample]
          have lit := proof.symm.trans unproven
          exact ⟨⟨⟨⟨⟨lighting, lit⟩, not_le.mp late⟩, stamped⟩, held⟩, risen⟩
        rw [notLate] at isLate
        cases isLate
      have before : c.safety.ssProven = false := proof.symm.trans unproven
      have known : (filterPit t pit c').cfg = c.cfg := limits
      rw [proven, if_pos rfl, moved, known]
      unfold InTime at inTime
      rw [before] at inTime
      simp only [Bool.false_eq_true, if_false] at inTime
      linarith

theorem inTime_observe {safety : Safety} (inTime : InTime log safety) :
    InTime (observe t c log) safety := by
  unfold observe
  split
  · exact inTime
  · exact inTime

theorem OnTime.phase (watches : Watches s) (onTime : OnTime s)
    (notLate : provenLate t p s.1 = false) : OnTime (logPhase t p s) := by
  intro log' kept
  obtain ⟨old, logged, rfl⟩ := Option.map_eq_some_iff.mp kept
  apply InTime.allow
  change InTime old (p.act t s.1).safety
  cases entered : phaseEntry t p s.1 with
  | some e =>
      rw [phaseLog_entry entered] at logged
      by_cases lighting : e.mode.isLighting = true
      · rw [if_pos lighting] at logged
        cases logged
        obtain ⟨before, lit⟩ := act_lights entered lighting
        have begun : InTime (beginLog t s.1) (p.act t s.1).safety.watched := by
          rw [lit]
          exact inTime_light
        exact begun
      · rw [if_neg lighting] at logged
        cases logged
  | none =>
      by_cases supervised : p = .supervise
      · subst supervised
        rw [phaseLog_supervise entered] at logged
        obtain ⟨log, was, rfl⟩ := Option.map_eq_some_iff.mp logged
        have allowed := watches.allowed log was
        apply inTime_observe
        exact inTime_supervise entered (watches.lighting log was) (watches.tracks log was).active
          (watches.limits.trans allowed) allowed (onTime log was) notLate
      · rw [phaseLog_quiet entered supervised] at logged
        exact (onTime old logged).congr (act_quiet entered supervised)

theorem InTime.ends {safety : Safety} {now : ℚ} (inTime : InTime log safety)
    (before : now ≤ safety.ssDeadline) (nonneg : 0 ≤ log.proveS) :
    now ≤ log.begun + 2 * log.proveS := by
  refine before.trans (inTime.trans (add_le_add_right ?_ _))
  split
  · exact le_refl _
  · linarith

theorem ends_begun {e : Entry} {log' : LightLog} (watches : Watches s)
    (entered : phaseEntry t p s.1 = some e) (kept : (logPhase t p s).2 = some log') :
    t.now ≤ log'.begun + 2 * log'.proveS := by
  obtain ⟨old, logged, rfl⟩ := Option.map_eq_some_iff.mp kept
  rw [phaseLog_entry entered] at logged
  split at logged
  · cases logged
    have longer : 0 ≤ ((beginLog t s.1).allow (p.act t s.1).cfg.ssProveS).proveS :=
      watches.limits.trans (le_max_left _ _)
    change t.now ≤ t.now + _
    linarith
  · cases logged

/-- A supervision on time leaves no light past twice the prove time at a valid
reading. -/
theorem endsInTime_supervise (watches : Watches s) (onTime : OnTime (logPhase t .supervise s)) :
    EndsInTime t (logPhase t .supervise s) := by
  intro log kept lighting read
  cases entered : phaseEntry t .supervise s.1 with
  | some e => exact ends_begun watches entered kept
  | none =>
      have after := Watches.phase t .supervise watches
      have nonneg : 0 ≤ log.proveS := after.limits.trans (after.allowed log kept)
      apply (onTime log kept).ends _ nonneg
      obtain ⟨old, logged, -⟩ := Option.map_eq_some_iff.mp kept
      rw [phaseLog_supervise entered] at logged
      obtain ⟨older, was, -⟩ := Option.map_eq_some_iff.mp logged
      rcases supervise_light entered (watches.lighting older was) (watches.tracks older was).active
        with ⟨unread, -⟩ | ⟨pit, c', -, -, acted, inTime⟩
      · have same := act_validPit t .supervise s.1 (by simp)
        change ((Phase.supervise).act t s.1).validPit.isSome = true at read
        rw [same, unread] at read
        cases read
      · change t.now ≤ (supervise t s.1).safety.ssDeadline
        rw [acted]
        exact inTime

theorem EndsInTime.phase (watches : Watches s) (ends : EndsInTime t s)
    (notSupervise : p ≠ .supervise) (notRead : p ≠ .read) : EndsInTime t (logPhase t p s) := by
  intro log kept lighting read
  cases entered : phaseEntry t p s.1 with
  | some e => exact ends_begun watches entered kept
  | none =>
      obtain ⟨old, logged, rfl⟩ := Option.map_eq_some_iff.mp kept
      rw [phaseLog_quiet entered notSupervise] at logged
      change (p.act t s.1).validPit.isSome = true at read
      rw [act_validPit t p s.1 notRead] at read
      have before := ends old logged (watches.lighting old logged) read
      have grown : old.proveS ≤ (old.allow (p.act t s.1).cfg.ssProveS).proveS := le_max_left _ _
      change t.now ≤ old.begun + _
      linarith

/-- A phase that leaves Startup for Smoke or Hold finds the light proven, unless
the user forces it. -/
theorem provenFirst (t : Tick) (p : Phase) (watches : Watches s) : ProvenFirst t p s := by
  intro log logged mode cooks
  have litFirst := litFirst_iff t p s.1
  have honest : cooksFromError p s.1 = false := by
    unfold cooksFromError
    split
    · simp [mode]
    · simp [mode]
    · rfl
  obtain ⟨-, done | forced⟩ := litFirst.mpr honest cooks (by rw [mode]; rfl)
  · exact Or.inr ((watches.tracks log logged).done done.2)
  · exact Or.inl forced

end Phases

/-! ## Runs -/

section Moves

variable {m : Move} {c : Control} {s : Control × Option LightLog}

theorem relight_lights (b : Boot) (o : Json) (m : Mode) (c : Control) :
    (relight b o m c).mode.isLighting = true ∧
      ∃ before : Watch, (relight b o m c).safety.watched =
        (before.light b.tick.now c.cfg c.validPit).safety := by
  have total (c : Control) : watchOf (restoreTotals o c) = watchOf c := rfl
  have same : watchOf (relight b o m c) = watchOf (enterLight b o m (countRecovery o c)) := total _
  have entered : ∃ (e : Mode) (before : Watch) (sp : ℚ), e.isLighting = true ∧
      watchOf (enterLight b o m (countRecovery o c)) =
        before.enter b.tick.now e c.cfg c.validPit sp := by
    unfold enterLight
    split
    · exact ⟨.startup, _, _, rfl, watchOf_enterMode b.tick .startup _⟩
    · exact ⟨.reignite, _, _, rfl, watchOf_enterMode b.tick .reignite _⟩
  obtain ⟨e, before, sp, lighting, watch⟩ := entered
  rw [← same] at watch
  constructor
  · have mode := congrArg Watch.mode watch
    rw [(Watch.enter_keeps _ _ _ _ _ _).1] at mode
    change (relight b o m c).mode = e at mode
    rw [mode]
    exact lighting
  · obtain ⟨light, lit⟩ := before.enter_lights lighting
    exact ⟨light, (congrArg Watch.safety watch).trans lit⟩

theorem recoverEntry_lights {b : Boot} {o : Json} {e : Entry}
    (entered : recoverEntry b o c = some e) (lighting : e.mode.isLighting = true) :
    ∃ m, (controlRecover b o c).1 = relight b o m c := by
  unfold recoverEntry at entered
  cases recovered : recoveredMode b o c with
  | none =>
      rw [recovered] at entered
      cases entered
  | some m =>
      simp only [recovered, Option.map_some, Option.some.injEq] at entered
      by_cases tuning : tuningInterrupted b o m = true
      · rw [if_pos tuning] at entered
        rw [← entered] at lighting
        cases lighting
      · cases refused : refusal b o m c with
        | some why =>
            simp only [if_neg tuning, refused] at entered
            rw [← entered] at lighting
            cases lighting
        | none =>
            refine ⟨m, ?_⟩
            simp only [controlRecover, recovered, if_neg tuning, refused]

theorem controlRecover_stays {b : Boot} {o : Json} (stays : recoverEntry b o c = none) :
    (controlRecover b o c).1 = c := by
  rw [recoverEntry, Option.map_eq_none_iff] at stays
  rw [controlRecover, stays]

theorem controlBootCheck_stays {t : Tick} {resuming : Bool}
    (stays : bootEntry resuming c = none) : controlBootCheck t resuming c = c := by
  unfold bootEntry at stays
  unfold controlBootCheck
  cases resuming with
  | true => rfl
  | false =>
      by_cases hot : readsAbove c.validPit c.cfg.restartHotC = true
      · rw [if_pos ⟨rfl, hot⟩] at stays
        cases stays
      · rw [if_neg (by simp), if_neg hot]

theorem moveLog_cases (notStep : ∀ t, m ≠ .step t) {log : Option LightLog} {log' : LightLog}
    (kept : moveLog m c log = some log') :
    log = some log' ∧ (m.act c).mode = c.mode ∧ (m.act c).safety.watched = c.safety.watched ∨
      (m.act c).mode.isLighting = true ∧ log' = beginLog m.tick c ∧
        ∃ before : Watch, (m.act c).safety.watched =
          (before.light m.tick.now c.cfg c.validPit).safety := by
  have same {c' : Control} (acted : m.act c = c') (old : log = some log')
      (watch : watchOf c' = watchOf c) :
      log = some log' ∧ (m.act c).mode = c.mode ∧
        (m.act c).safety.watched = c.safety.watched := by
    rw [acted]
    exact ⟨old, congrArg Watch.mode watch, congrArg Watch.safety watch⟩
  cases m with
  | step t => exact absurd rfl (notStep t)
  | reload t => exact Or.inl (same rfl kept (watchOf_controlReloadSettings t c))
  | resume t o =>
      left
      simp only [moveLog] at kept
      cases resumed : resumedMode t o c with
      | none =>
          rw [resumed] at kept
          have stays : (controlResume t o c).1 = c := by rw [controlResume, resumed]
          exact same stays kept rfl
      | some m =>
          rw [resumed] at kept
          cases kept
  | recover b o =>
      simp only [moveLog] at kept
      cases entered : recoverEntry b o c with
      | none =>
          rw [entered] at kept
          exact Or.inl (same (controlRecover_stays entered) kept rfl)
      | some e =>
          rw [entered] at kept
          by_cases lighting : e.mode.isLighting = true
          · simp only [lighting, if_true, Option.some.injEq] at kept
            obtain ⟨m, acted⟩ := recoverEntry_lights entered lighting
            obtain ⟨lit, before, light⟩ := relight_lights b o m c
            rw [Move.act, acted]
            exact Or.inr ⟨lit, kept.symm, before, light⟩
          · simp only [lighting, Bool.false_eq_true, if_false] at kept
            cases kept
  | bootCheck t resuming =>
      left
      simp only [moveLog] at kept
      cases booted : bootEntry resuming c with
      | some e =>
          rw [booted] at kept
          cases kept
      | none =>
          rw [booted] at kept
          exact same (controlBootCheck_stays booted) kept rfl

theorem logMove_eq (notStep : ∀ t, m ≠ .step t) (s : Control × Option LightLog) :
    logMove m s =
      (m.act s.1, (moveLog m s.1 s.2).map (LightLog.allow (m.act s.1).cfg.ssProveS)) := by
  cases m <;> first | rfl | exact absurd rfl (notStep _)

theorem Watches.move (m : Move) (watches : Watches s) : Watches (logMove m s) := by
  by_cases stepped : ∃ t, m = .step t
  · obtain ⟨t, rfl⟩ := stepped
    exact run_invariant Watches (fun p s watches => watches.phase t p) watches
  have notStep : ∀ t, m ≠ .step t := fun t same => stepped ⟨t, same⟩
  rw [logMove_eq notStep]
  constructor
  · exact move_loaded (fun cfg => 0 ≤ cfg.ssProveS) proveS_nonneg m watches.limits
  · intro log kept
    obtain ⟨old, logged, rfl⟩ := Option.map_eq_some_iff.mp kept
    rcases moveLog_cases notStep logged with ⟨was, mode, -⟩ | ⟨lit, -, -⟩
    · exact (congrArg Mode.isLighting mode).trans (watches.lighting old was)
    · exact lit
  · intro log kept
    obtain ⟨old, logged, rfl⟩ := Option.map_eq_some_iff.mp kept
    apply Tracks.allow
    rcases moveLog_cases notStep logged with ⟨was, -, watched⟩ | ⟨-, rfl, before, light⟩
    · exact (watches.tracks old was).congr watched
    · apply Tracks.of_watched
      rw [light]
      exact tracks_light
  · intro log kept
    obtain ⟨old, logged, rfl⟩ := Option.map_eq_some_iff.mp kept
    exact le_max_right _ _

theorem OnTime.step {t : Tick} (watches : Watches s) (onTime : OnTime s)
    (inTime : Along (logPhase t) (fun p s => provenLate t p s.1 = false) (phases t) s) :
    OnTime (run (logPhase t) (phases t) s) ∧ EndsInTime t (run (logPhase t) (phases t) s) := by
  have keeps {ps : List Phase} {s : Control × Option LightLog} (sound : Watches s ∧ OnTime s)
      (inTime : Along (logPhase t) (fun p s => provenLate t p s.1 = false) ps s) :
      Watches (run (logPhase t) ps s) ∧ OnTime (run (logPhase t) ps s) :=
    run_preserves (fun p s => provenLate t p s.1 = false) (fun s => Watches s ∧ OnTime s)
      (fun p s sound notLate => ⟨sound.1.phase t p, OnTime.phase sound.1 sound.2 notLate⟩)
      sound inTime
  refine ⟨(keeps ⟨watches, onTime⟩ inTime).2, ?_⟩
  rw [phases, ← List.append_assoc] at inTime ⊢
  obtain ⟨before, here, after⟩ := along_append.mp inTime
  rw [run_append, run_cons]
  obtain ⟨judged, timely⟩ := keeps ⟨watches, onTime⟩ before
  generalize run (logPhase t) (drainPhases t ++ cookPhases) s = reached at *
  have supervised : Watches (logPhase t .supervise reached) ∧
      EndsInTime t (logPhase t .supervise reached) :=
    ⟨judged.phase t .supervise, endsInTime_supervise judged (timely.phase judged here)⟩
  have closing : Along (logPhase t) (fun p _ => p ≠ .supervise ∧ p ≠ .read) closePhases
      (logPhase t .supervise reached) := by
    apply along_of_forall
    intro p inside _
    constructor
    all_goals
      rintro rfl
      simp [closePhases] at inside
  exact (run_preserves (fun p _ => p ≠ .supervise ∧ p ≠ .read)
    (fun s => Watches s ∧ EndsInTime t s)
    (fun p s sound other => ⟨sound.1.phase t p, sound.2.phase sound.1 other.1 other.2⟩)
    supervised closing).2

theorem OnTime.move {m : Move} (watches : Watches s) (onTime : OnTime s)
    (inTime : MoveProvesInTime m s) : OnTime (logMove m s) := by
  by_cases stepped : ∃ t, m = .step t
  · obtain ⟨t, rfl⟩ := stepped
    exact (OnTime.step watches onTime inTime).1
  have notStep : ∀ t, m ≠ .step t := fun t same => stepped ⟨t, same⟩
  rw [logMove_eq notStep]
  intro log kept
  obtain ⟨old, logged, rfl⟩ := Option.map_eq_some_iff.mp kept
  apply InTime.allow
  rcases moveLog_cases notStep logged with ⟨was, -, watched⟩ | ⟨-, rfl, before, light⟩
  · exact (onTime old was).congr watched
  · have begun : InTime (beginLog m.tick s.1) (m.act s.1).safety.watched := by
      rw [light]
      exact inTime_light
    exact begun

theorem moveProvenFirst (m : Move) (watches : Watches s) : MoveProvenFirst m s := by
  cases m with
  | step t =>
      apply Along.strengthen Watches (fun p s watches _ => watches.phase t p)
        (fun p s watches _ => provenFirst t p watches) watches
      exact along_of_forall (fun _ _ _ => trivial) s
  | _ => trivial

end Moves

/-- In every run, a Startup is handed over to the cook only when it is proven, or
by the user's own word, and as long as no rise is proven late, no light outlasts
twice the prove time. -/
theorem fire_is_proven {time : ℚ} {c : Control} (reached : Reachable time c)
    (moves : List Move) :
    Along logMove MoveProvenFirst moves (c, none) ∧
      (Along logMove MoveProvesInTime moves (c, none) →
        Along logMove MoveEndsInTime moves (c, none)) := by
  have watches : Watches (c, none) :=
    ⟨reached.limits (fun cfg => 0 ≤ cfg.ssProveS) proveS_nonneg, nofun, nofun, nofun⟩
  constructor
  · apply Along.strengthen Watches (fun m s watches _ => watches.move m)
      (fun m s watches _ => moveProvenFirst m watches) watches
    exact along_of_forall (fun _ _ _ => trivial) _
  · intro inTime
    apply Along.strengthen (fun s => Watches s ∧ OnTime s) _ _ ⟨watches, nofun⟩ inTime
    · intro m s sound inTime
      exact ⟨sound.1.move m, sound.2.move sound.1 inTime⟩
    · intro m s sound inTime
      cases m with
      | step t => exact (OnTime.step sound.1 sound.2 inTime).2
      | _ => trivial

/-- A light on the bench that rises, proves itself and is handed over. -/
def benchProven : List Move :=
  [.step (benchTick [] 1 (some 20) [.mode .startup 0 false]),
    .step (benchTick [] 200 (some 23) []),
    .step (benchTick [] 215 (some 23) []),
    .step (benchTick [] 230 (some 40) [])]

theorem fire_is_proven_on_bench :
    Along logMove MoveProvenFirst benchProven (benchInit, none) ∧
      Along logMove MoveEndsInTime benchProven (benchInit, none) ∧
      (run logMove benchProven (benchInit, none)).1.mode = .smoke := by
  obtain ⟨proven, inTime⟩ := fire_is_proven reachable_benchInit benchProven
  exact ⟨proven, inTime (by decide +kernel), by decide +kernel⟩

/-- A light on the bench that rises late, and whose rise is proven by the first
reading after the probe was out for a few seconds. -/
def benchLate : List Move :=
  [.step (benchTick [] 1 (some 20) [.mode .startup 0 false]),
    .step (benchTick [] 290 (some 23) []),
    .step (benchTick [] 300 (some 23) []),
    .step (benchTick [] 301 none []),
    .step (benchTick [] 305 none []),
    .step (benchTick [] 306 (some 23) []),
    .step (benchTick [] 602 (some 23) [])]

/-- A rise proven after the light's time gives it a second prove time from then
on, and it outlasts the two. -/
theorem late_proof_outlasts_its_time :
    ¬∀ (time : ℚ) (c : Control), Reachable time c → ∀ moves : List Move,
      (time :: moves.map fun m => m.tick.now).IsChain (· < ·) →
        Along logMove MoveProvenFirst moves (c, none) ∧
          Along logMove MoveEndsInTime moves (c, none) := by
  intro always
  have ends := (always 0 benchInit reachable_benchInit benchLate (by decide)).2
  exact absurd ends (by decide +kernel)

end PiFire
