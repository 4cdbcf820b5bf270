import PiFire.Safety.Verdict
import PiFire.Relay.Reach
import PiFire.Transition.Timed

/-!
# Flame-outs

A flame-out is a fall of the pit that lasts, and a cook is lit again only so
often. The supervision keeps a stamp of the fall and a count of the tries left.
Here a run keeps the judgements themselves and the relights of the cook.
-/

namespace PiFire

open Transition

/-! ## The log of a fire -/

/-- A tick of the supervision, as far as the fall of the pit goes. -/
inductive FireSample where
  /-- The filtered pit against its reference, in a mode with a set point. -/
  | judged (time pit reference drop : ℚ) (mode : Mode) (setpointC : ℚ)
  /-- The fall is not judged. -/
  | suspended (time : ℚ)

def FireSample.time : FireSample → ℚ
  | judged time _ _ _ _ _ => time
  | suspended time => time

/-- The mode a fall is judged in. -/
def FireSample.mode? : FireSample → Option Mode
  | judged _ _ _ _ mode _ => some mode
  | suspended _ => none

/-- The set point a fall is judged at. -/
def FireSample.setpoint? : FireSample → Option ℚ
  | judged _ _ _ _ _ setpointC => some setpointC
  | suspended _ => none

/-- The pit is at or below its reference minus the drop. -/
def Fallen (s : FireSample) (_ : List FireSample) : Prop :=
  match s with
  | .judged _ pit reference drop _ _ => pit ≤ reference - drop
  | .suspended _ => False

instance (s : FireSample) (earlier : List FireSample) : Decidable (Fallen s earlier) :=
  match s with
  | .judged _ pit reference drop _ _ => inferInstanceAs (Decidable (pit ≤ reference - drop))
  | .suspended _ => isFalse id

/-- A fallen pit in the mode and at the set point of `c`. -/
def FallenAt (c : Control) (s : FireSample) (earlier : List FireSample) : Prop :=
  Fallen s earlier ∧ s.mode? = some c.mode ∧ s.setpoint? = some c.setpointC

instance (c : Control) (s : FireSample) (earlier : List FireSample) :
    Decidable (FallenAt c s earlier) :=
  inferInstanceAs (Decidable (_ ∧ _ ∧ _))

/-- The judgements of the fire, newest first, and the relights of the cook
against the tries it began with. -/
structure FireLog where
  history : List FireSample
  relights : ℕ
  allowed : ℤ

/-- The state the fall is judged in, when the pit reads `pit`. -/
def fireJudged (t : Tick) (pit : ℚ) (c : Control) : Control :=
  followPeak pit (armCoast pit (filterPit t pit c))

/-- Whether the fall is not judged: the lid or the recovery after it, a tuning
run, or a coast. -/
def fallSuspended (t : Tick) (pit : ℚ) (c : Control) : Prop :=
  lidExcuses t c ∨ c.autotune.active ∨
    (armCoast pit (filterPit t pit c)).safety.stepdownArmed

instance (t : Tick) (pit : ℚ) (c : Control) : Decidable (fallSuspended t pit c) :=
  inferInstanceAs (Decidable (_ ∨ _ ∨ _))

/-- The sample of a tick in Smoke or Hold at which the pit reads `pit`. -/
def fireSample (t : Tick) (pit : ℚ) (c : Control) : FireSample :=
  if fallSuspended t pit c then .suspended t.now
  else
    let seen := fireJudged t pit c
    .judged t.now (judgedPit pit seen) (fallReference seen) (fallDrop seen) c.mode c.setpointC

/-- The history after a supervision. A grill that does not fire is not judged,
and neither is a light; a tick without a reading, or one that ends in an
overheat, adds nothing. -/
def watchFire (t : Tick) (c : Control) (history : List FireSample) : List FireSample :=
  if overheated c then history
  else if c.mode.isFiring then
    match c.validPit with
    | none => history
    | some pit => if c.mode.isRunning then fireSample t pit c :: history else history
  else .suspended t.now :: history

/-- The log after what a phase enters: a light suspends the judgement. A Startup
begins the cook, and a Reignite is a relight of it. -/
def enterFire (t : Tick) (c : Control) (log : FireLog) : Option Entry → FireLog
  | some e =>
      let suspended := FireSample.suspended t.now :: log.history
      match e.mode with
      | .startup => { history := suspended, relights := 0, allowed := c.cfg.reigniteRetries }
      | .reignite => { log with history := suspended, relights := log.relights + 1 }
      | _ => log
  | none => log

/-- One phase, with the log. -/
def firePhase (t : Tick) (p : Phase) (s : Control × FireLog) : Control × FireLog :=
  let judged := match p with
    | .supervise => { s.2 with history := watchFire t s.1 s.2.history }
    | _ => s.2
  (p.act t s.1, enterFire t s.1 judged (phaseEntry t p s.1))

/-- A daemon that takes a cook up counts the tries it finds. -/
def FireLog.takeUp (c : Control) (log : FireLog) : FireLog :=
  { log with relights := 0, allowed := c.safety.reigniteRetriesLeft }

/-- One move, with the log. -/
def fireMove (m : Move) (s : Control × FireLog) : Control × FireLog :=
  let c := m.act s.1
  match m with
  | .step t => run (firePhase t) (phases t) s
  | .resume t o => (c, if (controlResume t o s.1).2 then s.2.takeUp c else s.2)
  | .recover b o => (c, if (controlRecover b o s.1).2 then s.2.takeUp c else s.2)
  | _ => (c, s.2)

/-! ## What is claimed of a flame-out -/

/-- A judgement that is a flame-out: it relights, or says why it does not. -/
def isFlameout (judged : Control × Action) : Bool :=
  match judged.2, judged.1.safety.error with
  | .reignite, _ => true
  | .error, some (.flameout _ _ _) => true
  | _, _ => false

/-- The supervision declares a flame-out. -/
def declaresFlameout (t : Tick) (c : Control) : Bool := isFlameout (safetyTick t c)

/-- `ok` held at every judgement of the last `lasting` seconds. -/
def HeldFor (ok : FireSample → List FireSample → Prop) (now lasting : ℚ)
    (history : List FireSample) : Prop :=
  ∃ since, HeldSince FireSample.time ok since history ∧ lasting ≤ now - since

instance (ok : FireSample → List FireSample → Prop) [∀ s history, Decidable (ok s history)]
    (now lasting : ℚ) (history : List FireSample) : Decidable (HeldFor ok now lasting history) :=
  decidable_of_iff
    (∃ since ∈ history.map FireSample.time,
      HeldSince FireSample.time ok since history ∧ lasting ≤ now - since)
    ⟨fun ⟨since, _, held⟩ => ⟨since, held⟩,
      fun ⟨since, held⟩ => ⟨since, held.1.mem, held⟩⟩

/-- A flame-out is declared only after `ok` held at every judgement of the time a
fall has to last. -/
def ConfirmedBy (ok : Control → FireSample → List FireSample → Prop) (t : Tick) (p : Phase)
    (s : Control × FireLog) : Prop :=
  match p with
  | .supervise =>
      declaresFlameout t s.1 = true →
        HeldFor (ok s.1) t.now s.1.cfg.relightConfirmS (watchFire t s.1 s.2.history)
  | _ => True

/-- Every flame-out of a move is confirmed. -/
def MoveConfirmedBy (ok : Control → FireSample → List FireSample → Prop) (m : Move)
    (s : Control × FireLog) : Prop :=
  match m with
  | .step t => Along (firePhase t) (ConfirmedBy ok t) (phases t) s
  | _ => True

instance (ok : Control → FireSample → List FireSample → Prop)
    [∀ c s history, Decidable (ok c s history)] (t : Tick) (p : Phase) (s : Control × FireLog) :
    Decidable (ConfirmedBy ok t p s) :=
  match p with
  | .supervise => inferInstanceAs (Decidable (_ = true → HeldFor _ _ _ _))
  | .begin | .command _ | .read | .request | .idleHeat | .clampSp | .notify | .recipe
  | .aftercare | .lid | .feed | .fan | .expire | .timed | .input | .checkpoint | .close =>
      isTrue trivial

instance (ok : Control → FireSample → List FireSample → Prop)
    [∀ c s history, Decidable (ok c s history)] (m : Move) (s : Control × FireLog) :
    Decidable (MoveConfirmedBy ok m s) :=
  match m with
  | .step t => inferInstanceAs (Decidable (Along (firePhase t) (ConfirmedBy ok t) (phases t) s))
  | .reload _ | .resume _ _ | .recover _ _ | .bootCheck _ _ => isTrue trivial

/-- The cook was lit again no oftener than it has tries. -/
def RelightsBounded (s : Control × FireLog) : Prop :=
  s.2.relights ≤ max 0 s.2.allowed

/-! ## The fall in a judgement -/

/-- The stamp of the fall and the tries left. -/
def tallyOf (c : Control) : ℚ × ℤ := (c.safety.fallSince, c.safety.reigniteRetriesLeft)

section Judgement

variable {t : Tick} {c c' : Control} {pit : ℚ} {history : List FireSample}

theorem tallyOf_proveFire (t : Tick) (c : Control) : tallyOf (proveFire t c) = tallyOf c := by
  unfold proveFire
  split
  · split <;> rfl
  · rfl

theorem tallyOf_endCoast (t : Tick) (pit : ℚ) (c : Control) :
    tallyOf (endCoast t pit c) = tallyOf c := by
  unfold endCoast
  split <;> rfl

theorem tallyOf_timeClimb (t : Tick) (pit : ℚ) (c : Control) :
    tallyOf (timeClimb t pit c) = tallyOf c := by
  unfold timeClimb
  split <;> rfl

theorem tallyOf_noteHeat (pit : ℚ) (c : Control) : tallyOf (noteHeat pit c) = tallyOf c := rfl

theorem tallyOf_timeFall (t : Tick) (pit : ℚ) (c : Control) :
    tallyOf (timeFall t pit c) =
      (if fallen pit c then (if c.safety.fallSince ≤ 0 then t.now else c.safety.fallSince) else 0,
        c.safety.reigniteRetriesLeft) := rfl

theorem tallyOf_setError (fault : Fault) (c : Control) : tallyOf (setError fault c) = tallyOf c :=
  rfl

theorem tallyOf_setOutput (o : Output) (on : Bool) (c : Control) :
    tallyOf (setOutput o on c) = tallyOf c := rfl

/-- What a supervision of the fire does about the fall: it does not judge it, or
declares a flame-out, or times it. -/
inductive FallVerdict (t : Tick) (pit : ℚ) (c : Control) : Control × Action → Prop where
  | suspend {judged : Control} (suspended : fallSuspended t pit c)
      (tally : tallyOf judged = (0, c.safety.reigniteRetriesLeft)) :
      FallVerdict t pit c (judged, .none)
  | flameout (under reference lasted : ℚ) {fallen : Control} (judging : ¬fallSuspended t pit c)
      (stands : fallStands t pit (fireJudged t pit c) = true)
      (tally : tallyOf fallen = (0, c.safety.reigniteRetriesLeft)) :
      FallVerdict t pit c (PiFire.flameout (.flameout under reference lasted) fallen)
  | time {judged : Control × Action} (judging : ¬fallSuspended t pit c)
      (tally : tallyOf judged.1 = (if fallen pit (fireJudged t pit c) then
          (if c.safety.fallSince ≤ 0 then t.now else c.safety.fallSince) else 0,
        c.safety.reigniteRetriesLeft))
      (calm : judged.2 = .none ∨
        judged.2 = .error ∧ ∃ s held, judged.1.safety.error = some (.notHeating s held)) :
      FallVerdict t pit c judged

theorem fallVerdict_superviseFire (t : Tick) (pit : ℚ) (c : Control) :
    FallVerdict t pit c (superviseFire t pit (filterPit t pit c)) := by
  have timed : tallyOf (noteHeat pit (timeFall t pit (fireJudged t pit c))) =
      (if fallen pit (fireJudged t pit c) then
          (if c.safety.fallSince ≤ 0 then t.now else c.safety.fallSince) else 0,
        c.safety.reigniteRetriesLeft) := by
    rw [tallyOf_noteHeat, tallyOf_timeFall]
    rfl
  have judged : followPeak pit (armCoast pit (filterPit t pit c)) = fireJudged t pit c := rfl
  simp only [superviseFire, judged]
  by_cases suspended : fallSuspended t pit c
  · have excused : lidExcuses t (filterPit t pit c) = true ∨
        (filterPit t pit c).autotune.active = true ∨
          (armCoast pit (filterPit t pit c)).safety.stepdownArmed = true := suspended
    rw [if_pos excused]
    refine .suspend suspended ?_
    rw [tallyOf_proveFire, tallyOf_endCoast]
    rfl
  · have judging : ¬(lidExcuses t (filterPit t pit c) = true ∨
        (filterPit t pit c).autotune.active = true ∨
          (armCoast pit (filterPit t pit c)).safety.stepdownArmed = true) := suspended
    rw [if_neg judging]
    by_cases stands : fallStands t pit (fireJudged t pit c) = true
    · rw [if_pos stands]
      exact .flameout _ _ _ suspended stands rfl
    · rw [if_neg stands]
      split
      · refine .time suspended ?_ (Or.inr ⟨rfl, _, _, rfl⟩)
        rw [tallyOf_setError, tallyOf_setOutput]
        exact timed
      · refine .time suspended ?_ (Or.inl rfl)
        rw [tallyOf_proveFire, tallyOf_endCoast, tallyOf_timeClimb]
        exact timed

theorem Capped.fireSample (capped : Capped c c') (t : Tick) (pit : ℚ) :
    fireSample t pit c' = PiFire.fireSample t pit c := by
  obtain ⟨outputs, safety, watched⟩ := capped
  calc PiFire.fireSample t pit { c with outputs := outputs, safety := safety }
      = PiFire.fireSample t pit { c with safety := safety.watched } := rfl
    _ = PiFire.fireSample t pit { c with safety := c.safety.watched } := by rw [watched]
    _ = PiFire.fireSample t pit c := rfl

theorem fallen_fireSample (judging : ¬fallSuspended t pit c)
    (fell : fallen pit (fireJudged t pit c) = true) :
    Fallen (PiFire.fireSample t pit c) history := by
  unfold PiFire.fireSample
  rw [if_neg judging]
  simpa [Fallen, fallen] using fell

theorem time_fireSample : (PiFire.fireSample t pit c).time = t.now := by
  unfold PiFire.fireSample
  split <;> rfl

/-- What a judgement of the fire does to the stamp of the fall and the tries, and
what a flame-out takes. -/
structure FallKept (t : Tick) (c : Control) (history : List FireSample)
    (judged : Control × Action) : Prop where
  stamps : Stamps (· ≤ 0) FireSample.time Fallen judged.1.safety.fallSince history
  tries : judged.2 ≠ .reignite →
    judged.1.safety.reigniteRetriesLeft = c.safety.reigniteRetriesLeft
  relights : judged.2 = .reignite → judged.1.safety.fallSince = 0 ∧
    0 < c.safety.reigniteRetriesLeft ∧
      judged.1.safety.reigniteRetriesLeft = c.safety.reigniteRetriesLeft - 1
  confirmed : isFlameout judged = true →
    HeldFor Fallen t.now c.cfg.relightConfirmS history

theorem flameout_spec (fault : Fault) (c : Control) :
    (PiFire.flameout fault c).1.safety.fallSince = c.safety.fallSince ∧
      ((PiFire.flameout fault c).2 = .error ∧
          (PiFire.flameout fault c).1.safety.reigniteRetriesLeft =
            c.safety.reigniteRetriesLeft ∨
        (PiFire.flameout fault c).2 = .reignite ∧ 0 < c.safety.reigniteRetriesLeft ∧
          (PiFire.flameout fault c).1.safety.reigniteRetriesLeft =
            c.safety.reigniteRetriesLeft - 1) := by
  unfold PiFire.flameout
  extract_lets dark
  split
  · exact ⟨rfl, Or.inl ⟨rfl, rfl⟩⟩
  · next left =>
      simp only [Bool.or_eq_true, not_or, decide_eq_true_eq, not_le] at left
      exact ⟨rfl, Or.inr ⟨rfl, left.2, rfl⟩⟩

theorem fallKept_superviseFire (t : Tick) (pit : ℚ)
    (stamps : Stamps (· ≤ 0) FireSample.time Fallen c.safety.fallSince history) :
    FallKept t c (PiFire.fireSample t pit c :: history)
      (superviseFire t pit (filterPit t pit c)) := by
  have verdict := fallVerdict_superviseFire t pit c
  generalize superviseFire t pit (filterPit t pit c) = judged at verdict
  cases verdict with
  | @suspend judged suspended tally =>
      have cleared : judged.safety.fallSince = 0 := congrArg Prod.fst tally
      have tries : judged.safety.reigniteRetriesLeft = c.safety.reigniteRetriesLeft :=
        congrArg Prod.snd tally
      refine ⟨.cleared ?_ _, fun _ => tries, nofun, nofun⟩
      exact cleared.le
  | @flameout under reference lasted f judging stands tally =>
      simp only [fallStands, Bool.and_eq_true, decide_eq_true_eq] at stands
      obtain ⟨⟨fell, set⟩, time⟩ := stands
      have held : HeldSince FireSample.time Fallen c.safety.fallSince
          (PiFire.fireSample t pit c :: history) :=
        .extend (stamps (not_le.mpr set)) (fallen_fireSample judging fell)
      have cleared : f.safety.fallSince = 0 := congrArg Prod.fst tally
      have left : f.safety.reigniteRetriesLeft = c.safety.reigniteRetriesLeft :=
        congrArg Prod.snd tally
      obtain ⟨fall, verdict⟩ := flameout_spec (.flameout under reference lasted) f
      rw [cleared] at fall
      rw [left] at verdict
      refine ⟨.cleared ?_ _, ?_, ?_, fun _ => ⟨_, held, time⟩⟩
      · exact fall.le
      · intro notRelit
        rcases verdict with ⟨-, tries⟩ | ⟨relit, -⟩
        · exact tries
        · exact absurd relit notRelit
      · intro relit
        rcases verdict with ⟨error, -⟩ | ⟨-, positive, tries⟩
        · rw [error] at relit
          cases relit
        · exact ⟨fall, positive, tries⟩
  | time judging tally calm =>
      have stamp : judged.1.safety.fallSince = _ := congrArg Prod.fst tally
      have tries : judged.1.safety.reigniteRetriesLeft = c.safety.reigniteRetriesLeft :=
        congrArg Prod.snd tally
      have notRelit : judged.2 ≠ .reignite := by
        rcases calm with quiet | ⟨error, -⟩
        · rw [quiet]
          decide
        · rw [error]
          decide
      refine ⟨?_, fun _ => tries, fun relit => absurd relit notRelit, ?_⟩
      · rw [stamp, ← time_fireSample]
        exact stamps.sample le_rfl (fallen_fireSample judging)
      · intro declared
        rcases calm with quiet | ⟨error, s, held, fault⟩
        · simp [isFlameout, quiet] at declared
        · simp [isFlameout, error, fault] at declared

theorem Capped.tally (capped : Capped c c') : tallyOf c' = tallyOf c :=
  Safety.of_watched (fun s => (s.fallSince, s.reigniteRetriesLeft)) (fun _ => rfl) capped.watched

theorem fallKept_of_calm {judged : Control × Action}
    (stamps : Stamps (· ≤ 0) FireSample.time Fallen judged.1.safety.fallSince history)
    (tries : judged.1.safety.reigniteRetriesLeft = c.safety.reigniteRetriesLeft)
    (notRelit : judged.2 ≠ .reignite) (calm : isFlameout judged = false) :
    FallKept t c history judged :=
  ⟨stamps, fun _ => tries, fun relit => absurd relit notRelit, fun declared => by
    rw [calm] at declared
    cases declared⟩

theorem judgeProbe_calm (t : Tick) (c : Control) :
    tallyOf (judgeProbe t c).1 = tallyOf c ∧ (judgeProbe t c).2 ≠ .reignite ∧
      isFlameout (judgeProbe t c) = false := by
  unfold judgeProbe
  split
  · exact ⟨rfl, nofun, rfl⟩
  · split
    · exact ⟨rfl, nofun, rfl⟩
    · exact ⟨rfl, nofun, rfl⟩

theorem tallyOf_judgedLight (t : Tick) (c : Control) : tallyOf (judgedLight t c) = tallyOf c := by
  unfold judgedLight
  split <;> rfl

theorem judgeLight_calm (t : Tick) (c : Control) :
    tallyOf (judgeLight t c).1 = tallyOf c ∧ (judgeLight t c).2 ≠ .reignite ∧
      isFlameout (judgeLight t c) = false := by
  have same := tallyOf_judgedLight t c
  rw [judgeLight_eq]
  generalize judgedLight t c = judged at same
  split
  · refine ⟨same, nofun, ?_⟩
    split <;> rfl
  · exact ⟨same, nofun, rfl⟩

theorem watchFire_blind (unread : c.validPit = none) (firing : c.mode.isFiring = true) :
    watchFire t c history = history := by
  simp [watchFire, unread, firing]

theorem watchFire_light (lighting : c.mode.isLighting = true) :
    watchFire t c history = history := by
  have firing : c.mode.isFiring = true := by
    cases mode : c.mode <;> simp_all [Mode.isLighting, Mode.isFiring]
  have notRunning : c.mode.isRunning = false := by
    cases mode : c.mode <;> simp_all [Mode.isLighting, Mode.isRunning]
  unfold watchFire
  split
  · rfl
  · split
    · rfl
    · rw [notRunning]
      rfl

theorem watchFire_cook (cool : overheated c = false) (running : c.mode.isRunning = true)
    (read : c.validPit = some pit) :
    watchFire t c history = PiFire.fireSample t pit c :: history := by
  have firing : c.mode.isFiring = true := by
    cases mode : c.mode <;> simp_all [Mode.isRunning, Mode.isFiring]
  simp [watchFire, cool, firing, read, running]

theorem watchFire_idle (cool : overheated c = false) (notFiring : c.mode.isFiring = false) :
    watchFire t c history = .suspended t.now :: history := by
  simp [watchFire, cool, notFiring]

theorem fallKept_safetyTick (t : Tick)
    (stamps : Stamps (· ≤ 0) FireSample.time Fallen c.safety.fallSince history) :
    FallKept t c (watchFire t c history) (safetyTick t c) := by
  have verdict := verdict_safetyTick t c
  generalize safetyTick t c = judged at verdict
  cases verdict with
  | overheat hot =>
      rw [watchFire, if_pos hot]
      exact fallKept_of_calm stamps rfl nofun rfl
  | @blind c' capped firing unread =>
      rw [watchFire_blind unread firing]
      obtain ⟨tally, notRelit, calm⟩ := judgeProbe_calm t c'
      rw [capped.tally] at tally
      have stamp : (judgeProbe t c').1.safety.fallSince = c.safety.fallSince :=
        congrArg Prod.fst tally
      exact fallKept_of_calm (stamp ▸ stamps) (congrArg Prod.snd tally) notRelit calm
  | @light c' capped lighting pit read active =>
      rw [watchFire_light lighting]
      obtain ⟨tally, notRelit, calm⟩ := judgeLight_calm t (filterPit t pit c')
      have filtered : tallyOf (filterPit t pit c') = tallyOf c := capped.tally
      rw [filtered] at tally
      have stamp : (judgeLight t (filterPit t pit c')).1.safety.fallSince = c.safety.fallSince :=
        congrArg Prod.fst tally
      exact fallKept_of_calm (stamp ▸ stamps) (congrArg Prod.snd tally) notRelit calm
  | @unlit c' capped lighting pit read inactive =>
      rw [watchFire_light lighting]
      have tries : c'.safety.reigniteRetriesLeft = c.safety.reigniteRetriesLeft :=
        congrArg Prod.snd capped.tally
      exact fallKept_of_calm (.cleared (le_refl (0 : ℚ)) _) tries nofun rfl
  | @cook c' capped cool running pit read =>
      rw [watchFire_cook cool running read, ← capped.fireSample]
      have stamp : c'.safety.fallSince = c.safety.fallSince := congrArg Prod.fst capped.tally
      have tries : c'.safety.reigniteRetriesLeft = c.safety.reigniteRetriesLeft :=
        congrArg Prod.snd capped.tally
      have limits : c'.cfg = c.cfg := by
        cases capped
        rfl
      rw [← stamp] at stamps
      obtain ⟨kept, left, relit, confirmed⟩ := fallKept_superviseFire t pit stamps
      rw [tries] at left relit
      rw [limits] at confirmed
      exact ⟨kept, left, relit, confirmed⟩
  | @idle c' capped cool notFiring =>
      rw [watchFire_idle cool notFiring]
      have tries : c'.safety.reigniteRetriesLeft = c.safety.reigniteRetriesLeft :=
        congrArg Prod.snd capped.tally
      exact fallKept_of_calm (.cleared (le_refl (0 : ℚ)) _) tries nofun rfl

end Judgement

/-! ## Who relights -/

section Relights

variable {t : Tick} {p : Phase} {c : Control} {e : Entry}

theorem switchEntry_not_reignite {mode stepMode : Mode}
    (entered : switchEntry mode stepMode = some e) : e.mode ≠ .reignite := by
  cases stepMode with
  | startup =>
      simp only [switchEntry] at entered
      split at entered <;> cases entered
      decide
  | smoke | hold =>
      simp only [switchEntry] at entered
      split at entered
      · cases entered
        decide
      · split at entered
        · cases entered
        · split at entered <;> cases entered
          decide
  | shutdown | stop =>
      cases entered
      decide
  | monitor | prime | reignite | manual | error => cases entered

theorem beginEntry_not_reignite {mode : Mode} {run : RecipeRun}
    (entered : beginEntry mode run = some e) : e.mode ≠ .reignite := by
  simp only [beginEntry] at entered
  split at entered
  · cases entered
  · exact switchEntry_not_reignite entered

theorem advanceEntry_not_reignite {mode : Mode} {run : RecipeRun}
    (entered : advanceEntry mode run = some e) : e.mode ≠ .reignite := by
  simp only [advanceEntry] at entered
  split at entered
  · cases entered
  · exact beginEntry_not_reignite entered

theorem cmdEntry_not_reignite {cmd : Cmd} (entered : cmdEntry t c cmd = some e) :
    e.mode ≠ .reignite := by
  cases cmd with
  | stop =>
      cases entered
      decide
  | mode m num flag =>
      simp only [cmdEntry] at entered
      split at entered
      · next forced =>
          cases entered
          rintro rfl
          simp [forcesHandover, Mode.isRunning] at forced
      · cases entered
  | prime num str =>
      simp only [cmdEntry] at entered
      split at entered <;> cases entered
      rintro ⟨⟩
  | clearError =>
      simp only [cmdEntry] at entered
      split at entered <;> cases entered
      decide
  | recipeStart num =>
      simp only [cmdEntry] at entered
      split at entered
      · exact beginEntry_not_reignite entered
      · cases entered
  | recipeSkip =>
      simp only [cmdEntry] at entered
      split at entered
      · exact advanceEntry_not_reignite entered
      · cases entered
  | recipeBack =>
      simp only [cmdEntry] at entered
      split at entered
      · exact beginEntry_not_reignite entered
      · cases entered
  | _ => cases entered

theorem requestEntry_not_reignite (entered : requestEntry c = some e) : e.mode ≠ .reignite := by
  unfold requestEntry at entered
  split at entered
  · cases entered
  · next r _ =>
      split at entered
      · cases entered
      · next accepted =>
          have notAsked : r.mode ≠ .reignite := by
            intro asked
            rw [asked] at accepted
            exact accepted rfl
          unfold carriedEntry at entered
          split at entered
          · split at entered <;> cases entered <;> rintro ⟨⟩
          · split at entered
            · cases entered
              rintro ⟨⟩
            · split at entered <;> cases entered
              exact notAsked
          · split at entered
            · cases entered
              rintro ⟨⟩
            · split at entered <;> cases entered
              exact notAsked
          · cases entered
            rintro ⟨⟩
          · cases entered
            exact notAsked

theorem phaseEntry_not_reignite (entered : phaseEntry t p c = some e)
    (notSupervise : p ≠ .supervise) : e.mode ≠ .reignite := by
  cases p with
  | command cmd => exact cmdEntry_not_reignite entered
  | request => exact requestEntry_not_reignite entered
  | notify =>
      simp only [phaseEntry, notifyEntry, actionEntry] at entered
      split at entered
      · cases entered
        rintro ⟨⟩
      · split at entered <;> cases entered
        rintro ⟨⟩
  | recipe =>
      simp only [phaseEntry, recipeEntry] at entered
      split at entered
      · exact advanceEntry_not_reignite entered
      · cases entered
  | supervise => exact absurd rfl notSupervise
  | timed =>
      have handsOver : handoverMode c ≠ .reignite := by
        unfold handoverMode
        extract_lets next
        split
        · next running =>
            intro same
            rw [same] at running
            cases running
        · rintro ⟨⟩
      simp only [phaseEntry, timedEntry] at entered
      split at entered
      · split at entered <;> cases entered
        exact handsOver
      · split at entered <;> cases entered
        exact handsOver
      · split at entered <;> cases entered
        rintro ⟨⟩
      · split at entered <;> cases entered
        split <;> rintro ⟨⟩
      · cases entered
  | input =>
      simp only [phaseEntry, inputEntry] at entered
      split at entered <;> cases entered
      split <;> rintro ⟨⟩
  | _ => cases entered

end Relights

/-! ## Phases and moves -/

section Kept

variable {t : Tick} {p : Phase} {c : Control} {s : Control × FireLog}

/-- The stamp of the fall and the tries of a watch. -/
def Watch.tally (w : Watch) : ℚ × ℤ := (w.safety.fallSince, w.safety.reigniteRetriesLeft)

theorem Watch.tally_enter (now : ℚ) (m : Mode) (cfg : Cfg) (pit : Option ℚ) (sp : ℚ)
    (w : Watch) :
    (w.enter now m cfg pit sp).tally =
      if m = .startup then (0, cfg.reigniteRetries) else w.tally := by
  cases m <;> rfl

theorem tallyOf_enterMode (t : Tick) {m : Mode} (notStartup : m ≠ .startup) (c : Control) :
    tallyOf (enterMode t m c) = tallyOf c := by
  have tally := congrArg Watch.tally (watchOf_enterMode t m c)
  rw [Watch.tally_enter, if_neg notStartup] at tally
  exact tally

theorem tallyOf_act (t : Tick) (c : Control) (notSupervise : p ≠ .supervise) :
    tallyOf (p.act t c) =
      if (phaseEntry t p c).any (·.mode = .startup) then (0, c.cfg.reigniteRetries)
      else tallyOf c := by
  cases entered : phaseEntry t p c with
  | none =>
      exact Safety.of_watched (fun s => (s.fallSince, s.reigniteRetriesLeft)) (fun _ => rfl)
        (act_quiet entered notSupervise)
  | some e =>
      have notCheckpoint : p ≠ .checkpoint := by
        rintro rfl
        cases entered
      have moved := watch_act t c p notSupervise notCheckpoint
      rw [entered] at moved
      obtain ⟨before, sp, watch, from_⟩ := WatchMove.enters moved
      have tally := congrArg Watch.tally watch
      rw [Watch.tally_enter] at tally
      have same : before.tally = tallyOf c := by
        rcases from_ with rfl | ⟨-, rfl⟩
        · rfl
        · rfl
      rw [same] at tally
      change tallyOf (p.act t c) = _ at tally
      simpa using tally

/-- The stamp of the fall is right, and the relights of the cook and the tries
left are within what it began with. -/
structure FireKept (s : Control × FireLog) : Prop where
  stamps : Stamps (· ≤ 0) FireSample.time Fallen s.1.safety.fallSince s.2.history
  bounded : s.2.relights + max 0 s.1.safety.reigniteRetriesLeft ≤ max 0 s.2.allowed

theorem FireKept.supervise (t : Tick) (kept : FireKept s) :
    FireKept (firePhase t .supervise s) := by
  obtain ⟨c, log⟩ := s
  obtain ⟨stamps, bounded⟩ := kept
  have judged := fallKept_safetyTick t stamps
  have acted : Phase.act t .supervise c = carryAction t (safetyTick t c) := rfl
  have enters : phaseEntry t .supervise c = superviseEntry t c := rfl
  simp only at bounded
  unfold firePhase
  simp only [acted, enters, superviseEntry, carryAction]
  generalize safetyTick t c = verdict at judged
  obtain ⟨after, action⟩ := verdict
  cases action with
  | none =>
      refine ⟨judged.stamps, ?_⟩
      have tries : after.safety.reigniteRetriesLeft = c.safety.reigniteRetriesLeft :=
        judged.tries (by rintro ⟨⟩)
      simp only [enterFire, tries]
      exact bounded
  | error =>
      have same : tallyOf (enterMode t .error after) = tallyOf after :=
        tallyOf_enterMode t (by decide) after
      have fall : (enterMode t .error after).safety.fallSince = after.safety.fallSince :=
        congrArg Prod.fst same
      have left : (enterMode t .error after).safety.reigniteRetriesLeft =
          after.safety.reigniteRetriesLeft := congrArg Prod.snd same
      constructor
      · simp only [enterFire, fall]
        exact judged.stamps
      · simp only [enterFire, left]
        rw [judged.tries (by rintro ⟨⟩)]
        exact bounded
  | reignite =>
      have same : tallyOf (enterMode t .reignite after) = tallyOf after :=
        tallyOf_enterMode t (by decide) after
      have fall : (enterMode t .reignite after).safety.fallSince = after.safety.fallSince :=
        congrArg Prod.fst same
      have left : (enterMode t .reignite after).safety.reigniteRetriesLeft =
          after.safety.reigniteRetriesLeft := congrArg Prod.snd same
      obtain ⟨cleared, positive, spent⟩ := judged.relights rfl
      have has : 0 < c.safety.reigniteRetriesLeft := positive
      have tries : after.safety.reigniteRetriesLeft = c.safety.reigniteRetriesLeft - 1 := spent
      have within : (log.relights : ℤ) + max 0 c.safety.reigniteRetriesLeft ≤
          max 0 log.allowed := bounded
      constructor
      · apply Stamps.cleared
        rw [fall]
        exact cleared.le
      · change ((log.relights + 1 : ℕ) : ℤ) +
          max 0 (enterMode t .reignite after).safety.reigniteRetriesLeft ≤ max 0 log.allowed
        rw [left, tries]
        push_cast
        omega

theorem FireKept.phase (t : Tick) (p : Phase) (kept : FireKept s) :
    FireKept (firePhase t p s) := by
  by_cases supervised : p = .supervise
  · subst supervised
    exact kept.supervise t
  obtain ⟨c, log⟩ := s
  obtain ⟨stamps, bounded⟩ := kept
  have logged : firePhase t p (c, log) = (p.act t c, enterFire t c log (phaseEntry t p c)) := by
    cases p <;> first | rfl | exact absurd rfl supervised
  rw [logged]
  have tally := tallyOf_act t c supervised
  cases entered : phaseEntry t p c with
  | none =>
      rw [entered] at tally
      have fall : (p.act t c).safety.fallSince = c.safety.fallSince := congrArg Prod.fst tally
      have left : (p.act t c).safety.reigniteRetriesLeft = c.safety.reigniteRetriesLeft :=
        congrArg Prod.snd tally
      exact ⟨fall ▸ stamps, left ▸ bounded⟩
  | some e =>
      rw [entered] at tally
      have notRelit := phaseEntry_not_reignite entered supervised
      by_cases begins : e.mode = .startup
      · simp only [Option.any_some, begins, decide_true, if_true] at tally
        have fall : (p.act t c).safety.fallSince = 0 := congrArg Prod.fst tally
        have left : (p.act t c).safety.reigniteRetriesLeft = c.cfg.reigniteRetries :=
          congrArg Prod.snd tally
        simp only [enterFire, begins]
        constructor
        · rw [fall]
          exact .cleared le_rfl _
        · simp only [left, Nat.cast_zero, zero_add, le_refl]
      · simp only [Option.any_some, begins, decide_false, Bool.false_eq_true, if_false] at tally
        have fall : (p.act t c).safety.fallSince = c.safety.fallSince := congrArg Prod.fst tally
        have left : (p.act t c).safety.reigniteRetriesLeft = c.safety.reigniteRetriesLeft :=
          congrArg Prod.snd tally
        have same : enterFire t c log (some e) = log := by
          simp only [enterFire]
        rw [same]
        exact ⟨fall ▸ stamps, left ▸ bounded⟩

theorem fallSince_controlResume (t : Tick) (o : Json) (c : Control) :
    (controlResume t o c).1.safety.fallSince = c.safety.fallSince ∨
      (controlResume t o c).1.safety.fallSince = 0 := by
  unfold controlResume
  cases resumed : resumedMode t o c with
  | none => exact Or.inl rfl
  | some m =>
      have entered := congrArg (fun w => w.tally.1)
        (watchOf_enterMode t m (restoreAim o c))
      have notified (c : Control) :
          (restoreNotify t o c).safety.fallSince = c.safety.fallSince := rfl
      have fed (c : Control) : (restoreFeed o c).safety.fallSince = c.safety.fallSince := by
        unfold restoreFeed
        extract_lets u
        split <;> rfl
      have watched (c : Control) : (restoreSafety t o c).safety.fallSince = c.safety.fallSince := by
        unfold restoreSafety
        extract_lets s
        unfold s
        split
        · rfl
        · split <;> rfl
      have placed (c : Control) :
          (restoreRecipe t o c).safety.fallSince = c.safety.fallSince := by
        unfold restoreRecipe
        split
        · rfl
        · extract_lets id load run step
          split
          · split <;> rfl
          · rfl
      have booked (c : Control) : (restoreBooks t o c).safety.fallSince = c.safety.fallSince := rfl
      simp only
      rw [notified, fed, watched, placed, booked]
      rw [Watch.tally_enter] at entered
      by_cases begins : m = .startup
      · rw [if_pos begins] at entered
        exact Or.inr entered
      · rw [if_neg begins] at entered
        exact Or.inl entered

theorem fallSince_controlRecover (b : Boot) (o : Json) (c : Control) :
    (controlRecover b o c).1.safety.fallSince = c.safety.fallSince ∨
      (controlRecover b o c).1.safety.fallSince = 0 := by
  have entered {m : Mode} (notStartup : m ≠ .startup) (c : Control) :
      (enterMode b.tick m c).safety.fallSince = c.safety.fallSince :=
    congrArg Prod.fst (tallyOf_enterMode b.tick notStartup c)
  unfold controlRecover
  cases recovered : recoveredMode b o c with
  | none => exact Or.inl rfl
  | some m =>
      simp only
      split
      · exact Or.inl (entered (by decide) c)
      · cases refusal b o m c with
        | some why => exact Or.inl (entered (by decide) _)
        | none =>
            have total (c : Control) : (restoreTotals o c).safety = c.safety := rfl
            simp only [relight, total, enterLight]
            by_cases begins : m = .startup
            · right
              rw [if_pos begins]
              exact congrArg (fun w => w.tally.1) (watchOf_enterMode b.tick .startup _)
            · left
              rw [if_neg begins]
              exact entered (by decide) _

theorem stamps_or_cleared {stamp before : ℚ} {history : List FireSample}
    (stamps : Stamps (· ≤ 0) FireSample.time Fallen before history)
    (same : stamp = before ∨ stamp = 0) :
    Stamps (· ≤ 0) FireSample.time Fallen stamp history := by
  rcases same with rfl | rfl
  · exact stamps
  · exact .cleared le_rfl _

theorem controlResume_refused {t : Tick} {o : Json} (refused : (controlResume t o c).2 = false) :
    (controlResume t o c).1 = c := by
  unfold controlResume at refused ⊢
  cases resumed : resumedMode t o c with
  | none => rfl
  | some m => simp [resumed] at refused

theorem controlRecover_refused {b : Boot} {o : Json} (refused : (controlRecover b o c).2 = false) :
    (controlRecover b o c).1 = c := by
  unfold controlRecover at refused ⊢
  cases recovered : recoveredMode b o c with
  | none => rfl
  | some m =>
      simp only [recovered] at refused
      split at refused
      · cases refused
      · split at refused <;> cases refused

theorem FireKept.move (m : Move) (kept : FireKept s) : FireKept (fireMove m s) := by
  cases m with
  | step t => exact run_invariant FireKept (fun p s kept => kept.phase t p) kept
  | reload t =>
      have tally := congrArg Watch.tally (watchOf_controlReloadSettings t s.1)
      have fall : (controlReloadSettings t s.1).safety.fallSince = s.1.safety.fallSince :=
        congrArg Prod.fst tally
      have left : (controlReloadSettings t s.1).safety.reigniteRetriesLeft =
          s.1.safety.reigniteRetriesLeft := congrArg Prod.snd tally
      exact ⟨fall ▸ kept.stamps, left ▸ kept.bounded⟩
  | resume t o =>
      have stamps := stamps_or_cleared kept.stamps (fallSince_controlResume t o s.1)
      simp only [fireMove, Move.act]
      split
      · refine ⟨stamps, ?_⟩
        simp only [FireLog.takeUp, Nat.cast_zero, zero_add, le_refl]
      · next refused =>
          rw [controlResume_refused (by simpa using refused)] at stamps ⊢
          exact ⟨stamps, kept.bounded⟩
  | recover b o =>
      have stamps := stamps_or_cleared kept.stamps (fallSince_controlRecover b o s.1)
      simp only [fireMove, Move.act]
      split
      · refine ⟨stamps, ?_⟩
        simp only [FireLog.takeUp, Nat.cast_zero, zero_add, le_refl]
      · next refused =>
          rw [controlRecover_refused (by simpa using refused)] at stamps ⊢
          exact ⟨stamps, kept.bounded⟩
  | bootCheck t resuming =>
      have tally : tallyOf (controlBootCheck t resuming s.1) = tallyOf s.1 := by
        unfold controlBootCheck
        split
        · rfl
        · split
          · exact tallyOf_enterMode t (by decide) _
          · rfl
      have fall : (controlBootCheck t resuming s.1).safety.fallSince = s.1.safety.fallSince :=
        congrArg Prod.fst tally
      have left : (controlBootCheck t resuming s.1).safety.reigniteRetriesLeft =
          s.1.safety.reigniteRetriesLeft := congrArg Prod.snd tally
      exact ⟨fall ▸ kept.stamps, left ▸ kept.bounded⟩

theorem FireKept.confirms (t : Tick) (p : Phase) (kept : FireKept s) :
    ConfirmedBy (fun _ => Fallen) t p s := by
  cases p with
  | supervise =>
      intro declared
      exact (fallKept_safetyTick t kept.stamps).confirmed declared
  | _ => trivial

theorem FireKept.moveConfirms (m : Move) (kept : FireKept s) :
    MoveConfirmedBy (fun _ => Fallen) m s := by
  cases m with
  | step t =>
      apply Along.strengthen FireKept (fun p s kept _ => kept.phase t p)
        (fun p s kept _ => kept.confirms t p) kept
      exact along_of_forall (fun _ _ _ => trivial) s
  | _ => trivial

theorem FireKept.relightsBounded (kept : FireKept s) : RelightsBounded s := by
  have bounded := kept.bounded
  unfold RelightsBounded
  omega

end Kept

/-- A log in which nothing has been judged yet. -/
def FireLog.start (c : Control) : FireLog :=
  { history := [], relights := 0, allowed := c.safety.reigniteRetriesLeft }

/-- In every run, a flame-out is declared only after the filtered pit was at or
below its reference minus the drop at every judgement of the time it has to
last, and a cook is lit again no oftener than it has tries. -/
theorem flameouts_are_confirmed {c : Control} (rested : c.safety.fallSince = 0)
    (moves : List Move) :
    Along fireMove (MoveConfirmedBy fun _ => Fallen) moves (c, .start c) ∧
      Throughout fireMove RelightsBounded moves (c, .start c) := by
  have kept : FireKept (c, .start c) := by
    constructor
    · rw [rested]
      exact .cleared le_rfl _
    · simp [FireLog.start]
  constructor
  · apply Along.strengthen FireKept (fun m s kept _ => kept.move m)
      (fun m s kept _ => kept.moveConfirms m) kept
    exact along_of_forall (fun _ _ _ => trivial) _
  · apply Along.strengthen FireKept (fun m s kept _ => kept.move m)
      (fun m s kept _ => (kept.move m).relightsBounded) kept
    exact along_of_forall (fun _ _ _ => trivial) _

/-- A fire on the bench that falls in Smoke and goes on falling in Hold. -/
def benchFall : List Move :=
  [.step (benchTick [] 1 (some 20) [.mode .startup 0 false]),
    .step (benchTick [] 200 (some 23) []),
    .step (benchTick [] 215 (some 23) []),
    .step (benchTick [] 230 (some 40) []),
    .step (benchTick [] 300 (some 70) []),
    .step (benchTick [] 400 (some 50) []),
    .step (benchTick [] 430 (some 50) [.mode .hold 230 false]),
    .step (benchTick [] 460 (some 50) [])]

theorem flameouts_are_confirmed_on_bench :
    Along fireMove (MoveConfirmedBy fun _ => Fallen) benchFall (benchInit, .start benchInit) ∧
      Throughout fireMove RelightsBounded benchFall (benchInit, .start benchInit) ∧
      (run fireMove benchFall (benchInit, .start benchInit)).1.mode = .reignite := by
  have rested : benchInit.safety.fallSince = 0 := rfl
  obtain ⟨confirmed, bounded⟩ := flameouts_are_confirmed rested benchFall
  exact ⟨confirmed, bounded, by decide +kernel⟩

/-- A change from Smoke to Hold does not start the time of a fall again. -/
theorem fall_outlasts_mode_change :
    ¬∀ (time : ℚ) (c : Control), Reachable time c → c.safety.fallSince = 0 →
      ∀ moves : List Move, (time :: moves.map fun m => m.tick.now).IsChain (· < ·) →
        Along fireMove (MoveConfirmedBy FallenAt) moves (c, .start c) ∧
          Throughout fireMove RelightsBounded moves (c, .start c) := by
  intro always
  have confirmed := (always 0 benchInit reachable_benchInit rfl benchFall (by decide)).1
  obtain ⟨-, -, -, -, -, -, -, last, -⟩ := confirmed
  exact absurd last (by decide +kernel)

end PiFire
