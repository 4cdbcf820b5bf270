import PiFire.Relay.Watch
import PiFire.Restart.RoundTrip

/-!
# The start of the daemon

A daemon that ends leaves files behind, and the next one reads and removes them
as it starts. Three parts of the control loop then decide in turn what becomes
of the grill: the recovery after a power loss, the look for a hot pit, and the
warm restart. This file models the order in which the start-up sequence asks
them, and what each is told of the others.
-/

namespace PiFire

/-- A saved file as a start finds it. -/
inductive SavedFile where
  | missing
  /-- Its text is not JSON. -/
  | garbled
  | json (o : Json)

/-- Whether the file is there. -/
def SavedFile.found : SavedFile → Bool
  | missing => false
  | _ => true

/-- What was written, when anything was. -/
def SavedFile.written : Option Json → SavedFile
  | none => missing
  | some o => json o

/-- The files a daemon leaves behind. -/
structure Leavings where
  /-- The marker of a daemon that has not ended cleanly. -/
  running : Bool
  resume : SavedFile
  checkpoint : SavedFile
  /-- Why the grill chose to restart, when it did. -/
  restartReason : Option String

/-- What a start reads besides the files: the settings, and the input of each
part of the sequence. -/
structure StartInput where
  settings : Json
  first : Tick
  boot : Boot
  check : Tick
  resume : Tick
  second : Tick

/-- The resume snapshot, which only a clean end leaves. -/
def resumeFile (d : Leavings) : SavedFile :=
  if d.running then .missing else d.resume

/-- The checkpoint, read after an unclean end or a restart the grill chose. -/
def checkpointFile (d : Leavings) : SavedFile :=
  if d.running || d.restartReason.isSome then d.checkpoint else .missing

/-- Whether a recovery is tried: the end was unclean, or the restart has a
reason. -/
def recoveryTried (d : Leavings) : Bool :=
  d.running || d.restartReason.any (· ≠ "")

/-- The state after the first pass of the sensors. -/
def firstPass (i : StartInput) : Control :=
  controlStep i.first (controlInit i.settings i.first.services.loadController)

/-- The recovery of a start. The flag says whether it decided the mode. -/
def startRecovery (i : StartInput) (d : Leavings) : Control × Bool :=
  match recoveryTried d, checkpointFile d with
  | true, .json o => controlRecover i.boot o (firstPass i)
  | _, _ => (firstPass i, false)

/-- The look for a hot pit, unless the recovery decided. It is told whether
there is a resume snapshot. -/
def startCheck (i : StartInput) (d : Leavings) : Control :=
  let recovered := startRecovery i d
  if recovered.2 then recovered.1
  else controlBootCheck i.check (resumeFile d).found recovered.1

/-- The warm restart of a start. The flag says whether it was accepted. -/
def startResume (i : StartInput) (d : Leavings) : Control × Bool :=
  let kept := controlSetCheckpointPath (startCheck i d)
  match resumeFile d with
  | .json o => controlResume i.resume o kept
  | _ => (kept, false)

/-- The start-up sequence. A resumed cook steps once more. -/
def startUp (i : StartInput) (d : Leavings) : Control :=
  let resumed := startResume i d
  if resumed.2 then controlStep i.second resumed.1 else resumed.1

end PiFire

/-!
# One cook over many lives

A cook may outlive the daemon that began it: a crash leaves the last checkpoint,
a clean end may leave a resume snapshot, and the next daemon takes the cook up
from one of the two. This file runs the lives of the daemon one after another
and counts how often a cook is lit again by the daemon itself.
-/

namespace PiFire

open Transition

/-! ## The lives -/

/-- A daemon that runs, with the reason for a restart it may have left, or the
files of one that ended. -/
inductive Daemon where
  | up (c : Control) (restartReason : Option String)
  | down (d : Leavings)

/-- What happens to the daemon. -/
inductive Happening where
  | step (t : Tick)
  | reload (t : Tick)
  /-- The watchdog of the network asks for a restart. -/
  | chooseRestart (reason : String)
  /-- The power fails, or the process dies. -/
  | crash
  /-- A clean end, which may hand the cook over. -/
  | exit (t : Tick) (handsOver : Bool)
  | start (i : StartInput)
  /-- A start cut short, with the files it had not removed yet. -/
  | startCut (resume restart checkpoint : Bool)

/-- The daemon, and how often the cook has been lit again by itself. -/
structure Lives where
  daemon : Daemon
  relit : ℕ

/-- One phase, with the count of the cook: in Stop the cook is over. -/
def countPhase (t : Tick) (p : Phase) (s : Control × ℕ) : Control × ℕ :=
  let c := p.act t s.1
  (c, if c.mode = .stop then 0 else s.2)

/-- One step, with the count of the cook. -/
def countStep (t : Tick) (s : Control × ℕ) : Control × ℕ :=
  run (countPhase t) (phases t) s

/-- Whether the recovery of a start lights the grill. -/
def startLights (i : StartInput) (d : Leavings) : Bool :=
  (startRecovery i d).2 && (startRecovery i d).1.mode.isLighting

/-- A start that lights the grill goes on with the cook, as does one that
resumes it; any other ends the cook. -/
def startCount (i : StartInput) (d : Leavings) (relit : ℕ) : ℕ :=
  if startLights i d then relit + 1
  else if (startResume i d).2 then relit
  else 0

/-- A start, with the count of the cook. -/
def countStart (i : StartInput) (d : Leavings) (relit : ℕ) : Control × ℕ :=
  let resumed := startResume i d
  let counted := (resumed.1, startCount i d relit)
  if resumed.2 then countStep i.second counted else counted

/-- The files of a daemon that ends. -/
def leave (running : Bool) (resume : SavedFile) (c : Control) (reason : Option String) :
    Leavings :=
  { running := running
    resume := resume
    checkpoint := .written c.checkpoint.file
    restartReason := reason }

/-- What happens next. -/
def Happening.act : Happening → Lives → Lives
  | step t, ⟨.up c reason, n⟩ => let s := countStep t (c, n); ⟨.up s.1 reason, s.2⟩
  | reload t, ⟨.up c reason, n⟩ => ⟨.up (controlReloadSettings t c) reason, n⟩
  | chooseRestart reason, ⟨.up c _, n⟩ => ⟨.up c (some reason), n⟩
  | crash, ⟨.up c reason, n⟩ => ⟨.down (leave true .missing c reason), n⟩
  | exit t handsOver, ⟨.up c reason, n⟩ =>
      let resume := if handsOver then SavedFile.written (resumeJson t c) else .missing
      ⟨.down (leave false resume c reason), n⟩
  | start i, ⟨.down d, n⟩ => let s := countStart i d n; ⟨.up s.1 none, s.2⟩
  | startCut resume restart checkpoint, ⟨.down d, n⟩ =>
      ⟨.down
        { running := true
          resume := if resume then d.resume else .missing
          checkpoint := if checkpoint then d.checkpoint else .missing
          restartReason := if restart then d.restartReason else none }, n⟩
  | _, s => s

/-- A grill on which no daemon has run. -/
def Lives.first : Lives :=
  { daemon := .down
      { running := false, resume := .missing, checkpoint := .missing, restartReason := none }
    relit := 0 }

/-! ## What the files count -/

/-- The recoveries a snapshot counts. -/
def savedRecoveries (o : Json) : ℤ := jsonInt o ["recoveries"] 0

/-- A number of recoveries that goes with a cook lit again `relit` times. -/
def Accounts (relit : ℕ) (recoveries : ℤ) : Prop :=
  0 ≤ recoveries ∧ (relit ≠ 0 → 1 ≤ recoveries)

/-- A file that goes with a cook lit again `relit` times. -/
def SavedFile.Accounts (relit : ℕ) (file : SavedFile) : Prop :=
  ∀ o, file = .json o → PiFire.Accounts relit (savedRecoveries o)

/-- A running daemon whose books, and checkpoint, account for the cook. -/
structure Accounted (relit : ℕ) (c : Control) : Prop where
  recoveries : Accounts relit c.recoveries
  checkpoint : (SavedFile.written c.checkpoint.file).Accounts relit

/-- The cook was lit again at most once, and the books show it. -/
def Lives.Sound (s : Lives) : Prop :=
  s.relit ≤ 1 ∧
    match s.daemon with
    | .up c _ => Accounted s.relit c
    | .down d => d.resume.Accounts s.relit ∧ d.checkpoint.Accounts s.relit

/-- No warm restart takes up a snapshot that counts a recovery. -/
def Remembers : Happening → Lives → Prop
  | .start i, ⟨.down d, _⟩ =>
      (startResume i d).2 → ∀ o, resumeFile d = .json o → savedRecoveries o < 1
  | _, _ => True

/-- What a start that lights the grill has found: the checkpoint of a fire that
was burning or had been proven, no tuning run, an outage of an allowed and known
length. -/
def LightsSafely : Happening → Lives → Prop
  | .start i, ⟨.down d, _⟩ =>
      startLights i d → ∃ o m, checkpointFile d = .json o ∧ snapshotMode o = some m ∧
        m.isFiring ∧ unprovenLight o m = false ∧ i.boot.tunerInterrupted = false ∧
        snapshotAge i.boot.tick o ≤ (firstPass i).cfg.powerLossMaxS ∧
        (i.boot.tick.bootId = jsonStr o ["boot_id"] "" ∨ i.boot.synced ∨
          heatKept o (firstPass i))
  | _, _ => True

/-! ## One life -/

theorem accounts_zero {relit : ℕ} {recoveries : ℤ} (accounts : Accounts relit recoveries) :
    Accounts 0 recoveries :=
  ⟨accounts.1, fun lit => absurd rfl lit⟩

theorem Accounts.ite {relit : ℕ} {recoveries : ℤ} (accounts : Accounts relit recoveries)
    (isOver : Prop) [Decidable isOver] : Accounts (if isOver then 0 else relit) recoveries := by
  split
  · exact accounts_zero accounts
  · exact accounts

theorem SavedFile.Accounts.ite {relit : ℕ} {file : SavedFile} (accounts : file.Accounts relit)
    (isOver : Prop) [Decidable isOver] : file.Accounts (if isOver then 0 else relit) :=
  fun o written => (accounts o written).ite isOver

theorem accounts_missing (relit : ℕ) : SavedFile.missing.Accounts relit := by
  intro o written
  cases written

theorem accounts_resumeJson {relit : ℕ} {c : Control} (accounts : Accounts relit c.recoveries)
    (t : Tick) : (SavedFile.written (resumeJson t c)).Accounts relit := by
  cases written : resumeJson t c with
  | none => exact accounts_missing relit
  | some snapshot =>
      rintro o ⟨rfl⟩
      have counted : savedRecoveries snapshot = c.recoveries := by
        rw [resumeJson_eq_some t c written]
        exact truncate_intCast c.recoveries
      rw [counted]
      exact accounts

section Life

variable {relit : ℕ} {c : Control}

theorem Accounted.checkpointed (accounted : Accounted relit c) (t : Tick) :
    (SavedFile.written (nextCheckpoint t c).file).Accounts relit := by
  unfold nextCheckpoint
  extract_lets k
  have kept : (SavedFile.written k.file).Accounts relit := accounted.checkpoint
  split
  · split
    · split
      · exact kept
      · split
        next snapshot written =>
          rw [← written]
          exact accounts_resumeJson accounted.recoveries t
        next => exact kept
    · split
      · exact accounts_missing relit
      · exact kept
  · exact kept

theorem Accounted.act (accounted : Accounted relit c) (t : Tick) (p : Phase) :
    Accounted (if (p.act t c).mode = .stop then 0 else relit) (p.act t c) where
  recoveries := by
    rcases act_recoveries t c p with same | ⟨stopped, none⟩
    · rw [same]
      exact accounted.recoveries.ite _
    · rw [if_pos stopped, none]
      exact ⟨le_refl 0, fun lit => absurd rfl lit⟩
  checkpoint := by
    by_cases written : p = .checkpoint
    · subst written
      exact (accounted.checkpointed t).ite _
    · rw [act_checkpoint t c written]
      exact accounted.checkpoint.ite _

theorem Accounted.countStep (accounted : Accounted relit c) (t : Tick) :
    Accounted (countStep t (c, relit)).2 (countStep t (c, relit)).1 := by
  apply run_invariant (fun s : Control × ℕ => Accounted s.2 s.1) _ accounted
  intro p s before
  exact before.act t p

theorem countStep_le (t : Tick) (s : Control × ℕ) : (countStep t s).2 ≤ s.2 := by
  apply run_invariant (fun after : Control × ℕ => after.2 ≤ s.2) _ (le_refl s.2)
  intro p after before
  simp only [countPhase]
  split
  · exact Nat.zero_le s.2
  · exact before

end Life

/-! ## From one life to the next -/

section Start

variable (i : StartInput) (d : Leavings)

theorem ledgerOf_firstPass : ledgerOf (firstPass i) = (0, .init) := by
  apply controlStep_invariant (fun c => ledgerOf c = (0, .init)) _ rfl
  intro p c ledger
  have recoveries : c.recoveries = 0 := congrArg Prod.fst ledger
  have file : c.checkpoint = .init := congrArg Prod.snd ledger
  have counted : (p.act i.first c).recoveries = 0 := by
    rcases act_recoveries i.first c p with same | ⟨-, none⟩
    · exact same.trans recoveries
    · exact none
  have kept : (p.act i.first c).checkpoint = .init := by
    by_cases written : p = .checkpoint
    · subst written
      have disabled : nextCheckpoint i.first c = c.checkpoint := by
        unfold nextCheckpoint
        rw [file]
        rfl
      exact disabled.trans file
    · exact (act_checkpoint i.first c written).trans file
  rw [ledgerOf, counted, kept]

theorem ledgerOf_relight (b : Boot) (o : Json) (m : Mode) (c : Control) :
    ledgerOf (relight b o m c) = (savedRecoveries o + 1, c.checkpoint) := by
  have total (c : Control) : ledgerOf (restoreTotals o c) = ledgerOf c := rfl
  rw [relight, total, enterLight]
  split
  · rw [ledgerOf_enterMode b.tick _ (by decide)]
    rfl
  · rw [ledgerOf_enterMode b.tick _ (by decide)]
    rfl

theorem controlRecover_lights {b : Boot} {o : Json} {c : Control}
    (decided : (controlRecover b o c).2 = true)
    (lights : (controlRecover b o c).1.mode.isLighting = true) :
    ∃ m, recoveredMode b o c = some m ∧ tuningInterrupted b o m = false ∧
      refusal b o m c = none ∧ (controlRecover b o c).1 = relight b o m c := by
  unfold controlRecover at decided lights ⊢
  cases recovered : recoveredMode b o c with
  | none => simp [recovered] at decided
  | some m =>
      simp only [recovered] at lights ⊢
      by_cases tuning : tuningInterrupted b o m = true
      · rw [if_pos tuning, enterMode_mode] at lights
        cases lights
      · rw [if_neg tuning] at lights ⊢
        cases refused : refusal b o m c with
        | some why =>
            simp only [refused, enterMode_mode] at lights
            cases lights
        | none => exact ⟨m, rfl, by simpa using tuning, refused, rfl⟩

theorem ledgerOf_controlRecover {b : Boot} {o : Json} {c : Control}
    (dark : ¬((controlRecover b o c).2 = true ∧ (controlRecover b o c).1.mode.isLighting = true)) :
    ledgerOf (controlRecover b o c).1 = ledgerOf c := by
  unfold controlRecover at dark ⊢
  cases recovered : recoveredMode b o c with
  | none => rfl
  | some m =>
      simp only [recovered] at dark ⊢
      by_cases tuning : tuningInterrupted b o m = true
      · rw [if_pos tuning]
        exact ledgerOf_enterMode b.tick c (by decide)
      · rw [if_neg tuning] at dark ⊢
        cases refused : refusal b o m c with
        | some why => exact ledgerOf_enterMode b.tick _ (by decide)
        | none =>
            refine absurd ⟨by simp [refused], ?_⟩ dark
            have entered := congrArg Relay.mode (relayOf_relight b o c m)
            simp only [refused]
            change (relight b o m c).mode = _ at entered
            rw [entered]
            change (if m = .startup then Mode.startup else Mode.reignite).isLighting = true
            split <;> rfl

theorem ledgerOf_controlResume (t : Tick) (o : Json) (c : Control) :
    ledgerOf (controlResume t o c).1 = ledgerOf c := by
  unfold controlResume
  cases resumed : resumedMode t o c with
  | none => rfl
  | some m =>
      have notStop : m ≠ .stop := by
        have accepted := (Option.filter_eq_some_iff.mp resumed).2
        rintro rfl
        simp [resumable, Mode.isFiring] at accepted
      have booked (c : Control) : ledgerOf (restoreBooks t o c) = ledgerOf c := rfl
      have notified (c : Control) : ledgerOf (restoreNotify t o c) = ledgerOf c := rfl
      have placed (c : Control) : ledgerOf (restoreRecipe t o c) = ledgerOf c := by
        unfold restoreRecipe
        split
        · rfl
        · extract_lets id load run step
          split
          · split <;> rfl
          · rfl
      have watched (c : Control) : ledgerOf (restoreSafety t o c) = ledgerOf c := rfl
      have fed (c : Control) : ledgerOf (restoreFeed o c) = ledgerOf c := by
        unfold restoreFeed
        extract_lets u
        split <;> rfl
      simp only
      rw [notified, fed, watched, placed, booked, ledgerOf_enterMode t _ notStop]
      rfl

theorem ledgerOf_startCheck (dark : startLights i d = false) :
    ledgerOf (startCheck i d) = (0, .init) := by
  have recovered : ledgerOf (startRecovery i d).1 = (0, .init) := by
    rw [← ledgerOf_firstPass i]
    unfold startLights at dark
    unfold startRecovery at dark ⊢
    split
    next o tried file =>
      simp only [tried, file] at dark
      apply ledgerOf_controlRecover
      rintro ⟨decided, lights⟩
      simp [decided, lights] at dark
    next => rfl
  simp only [startCheck]
  split
  · exact recovered
  · unfold controlBootCheck
    split
    · exact recovered
    · split
      · rw [ledgerOf_enterMode _ _ (by decide)]
        exact recovered
      · exact recovered

theorem ledgerOf_startResume :
    (startResume i d).1.recoveries = (startCheck i d).recoveries ∧
      (startResume i d).1.checkpoint.file = (startCheck i d).checkpoint.file := by
  have kept : ledgerOf (startResume i d).1 =
      ledgerOf (controlSetCheckpointPath (startCheck i d)) := by
    simp only [startResume]
    split
    · exact ledgerOf_controlResume _ _ _
    · rfl
  constructor
  · exact congrArg Prod.fst kept
  · exact congrArg (fun ledger => ledger.2.file) kept

theorem startLights_found (lights : startLights i d = true) :
    ∃ o m, checkpointFile d = .json o ∧ recoveredMode i.boot o (firstPass i) = some m ∧
      tuningInterrupted i.boot o m = false ∧ refusal i.boot o m (firstPass i) = none ∧
      startRecovery i d = (relight i.boot o m (firstPass i), true) := by
  simp only [startLights, Bool.and_eq_true] at lights
  obtain ⟨decided, lighting⟩ := lights
  unfold startRecovery at decided lighting ⊢
  split at decided
  next o tried file =>
    simp only [tried, file] at lighting ⊢
    obtain ⟨m, recovered, calm, allowed, relit⟩ := controlRecover_lights decided lighting
    exact ⟨o, m, rfl, recovered, calm, allowed, Prod.ext relit decided⟩
  next => cases decided

end Start

/-! ## At most once a cook -/

section Once

variable {relit : ℕ}

theorem accounted_lit {i : StartInput} {d : Leavings}
    (checkpoint : d.checkpoint.Accounts relit) (lights : startLights i d = true) :
    relit = 0 ∧ (startResume i d).2 = false ∧ Accounted 1 (startResume i d).1 := by
  obtain ⟨o, m, file, recovered, calm, allowed, relights⟩ := startLights_found i d lights
  have counted : savedRecoveries o < 1 := by
    by_contra more
    have refused : jsonInt o ["recoveries"] 0 ≥ 1 := not_lt.mp more
    simp [refusal, refused] at allowed
  have saved : d.checkpoint = .json o := by
    unfold checkpointFile at file
    split at file
    · exact file
    · cases file
  obtain ⟨nonneg, positive⟩ := checkpoint o saved
  have first : relit = 0 := by
    by_contra again
    exact absurd (positive again) (by omega)
  have checked : startCheck i d = relight i.boot o m (firstPass i) := by
    simp only [startCheck, relights, if_true]
  have lit : (startCheck i d).mode.isLighting = true := by
    simp only [startLights, relights, Bool.true_and] at lights
    rw [checked]
    exact lights
  have notStop : (startCheck i d).mode ≠ .stop := by
    intro stopped
    rw [stopped] at lit
    cases lit
  have refused : (startResume i d).2 = false := by
    simp only [startResume]
    split
    · have declined (o : Json) :
          resumedMode i.resume o (controlSetCheckpointPath (startCheck i d)) = none := by
        apply Option.filter_eq_none_iff.mpr
        intro m _
        have other : ((controlSetCheckpointPath (startCheck i d)).mode == .stop) = false :=
          beq_false_of_ne notStop
        simp [other]
      simp only [controlResume, declined]
    · rfl
  have ledger := ledgerOf_relight i.boot o m (firstPass i)
  rw [← checked] at ledger
  obtain ⟨recoveries, kept⟩ := ledgerOf_startResume i d
  have books : (startResume i d).1.recoveries = savedRecoveries o + 1 :=
    recoveries.trans (congrArg Prod.fst ledger)
  have none : (startResume i d).1.checkpoint.file = none := by
    refine kept.trans ((congrArg (fun ledger => ledger.2.file) ledger).trans ?_)
    exact congrArg (fun ledger => ledger.2.file) (ledgerOf_firstPass i)
  refine ⟨first, refused, ⟨?_, ?_⟩⟩
  · rw [books]
    exact ⟨by omega, fun _ => by omega⟩
  · rw [none]
    exact accounts_missing 1

theorem accounted_dark {i : StartInput} {d : Leavings} (dark : startLights i d = false) :
    Accounted 0 (startResume i d).1 := by
  obtain ⟨recoveries, kept⟩ := ledgerOf_startResume i d
  have ledger := ledgerOf_startCheck i d dark
  have books : (startResume i d).1.recoveries = 0 :=
    recoveries.trans (congrArg Prod.fst ledger)
  have none : (startResume i d).1.checkpoint.file = none :=
    kept.trans (congrArg (fun ledger => ledger.2.file) ledger)
  constructor
  · rw [books]
    exact ⟨le_refl 0, fun lit => absurd rfl lit⟩
  · rw [none]
    exact accounts_missing 0

theorem sound_countStart {i : StartInput} {d : Leavings} (sound : Lives.Sound ⟨.down d, relit⟩)
    (remembers : Remembers (.start i) ⟨.down d, relit⟩) :
    (countStart i d relit).2 ≤ 1 ∧ Accounted (countStart i d relit).2 (countStart i d relit).1 := by
  obtain ⟨once, resume, checkpoint⟩ := sound
  simp only [countStart]
  cases lights : startLights i d with
  | true =>
      obtain ⟨first, refused, accounted⟩ := accounted_lit checkpoint lights
      have count : startCount i d relit = 1 := by
        rw [startCount, lights, if_pos rfl]
        exact congrArg (· + 1) first
      rw [refused, count]
      exact ⟨le_refl 1, accounted⟩
  | false =>
      have accounted := accounted_dark lights
      cases resumed : (startResume i d).2 with
      | false =>
          have count : startCount i d relit = 0 := by
            simp [startCount, lights, resumed]
          simp only [Bool.false_eq_true, if_false, count]
          exact ⟨Nat.zero_le 1, accounted⟩
      | true =>
          have first : relit = 0 := by
            by_contra again
            unfold startResume at resumed
            split at resumed
            next o file =>
              have saved : d.resume = .json o := by
                unfold resumeFile at file
                split at file
                · cases file
                · exact file
              have few := remembers (by unfold startResume; simp [file, resumed]) o file
              have many := (resume o saved).2 again
              omega
            next => cases resumed
          have count : startCount i d relit = 0 := by
            simp [startCount, lights, resumed, first]
          simp only [if_true, count]
          have stepped := accounted.countStep i.second
          have few := countStep_le i.second ((startResume i d).1, 0)
          exact ⟨few.trans (Nat.zero_le 1), stepped⟩

theorem sound_act (h : Happening) (s : Lives) (sound : s.Sound) (remembers : Remembers h s) :
    (h.act s).Sound := by
  obtain ⟨daemon, relit⟩ := s
  cases daemon with
  | up c reason =>
      obtain ⟨once, accounted⟩ := sound
      cases h with
      | step t =>
          have few := countStep_le t (c, relit)
          exact ⟨few.trans once, accounted.countStep t⟩
      | reload t =>
          have kept := watchOf_controlReloadSettings t c
          have recoveries : (controlReloadSettings t c).recoveries = c.recoveries :=
            congrArg Watch.recoveries kept
          have file : (controlReloadSettings t c).checkpoint = c.checkpoint :=
            congrArg Watch.checkpoint kept
          refine ⟨once, ⟨?_, ?_⟩⟩
          · rw [recoveries]
            exact accounted.recoveries
          · rw [file]
            exact accounted.checkpoint
      | chooseRestart reason => exact ⟨once, accounted⟩
      | crash => exact ⟨once, accounts_missing relit, accounted.checkpoint⟩
      | exit t handsOver =>
          refine ⟨once, ?_, accounted.checkpoint⟩
          simp only [leave]
          split
          · exact accounts_resumeJson accounted.recoveries t
          · exact accounts_missing relit
      | start | startCut => exact ⟨once, accounted⟩
  | down d =>
      cases h with
      | start i => exact sound_countStart sound remembers
      | startCut resume restart checkpoint =>
          obtain ⟨once, resumes, checkpoints⟩ := sound
          refine ⟨once, ?_, ?_⟩
          · simp only
            split
            · exact resumes
            · exact accounts_missing relit
          · simp only
            split
            · exact checkpoints
            · exact accounts_missing relit
      | _ => exact sound

/-- A start lights the grill only on a fire it may light again. -/
theorem lightsSafely (h : Happening) (s : Lives) : LightsSafely h s := by
  obtain ⟨daemon, relit⟩ := s
  cases h with
  | start i =>
      cases daemon with
      | up => trivial
      | down d =>
          intro lights
          obtain ⟨o, m, file, recovered, calm, allowed, -⟩ := startLights_found i d lights
          obtain ⟨named, firing⟩ := Option.filter_eq_some_iff.mp recovered
          simp only [Bool.and_eq_true] at firing
          simp only [refusal] at allowed
          split at allowed
          · cases allowed
          next few =>
            split at allowed
            · cases allowed
            next proven =>
              split at allowed
              · cases allowed
              next known =>
                split at allowed
                · cases allowed
                next short =>
                  have undisturbed : i.boot.tunerInterrupted = false := by
                    simpa [tuningInterrupted, few, proven] using calm
                  refine ⟨o, m, file, named, firing.1.1, by simpa using proven, undisturbed,
                    not_lt.mp short, ?_⟩
                  have told : outageKnown i.boot o (firstPass i) = true := by simpa using known
                  simpa [outageKnown, or_assoc] using told
  | _ => trivial

end Once

/-- While no warm restart takes up a cook that was recovered before, a cook is lit
again by the daemon at most once, over all its lives; and a start that lights the
grill has found a fire it may light. -/
theorem relit_at_most_once {happenings : List Happening}
    (remembers : Along Happening.act Remembers happenings Lives.first) :
    Throughout Happening.act (fun s => s.relit ≤ 1) happenings Lives.first ∧
      Along Happening.act LightsSafely happenings Lives.first := by
  have first : Lives.first.Sound :=
    ⟨Nat.zero_le 1, accounts_missing 0, accounts_missing 0⟩
  refine ⟨?_, along_of_forall (fun h _ s => lightsSafely h s) _⟩
  apply remembers.strengthen Lives.Sound sound_act _ first
  intro h s sound remembers
  exact (sound_act h s sound remembers).1

/-! ## A cook lit again twice -/

/-- A start on the bench at a time. -/
def benchStart (now : ℚ) : StartInput :=
  { settings := .obj []
    first := benchTick [] now (some 100) []
    boot := benchBoot now
    check := benchTick [] now (some 100) []
    resume := benchTick [] now (some 100) []
    second := benchTick [] now (some 100) [] }

/-- A Hold on the bench, and a power cut. -/
def benchCut : List Happening :=
  [.start (benchStart 1),
    .step (benchTick [] 11 (some 100) [.mode .hold 225 false]),
    .step (benchTick [] 12 (some 100) [.mode .hold 225 true]),
    .step (benchTick [] 22 (some 100) []),
    .crash,
    .start (benchStart 30)]

/-- After a power cut a cook is lit again once. -/
theorem relit_at_most_once_on_bench :
    Throughout Happening.act (fun s => s.relit ≤ 1) benchCut Lives.first := by
  apply (relit_at_most_once _).1
  refine ⟨?_, trivial, trivial, trivial, trivial, ?_, trivial⟩
  · rintro - o ⟨⟩
  · rintro - o ⟨⟩

/-- A warm restart between two power cuts lets the grill light the cook twice. -/
theorem warm_restart_lights_twice :
    ¬∀ happenings : List Happening,
      Throughout Happening.act (fun s => s.relit ≤ 1) happenings Lives.first := by
  intro always
  have once := always (benchCut ++
    [.step (benchTick [] 41 (some 100) []),
      .exit (benchTick [] 42 (some 100) []) true,
      .start (benchStart 50),
      .step (benchTick [] 61 (some 100) []),
      .crash,
      .start (benchStart 70)])
  exact absurd once (by decide +kernel)

end PiFire
