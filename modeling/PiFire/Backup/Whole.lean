import PiFire.Backup.Restore

/-!
# What a restore that is cut short leaves

The mark is removed before anything is replaced, so a restore that stops is not taken
up again. Between the copy of the settings and that of the database the grill has
the one of the backup and the other of its own. This file says when what the next
start finds is of one piece.
-/

namespace PiFire.Backup

open Transition Interrupt

variable {β : Type}

/-- The files a start reads: settings, database and the database's log. -/
structure Files (β : Type) where
  settings : Option β
  database : Option β
  wal : Option β
  deriving DecidableEq

def Disk.live (d : Disk β) : Files β := ⟨d.settings, d.database, d.wal⟩

/-- The files of a backup. -/
def restoredFiles (settings database : β) : Files β := ⟨some settings, some database, none⟩

/-- A backup of these settings and this database is staged. -/
structure IsStage (valid : β → Bool) (settings database : β) (stage : Stage β) : Prop where
  manifest : stage.manifest = true
  accepted : valid settings = true
  settings : stage.settings = .file settings
  database : stage.database = .file database

/-- A disk on which a backup is staged and marked as pending. -/
structure IsPending (valid : β → Bool) (settings database : β) (d : Disk β) : Prop where
  pending : d.pending = true
  staged : ∃ stage, d.stage = some stage ∧ IsStage valid settings database stage

/-- Every file operation works. -/
def allWork : FileOp → Fate := fun _ => .works

/-- The files that the program goes on with: those the start that was to apply the
restore leaves or, where the process stops in it, the next start. -/
def seen (valid : β → Bool) (fate : FileOp → Fate) (d : Disk β) : Files β :=
  match applyStaged valid fate d with
  | (some _, d') => d'.live
  | (none, d') => (applyStaged valid allWork d').2.live

/-- All or nothing: the program goes on with the old files or with those of the backup,
and a restore that reports a failure has left the old ones. -/
def AllOrNothing (valid : β → Bool) (settings database : β) (fate : FileOp → Fate)
    (d : Disk β) : Prop :=
  (seen valid fate d = d.live ∨ seen valid fate d = restoredFiles settings database) ∧
    ∀ d', applyStaged valid fate d = (some (-1), d') → d'.live = d.live

/-! ### The condition -/

/-- The start gets as far as to replace the settings. -/
def Replaces (fate : FileOp → Fate) : Prop :=
  fate .readPending = .works ∧ fate .unlinkPending ≠ .stops ∧ fate .findManifest = .works ∧
    fate .checkSettings = .works ∧ fate .checkDatabase = .works ∧ fate .copySettings = .works

/-- The process stops after the settings are replaced and before the database is. -/
def StopsBetween (fate : FileOp → Fate) : Prop :=
  fate .unlinkWal = .stops ∨ fate .unlinkShm = .stops ∨ fate .copyDatabase = .stops

instance (fate : FileOp → Fate) : Decidable (StopsBetween fate) :=
  inferInstanceAs (Decidable (_ ∨ _ ∨ _))

/-- The process stops at the end of a restore, with the stage still there. -/
def StopsAtStage (fate : FileOp → Fate) : Prop :=
  fate .removeStage = .stops ∨ fate .removeStage = .fails ∧ fate .writeRestored = .stops

/-- The process stops from the cook files on, with the stage still there. -/
def StopsInCooks (fate : FileOp → Fate) (found : List String)
    (staged : List (String × Staged β)) : Prop :=
  (fate .listCooks = .stops ∨
  (fate .listCooks = .works ∧ ∃ name ∈ found, fate (.unlinkCook name) = .stops) ∨
  fate .makeCooks = .stops ∨ fate .listStaged = .stops ∨
  (fate .listStaged = .works ∧ ∃ c ∈ staged, fate (.copyCook c.1) = .stops)) ∨
  StopsAtStage fate

/-- The files between the copy of the settings and that of the database. -/
def halfway (fate : FileOp → Fate) (settings : β) (d : Disk β) : Files β :=
  ⟨some settings, d.database, if fate .unlinkWal = .works then none else d.wal⟩

/-- Once the settings are replaced, the process does not stop before the database is,
unless the mark could not be removed; the database is copied; and its old log is
removed. Or else the files left are of one piece by chance. -/
def LeftWhole (settings database : β) (fate : FileOp → Fate) (d : Disk β) : Prop :=
  Replaces fate →
    if StopsBetween fate then
      fate .unlinkPending = .fails ∨ halfway fate settings d = d.live ∨
        halfway fate settings d = restoredFiles settings database
    else if fate .copyDatabase = .fails then halfway fate settings d = d.live
    else fate .unlinkWal = .fails → d.wal = none ∨
      (d.settings = some settings ∧ d.database = some database) ∨
      (fate .unlinkPending = .fails ∧ StopsInCooks fate (cookNames d) (stagedCooks d))

/-! ### What the cook files leave alone -/

/-- Disks that differ in their cook files at most. -/
def SameButCooks (d d' : Disk β) : Prop :=
  d'.live = d.live ∧ d'.pending = d.pending ∧ d'.stage = d.stage

instance : Std.Refl (SameButCooks (β := β)) := ⟨fun _ => ⟨rfl, rfl, rfl⟩⟩

instance : IsTrans (Disk β) SameButCooks where
  trans _ _ _ first second :=
    ⟨second.1.trans first.1, second.2.1.trans first.2.1, second.2.2.trans first.2.2⟩

theorem unlinkCooks_same (names : List String) : Moves SameButCooks (unlinkCooks (β := β) names) := by
  induction names with
  | nil => exact moves_pure ()
  | cons name names ih =>
    rw [unlinkCooks]
    apply moves_bind
    · apply moves_attempt
      rintro d _ ⟨⟩
      exact ⟨rfl, rfl, rfl⟩
    · intro _
      exact ih

theorem look_same (op : FileOp) (test : Disk β → Bool) : Moves SameButCooks (look op test) := by
  apply moves_attempt
  intro d d' found
  split at found
  · cases found
    exact refl d
  · cases found

theorem copyCooks_same (staged : List (String × Staged β)) :
    Moves SameButCooks (copyCooks staged) := by
  induction staged with
  | nil => exact moves_pure ()
  | cons c staged ih =>
    rcases c with ⟨name, _ | _ | content⟩
    · exact moves_bind (look_same _ _) fun _ => ih
    · exact moves_bind (look_same _ _) fun _ => ih
    · apply moves_bind
      · apply moves_attempt
        rintro d _ ⟨⟩
        exact ⟨rfl, rfl, rfl⟩
      · intro _
        exact ih

theorem replaceCooks_same (found : List String) (staged : List (String × Staged β)) :
    Moves SameButCooks (replaceCooks found staged) := by
  rw [replaceCooks]
  apply moves_bind
  · rw [removeOldCooks]
    apply moves_bind (look_same _ _)
    intro listed
    split
    · exact unlinkCooks_same found
    · exact moves_pure ()
  · intro _
    apply moves_bind
    · apply moves_attempt
      rintro d _ ⟨⟩
      exact refl d
    · intro _
      rw [copyNewCooks]
      apply moves_bind (look_same _ _)
      intro listed
      split
      · exact copyCooks_same staged
      · exact moves_pure ()

/-! ### Where the cook files stop -/

theorem unlinkCooks_stops (fate : FileOp → Fate) (names : List String) (d : Disk β) :
    (unlinkCooks names fate d).1 = none ↔ ∃ name ∈ names, fate (.unlinkCook name) = .stops := by
  induction names generalizing d with
  | nil => simp [unlinkCooks]
  | cons name names ih => simp [unlinkCooks, stopped_bind, change, ih]

theorem copyCooks_stops (fate : FileOp → Fate) (staged : List (String × Staged β)) (d : Disk β) :
    (copyCooks staged fate d).1 = none ↔ ∃ c ∈ staged, fate (.copyCook c.1) = .stops := by
  induction staged generalizing d with
  | nil => simp [copyCooks]
  | cons c staged ih =>
    rcases c with ⟨name, _ | _ | content⟩ <;>
      simp [copyCooks, stopped_bind, change, look, ih]

theorem look_true_bind (op : FileOp) (k : Applying β Unit) (fate : FileOp → Fate) (d : Disk β) :
    ((look op (fun _ => true) >>= fun listed => if listed = true then k else pure ()) fate d).1
        = none ↔ fate op = .stops ∨ fate op = .works ∧ (k fate d).1 = none := by
  cases here : fate op with
  | works => simp [bind_apply, look, attempt, here]
  | fails => simp [bind_apply, look, attempt, here]
  | stops => simp [bind_apply, look, attempt, here]

theorem replaceCooks_stops (fate : FileOp → Fate) (found : List String)
    (staged : List (String × Staged β)) (d : Disk β) :
    (replaceCooks found staged fate d).1 = none ↔
      fate .listCooks = .stops ∨
      (fate .listCooks = .works ∧ ∃ name ∈ found, fate (.unlinkCook name) = .stops) ∨
      fate .makeCooks = .stops ∨ fate .listStaged = .stops ∨
      (fate .listStaged = .works ∧ ∃ c ∈ staged, fate (.copyCook c.1) = .stops) := by
  have first := look_true_bind FileOp.listCooks (unlinkCooks found) fate d
  rw [unlinkCooks_stops] at first
  have last : ∀ d : Disk β, (copyNewCooks staged fate d).1 = none ↔ _ := fun d =>
    look_true_bind FileOp.listStaged (copyCooks staged) fate d
  rw [replaceCooks, stopped_bind, removeOldCooks, first, stopped_bind, change, stopped_attempt,
    last, copyCooks_stops, or_assoc]

/-! ### What each part leaves -/

/-- What the part from the cook files on leaves: the files a start reads and the mark,
whatever happens; the stage, where the process stops before it is removed. -/
structure LeavesFiles (found : List String) (staged : List (String × Staged β))
    (fate : FileOp → Fate) (d : Disk β) (result : Option ℤ × Disk β) : Prop where
  live : result.2.live = d.live
  pending : result.2.pending = d.pending
  ends : StopsInCooks fate found staged ∧ result.1 = none ∧ result.2.stage = d.stage ∨
    ¬ StopsInCooks fate found staged ∧
      (result.1 = some 1 ∨ result.1 = none ∧ result.2.stage = none)

theorem clearStage_cases (fate : FileOp → Fate) (d : Disk β) :
    (clearStage fate d).2.live = d.live ∧ (clearStage fate d).2.pending = d.pending ∧
      (StopsAtStage fate ∧ (clearStage fate d).1 = none ∧ (clearStage fate d).2.stage = d.stage ∨
        ¬ StopsAtStage fate ∧ ((clearStage fate d).1 = some () ∨
          (clearStage fate d).1 = none ∧ (clearStage fate d).2.stage = none)) := by
  cases remove : fate .removeStage <;> cases write : fate .writeRestored <;>
    simp [clearStage, StopsAtStage, bind_apply, change, attempt, remove, write, Disk.live]

theorem cooks_leave (found : List String) (staged : List (String × Staged β))
    (fate : FileOp → Fate) (d : Disk β) :
    LeavesFiles found staged fate d
      ((do replaceCooks found staged; clearStage; return 1 : Applying β ℤ) fate d) := by
  obtain ⟨live, pending, stage⟩ := replaceCooks_same found staged fate d
  have stops := replaceCooks_stops fate found staged d
  rcases result : replaceCooks found staged fate d with ⟨_ | _, middle⟩
  · rw [result] at live pending stage stops
    rw [bind_of_none result]
    exact ⟨live, pending, Or.inl ⟨Or.inl (stops.mp rfl), rfl, stage⟩⟩
  · rw [result] at live pending stage stops
    rw [bind_of_some result]
    have goes := mt stops.mpr (by simp)
    obtain ⟨live', pending', ends⟩ := clearStage_cases fate middle
    rcases last : clearStage fate middle with ⟨_ | _, d'⟩
    · rw [last] at live' pending' ends
      rw [bind_of_none last]
      refine ⟨live'.trans live, pending'.trans pending, ?_⟩
      rcases ends with ⟨stopped, _, same⟩ | ⟨not_stopped, ended | ⟨_, gone⟩⟩
      · exact Or.inl ⟨Or.inr stopped, rfl, same.trans stage⟩
      · cases ended
      · exact Or.inr ⟨not_or.mpr ⟨goes, not_stopped⟩, Or.inr ⟨rfl, gone⟩⟩
    · rw [last] at live' pending' ends
      rw [bind_of_some last]
      refine ⟨live'.trans live, pending'.trans pending, ?_⟩
      rcases ends with ⟨_, stopped, _⟩ | ⟨not_stopped, _⟩
      · cases stopped
      · exact Or.inr ⟨not_or.mpr ⟨goes, not_stopped⟩, Or.inl rfl⟩

section Replacing

variable {valid : β → Bool} {settings database : β} {stage : Stage β} {fate : FileOp → Fate}
variable {d : Disk β} {found : List String} {staged : List (String × Staged β)}

theorem applyFiles_of_not_copied (not_copied : fate .copySettings ≠ .works) :
    (applyFiles found staged fate d).2 = d := by
  cases copied : fate .copySettings with
  | works => exact absurd copied not_copied
  | fails => simp [applyFiles, bind_apply, copySettings, attempt, copied]
  | stops => simp [applyFiles, bind_apply, copySettings, attempt, copied]

theorem change_goes {op : FileOp} (effect : Disk β → Disk β) (d : Disk β)
    (goes : fate op ≠ .stops) :
    ∃ worked, change op effect fate d =
      (some worked, if fate op = .works then effect d else d) := by
  cases what : fate op with
  | works => exact ⟨true, attempt_works what rfl⟩
  | fails => exact ⟨false, attempt_fails what⟩
  | stops => exact absurd what goes

theorem logs_removed (between : ¬ StopsBetween fate) (k : Applying β ℤ) (d : Disk β) :
    ∃ d', (do
        let _ ← change .unlinkWal fun d => { d with wal := none }
        let _ ← change .unlinkShm fun d => { d with shm := none }
        k : Applying β ℤ) fate d = k fate d' ∧
      d'.live = ⟨d.settings, d.database, if fate .unlinkWal = .works then none else d.wal⟩ ∧
      d'.pending = d.pending ∧ d'.stage = d.stage := by
  obtain ⟨first, wal⟩ := change_goes (fun d : Disk β => { d with wal := none }) d
    (mt Or.inl between)
  obtain ⟨second, shm⟩ := change_goes (fun d : Disk β => { d with shm := none })
    (if fate .unlinkWal = .works then { d with wal := none } else d)
    (mt (fun stops => Or.inr (Or.inl stops)) between)
  refine ⟨_, (bind_of_some wal _).trans (bind_of_some shm _), ?_⟩
  by_cases removed : fate .unlinkWal = .works <;> by_cases gone : fate .unlinkShm = .works <;>
    simp [removed, gone, Disk.live]

variable (there : d.stage = some stage) (good : IsStage valid settings database stage)

include there good

theorem copySettings_works (copied : fate .copySettings = .works) :
    copySettings fate d = (some true, { d with settings := some settings }) := by
  apply attempt_works copied
  simp only [there, Option.map_some, good.settings]

theorem copyDatabase_works {d' : Disk β} (same : d'.stage = d.stage)
    (copied : fate .copyDatabase = .works) :
    copyDatabase fate d' = (some true, { d' with database := some database }) := by
  apply attempt_works copied
  simp only [same, there, Option.map_some, good.database]

variable (found staged) in
theorem applyFiles_stops (copied : fate .copySettings = .works) (between : StopsBetween fate) :
    ∃ d', applyFiles found staged fate d = (none, d') ∧ d'.live = halfway fate settings d ∧
      d'.pending = d.pending ∧ d'.stage = d.stage := by
  rw [applyFiles, bind_of_some (copySettings_works there good copied)]
  cases wal : fate .unlinkWal <;> cases shm : fate .unlinkShm <;>
    cases copy : fate .copyDatabase <;>
    first
    | simp [StopsBetween, wal, shm, copy] at between; done
    | simp [bind_apply, change, attempt, copyDatabase, wal, shm, copy, Disk.live, halfway]

variable (found staged) in
theorem applyFiles_fails (copied : fate .copySettings = .works) (between : ¬ StopsBetween fate)
    (failed : fate .copyDatabase = .fails) :
    ∃ d', applyFiles found staged fate d = (some (-1), d') ∧
      d'.live = halfway fate settings d := by
  rw [applyFiles, bind_of_some (copySettings_works there good copied)]
  obtain ⟨d', runs, live, _⟩ := logs_removed between
    (do if !(← copyDatabase) then return -1
        replaceCooks found staged
        clearStage
        return 1) { d with settings := some settings }
  have fails : copyDatabase fate d' = (some false, d') := attempt_fails failed
  exact ⟨d', runs.trans (bind_of_some fails _), live⟩

variable (found staged) in
theorem applyFiles_goes (copied : fate .copySettings = .works) (between : ¬ StopsBetween fate)
    (works : fate .copyDatabase = .works) :
    ∃ d', applyFiles found staged fate d =
        (do replaceCooks found staged; clearStage; return 1 : Applying β ℤ) fate d' ∧
      d'.live = { halfway fate settings d with database := some database } ∧
      d'.pending = d.pending ∧ d'.stage = d.stage := by
  rw [applyFiles, bind_of_some (copySettings_works there good copied)]
  obtain ⟨d', runs, live, pending, stage⟩ := logs_removed between
    (do if !(← copyDatabase) then return -1
        replaceCooks found staged
        clearStage
        return 1) { d with settings := some settings }
  refine ⟨{ d' with database := some database }, runs.trans ?_, ?_, pending, stage⟩
  · rw [bind_of_some (copyDatabase_works there good stage works)]
    rfl
  · rw [Disk.live, Files.mk.injEq] at live
    simp only [Disk.live, halfway, live.1, live.2.2]

end Replacing

/-- The disk once the mark is taken away. -/
def taken (fate : FileOp → Fate) (d : Disk β) : Disk β :=
  if fate .unlinkPending = .works then { d with pending := false } else d

@[simp]
theorem taken_live (fate : FileOp → Fate) (d : Disk β) : (taken fate d).live = d.live := by
  rw [taken]
  split <;> rfl

@[simp]
theorem taken_stage (fate : FileOp → Fate) (d : Disk β) : (taken fate d).stage = d.stage := by
  rw [taken]
  split <;> rfl

theorem taken_pending (fate : FileOp → Fate) (d : Disk β) :
    (taken fate d).pending = (d.pending && fate .unlinkPending ≠ .works) := by
  rw [taken]
  split <;> rename_i works <;> simp [works]

section Applying

variable {valid : β → Bool} {settings database : β} {fate : FileOp → Fate} {d : Disk β}
variable {found : List String} {staged : List (String × Staged β)}

/-- The checks before any file is replaced pass. -/
def Checks (fate : FileOp → Fate) : Prop :=
  fate .findManifest = .works ∧ fate .checkSettings = .works ∧ fate .checkDatabase = .works

/-- Files and mark are as they were, and the stage is too unless it was removed. -/
def Untouched (d d' : Disk β) : Prop :=
  d'.live = d.live ∧ d'.pending = d.pending ∧ (d'.stage = d.stage ∨ d'.stage = none)

instance : Std.Refl (Untouched (β := β)) := ⟨fun _ => ⟨rfl, rfl, Or.inl rfl⟩⟩

theorem refuse_untouched : Untouched d (refuse fate d).2 := by
  cases remove : fate .removeStage <;>
    simp [refuse, bind_apply, change, attempt, remove, Untouched, Disk.live]

theorem look_cases (op : FileOp) (test : Disk β → Bool) (fate : FileOp → Fate) (d : Disk β) :
    (look op test fate d = (some true, d) ∧ fate op = .works) ∨
      look op test fate d = (some false, d) ∨ look op test fate d = (none, d) := by
  cases what : fate op with
  | works =>
    cases found : test d with
    | true => exact Or.inl ⟨attempt_works what (by rw [found]; rfl), rfl⟩
    | false => exact Or.inr (Or.inl (attempt_idle what (by rw [found]; rfl)))
  | fails => exact Or.inr (Or.inl (attempt_fails what))
  | stops => exact Or.inr (Or.inr (attempt_stops what))

theorem applyChecked_untouched (not_replaced : ¬ (Checks fate ∧ fate .copySettings = .works)) :
    Untouched d (applyChecked valid found staged fate d).2 := by
  rw [applyChecked]
  rcases look_cases .findManifest (fun d => d.stage.any Stage.manifest) fate d with
    ⟨manifest, first⟩ | refused | stopped
  · rw [bind_of_some manifest]
    rcases look_cases .checkSettings (settingsOk valid) fate d with
      ⟨settings, second⟩ | refused | stopped
    · refine (congrArg (Untouched d ∘ Prod.snd) (bind_of_some settings _)).mpr ?_
      rcases look_cases .checkDatabase databaseRegular fate d with
        ⟨database, third⟩ | refused | stopped
      · refine (congrArg (Untouched d ∘ Prod.snd) (bind_of_some database _)).mpr ?_
        have not_copied : fate .copySettings ≠ .works :=
          fun copied => not_replaced ⟨⟨first, second, third⟩, copied⟩
        have same : (applyFiles found staged fate d).2 = d := applyFiles_of_not_copied not_copied
        change Untouched d (applyFiles found staged fate d).2
        rw [same]
        exact refl d
      · refine (congrArg (Untouched d ∘ Prod.snd) (bind_of_some refused _)).mpr ?_
        exact refuse_untouched
      · refine (congrArg (Untouched d ∘ Prod.snd) (bind_of_none stopped _)).mpr ?_
        exact refl d
    · refine (congrArg (Untouched d ∘ Prod.snd) (bind_of_some refused _)).mpr ?_
      exact refuse_untouched
    · refine (congrArg (Untouched d ∘ Prod.snd) (bind_of_none stopped _)).mpr ?_
      exact refl d
  · rw [bind_of_some refused]
    exact refl d
  · rw [bind_of_none stopped]
    exact refl d

theorem applyChecked_checked {stage : Stage β} (there : d.stage = some stage)
    (good : IsStage valid settings database stage) (checks : Checks fate) :
    applyChecked valid found staged fate d = applyFiles found staged fate d := by
  obtain ⟨first, second, third⟩ := checks
  have manifest : look .findManifest (fun d => d.stage.any Stage.manifest) fate d =
      (some true, d) := attempt_works first (by simp [there, good.manifest])
  have accepted : look .checkSettings (settingsOk valid) fate d = (some true, d) :=
    attempt_works second (by simp [settingsOk, there, good.settings, good.accepted])
  have regular : look .checkDatabase databaseRegular fate d = (some true, d) :=
    attempt_works third (by simp [databaseRegular, there, good.database])
  rw [applyChecked, bind_of_some manifest]
  exact (bind_of_some accepted _).trans (bind_of_some regular _)

theorem applyStaged_cases (valid : β → Bool) (fate : FileOp → Fate) (pending : d.pending = true) :
    (fate .readPending = .works ∧ fate .unlinkPending ≠ .stops ∧
      applyStaged valid fate d =
        applyChecked valid (cookNames d) (stagedCooks d) fate (taken fate d)) ∨
    ((fate .readPending ≠ .works ∨ fate .unlinkPending = .stops) ∧
      (applyStaged valid fate d = (some 0, d) ∨ applyStaged valid fate d = (none, d))) := by
  have reads : fate .readPending = .works →
      look .readPending Disk.pending fate d = (some true, d) := by
    intro works
    exact attempt_works works (by rw [pending]; rfl)
  rcases look_cases .readPending Disk.pending fate d with ⟨read, works⟩ | unread | stopped
  · by_cases stops : fate .unlinkPending = .stops
    · right
      refine ⟨Or.inr stops, Or.inr ?_⟩
      rw [applyStaged, bind_of_some read]
      exact bind_of_none (attempt_stops stops) _
    · left
      obtain ⟨worked, gone⟩ := change_goes (fun d : Disk β => { d with pending := false }) d stops
      refine ⟨works, stops, ?_⟩
      rw [applyStaged, bind_of_some read]
      exact bind_of_some gone _
  · right
    refine ⟨Or.inl fun works => ?_, Or.inl ?_⟩
    · rw [reads works] at unread
      cases unread
    · rw [applyStaged, bind_of_some unread]
      rfl
  · right
    refine ⟨Or.inl fun works => ?_, Or.inr ?_⟩
    · rw [reads works] at stopped
      cases stopped
    · rw [applyStaged, bind_of_none stopped]

end Applying

/-! ### The next start -/

section NextStart

variable {valid : β → Bool} {settings database : β} {d : Disk β}

theorem next_of_not_pending (pending : d.pending = false) :
    (applyStaged valid allWork d).2 = d := by
  have unread : look .readPending Disk.pending allWork d = (some false, d) :=
    attempt_idle rfl (by rw [pending]; rfl)
  rw [applyStaged, bind_of_some unread]
  rfl

theorem next_of_no_stage (pending : d.pending = true) (none_there : d.stage = none) :
    (applyStaged valid allWork d).2.live = d.live := by
  rcases applyStaged_cases valid allWork pending with
    ⟨_, _, same⟩ | ⟨failed | stopped, _⟩
  · have refused : look .findManifest (fun d => d.stage.any Stage.manifest) allWork
        (taken allWork d) = (some false, taken allWork d) :=
      attempt_idle rfl (by simp [none_there])
    rw [same, applyChecked, bind_of_some refused]
    exact taken_live allWork d
  · exact absurd rfl failed
  · cases stopped

theorem next_of_pending (marked : IsPending valid settings database d) :
    (applyStaged valid allWork d).2.live = restoredFiles settings database := by
  obtain ⟨pending, stage, there, good⟩ := marked
  rcases applyStaged_cases valid allWork pending with
    ⟨_, _, same⟩ | ⟨failed | stopped, _⟩
  · have staged := (taken_stage allWork d).trans there
    have goes : ¬ StopsBetween allWork := by rintro (stops | stops | stops) <;> cases stops
    obtain ⟨d', runs, live, _⟩ :=
      applyFiles_goes (cookNames d) (stagedCooks d) staged good rfl goes rfl
    rw [same, applyChecked_checked staged good ⟨rfl, rfl, rfl⟩, runs,
      (cooks_leave _ _ allWork d').live, live]
    rfl
  · exact absurd rfl failed
  · cases stopped

end NextStart

/-! ### All or nothing -/

section AllOrNothing

variable {valid : β → Bool} {settings database : β} {fate : FileOp → Fate} {d : Disk β}

theorem seen_of_returns {code : ℤ} {d' : Disk β}
    (returns : applyStaged valid fate d = (some code, d')) : seen valid fate d = d'.live := by
  rw [seen, returns]

theorem seen_of_stops {d' : Disk β} (stops : applyStaged valid fate d = (none, d')) :
    seen valid fate d = (applyStaged valid allWork d').2.live := by
  rw [seen, stops]

theorem allOrNothing_iff_seen (no_failure : (applyStaged valid fate d).1 ≠ some (-1)) :
    AllOrNothing valid settings database fate d ↔
      seen valid fate d = d.live ∨ seen valid fate d = restoredFiles settings database := by
  constructor
  · intro whole
    exact whole.1
  · intro whole
    refine ⟨whole, fun d' reported => ?_⟩
    rw [reported] at no_failure
    exact absurd rfl no_failure

theorem next_of_untouched (marked : IsPending valid settings database d) {d' : Disk β}
    (untouched : Untouched d d' ∨ Untouched (taken fate d) d') :
    (applyStaged valid allWork d').2.live = d.live ∨
      (applyStaged valid allWork d').2.live = restoredFiles settings database := by
  obtain ⟨pending, stage, there, good⟩ := marked
  have live : d'.live = d.live := by
    rcases untouched with same | same
    · exact same.1
    · exact same.1.trans (taken_live fate d)
  have staged : d'.stage = some stage ∨ d'.stage = none := by
    rcases untouched with same | same
    · exact same.2.2.imp_left fun kept => kept.trans there
    · exact same.2.2.imp_left fun kept => kept.trans ((taken_stage fate d).trans there)
  cases mark : d'.pending with
  | false => exact Or.inl ((congrArg Disk.live (next_of_not_pending mark)).trans live)
  | true =>
    rcases staged with kept | gone
    · exact Or.inr (next_of_pending ⟨mark, stage, kept, good⟩)
    · exact Or.inl ((next_of_no_stage mark gone).trans live)

theorem allOrNothing_of_not_replaced (marked : IsPending valid settings database d)
    (not_replaced : ¬ Replaces fate) : AllOrNothing valid settings database fate d := by
  have untouched : Untouched d (applyStaged valid fate d).2 ∨
      Untouched (taken fate d) (applyStaged valid fate d).2 := by
    rcases applyStaged_cases valid fate marked.pending with
      ⟨read, goes, same⟩ | ⟨_, same | same⟩
    · right
      rw [same]
      apply applyChecked_untouched
      rintro ⟨⟨manifest, accepted, regular⟩, copied⟩
      exact not_replaced ⟨read, goes, manifest, accepted, regular, copied⟩
    · left
      rw [same]
      exact refl d
    · left
      rw [same]
      exact refl d
  have live : (applyStaged valid fate d).2.live = d.live := by
    rcases untouched with same | same
    · exact same.1
    · exact same.1.trans (taken_live fate d)
  constructor
  · rcases result : applyStaged valid fate d with ⟨_ | code, d'⟩
    · rw [seen_of_stops result]
      rw [result] at untouched
      exact next_of_untouched marked untouched
    · rw [seen_of_returns result]
      rw [result] at live
      exact Or.inl live
  · intro d' reported
    rwa [reported] at live

/-- A start that replaces the settings goes on with the files. -/
theorem applyStaged_of_replaces (marked : IsPending valid settings database d)
    (replaces : Replaces fate) :
    applyStaged valid fate d =
      applyFiles (cookNames d) (stagedCooks d) fate (taken fate d) := by
  obtain ⟨read, goes, manifest, accepted, regular, _⟩ := replaces
  obtain ⟨pending, stage, there, good⟩ := marked
  rcases applyStaged_cases valid fate pending with ⟨_, _, same⟩ | ⟨failed | stopped, _⟩
  · rw [same]
    exact applyChecked_checked ((taken_stage fate d).trans there) good
      ⟨manifest, accepted, regular⟩
  · exact absurd read failed
  · exact absurd stopped goes

theorem halfway_taken : halfway fate settings (taken fate d) = halfway fate settings d := by
  have live := taken_live fate d
  rw [Disk.live, Disk.live, Files.mk.injEq] at live
  rw [halfway, halfway, live.2.1, live.2.2]

theorem allOrNothing_of_stops (marked : IsPending valid settings database d)
    (replaces : Replaces fate) (between : StopsBetween fate) :
    AllOrNothing valid settings database fate d ↔
      fate .unlinkPending = .fails ∨ halfway fate settings d = d.live ∨
        halfway fate settings d = restoredFiles settings database := by
  have runs := applyStaged_of_replaces marked replaces
  obtain ⟨pending, stage, there, good⟩ := marked
  have staged := (taken_stage fate d).trans there
  obtain ⟨_, goes, _, _, _, copied⟩ := replaces
  obtain ⟨d', stops, live, mark, kept⟩ :=
    applyFiles_stops (cookNames d) (stagedCooks d) staged good copied between
  rw [stops] at runs
  rw [halfway_taken] at live
  rw [taken_pending, pending] at mark
  have no_failure : (applyStaged valid fate d).1 ≠ some (-1) := by
    rw [runs]
    rintro ⟨⟩
  rw [allOrNothing_iff_seen no_failure, seen_of_stops runs]
  cases unlinked : fate .unlinkPending with
  | works =>
    have gone : d'.pending = false := by rw [mark, unlinked]; rfl
    rw [next_of_not_pending gone, live]
    simp
  | fails =>
    have again : IsPending valid settings database d' :=
      ⟨by rw [mark, unlinked]; rfl, stage, kept.trans staged, good⟩
    rw [next_of_pending again]
    simp
  | stops => exact absurd unlinked goes

theorem allOrNothing_of_fails (marked : IsPending valid settings database d)
    (replaces : Replaces fate) (between : ¬ StopsBetween fate)
    (failed : fate .copyDatabase = .fails) :
    AllOrNothing valid settings database fate d ↔ halfway fate settings d = d.live := by
  have runs := applyStaged_of_replaces marked replaces
  obtain ⟨pending, stage, there, good⟩ := marked
  have staged := (taken_stage fate d).trans there
  obtain ⟨d', returns, live⟩ := applyFiles_fails (cookNames d) (stagedCooks d) staged good
    replaces.2.2.2.2.2 between failed
  rw [returns] at runs
  rw [halfway_taken] at live
  rw [AllOrNothing, seen_of_returns runs, live]
  constructor
  · rintro ⟨_, reported⟩
    exact live.symm.trans (reported d' runs)
  · intro same
    refine ⟨Or.inl same, fun d'' returned => ?_⟩
    rw [runs] at returned
    cases returned
    exact live.trans same

theorem seen_of_copied (marked : IsPending valid settings database d)
    (replaces : Replaces fate) (between : ¬ StopsBetween fate)
    (copied : fate .copyDatabase = .works) :
    (applyStaged valid fate d).1 ≠ some (-1) ∧
      (fate .unlinkPending = .fails ∧ StopsInCooks fate (cookNames d) (stagedCooks d) →
        seen valid fate d = restoredFiles settings database) ∧
      (¬ (fate .unlinkPending = .fails ∧ StopsInCooks fate (cookNames d) (stagedCooks d)) →
        seen valid fate d = ⟨some settings, some database, (halfway fate settings d).wal⟩) := by
  have runs := applyStaged_of_replaces marked replaces
  obtain ⟨pending, stage, there, good⟩ := marked
  have staged := (taken_stage fate d).trans there
  obtain ⟨_, goes, _, _, _, copies⟩ := replaces
  obtain ⟨middle, same, live, mark, kept⟩ := applyFiles_goes (cookNames d) (stagedCooks d)
    staged good copies between copied
  rw [same] at runs
  obtain ⟨live', mark', ends⟩ := cooks_leave (cookNames d) (stagedCooks d) fate middle
  rw [← runs] at live' mark' ends
  rw [halfway_taken] at live
  rw [mark, taken_pending, pending] at mark'
  have files := live'.trans live
  rcases result : applyStaged valid fate d with ⟨_ | code, d'⟩
  · rw [result] at files mark' ends
    rw [seen_of_stops result]
    refine ⟨by rintro ⟨⟩, ?_, ?_⟩
    · rintro ⟨unlinked, inCooks⟩
      apply next_of_pending
      rcases ends with ⟨_, _, still⟩ | ⟨not_in, _⟩
      · exact ⟨by rw [mark', unlinked]; rfl, stage, (still.trans kept).trans staged, good⟩
      · exact absurd inCooks not_in
    · intro once
      refine Eq.trans ?_ files
      cases unlinked : fate .unlinkPending with
      | works => rw [next_of_not_pending (by rw [mark', unlinked]; rfl)]
      | fails =>
        rcases ends with ⟨inCooks, _⟩ | ⟨_, ended | ⟨_, gone⟩⟩
        · exact absurd ⟨unlinked, inCooks⟩ once
        · cases ended
        · exact next_of_no_stage (by rw [mark', unlinked]; rfl) gone
      | stops => exact absurd unlinked goes
  · rw [result] at files ends
    rw [seen_of_returns result]
    rcases ends with ⟨_, stopped, _⟩ | ⟨not_in, returned | ⟨stopped, _⟩⟩
    · cases stopped
    · cases returned
      exact ⟨by rintro ⟨⟩, fun ⟨_, inCooks⟩ => absurd inCooks not_in, fun _ => files⟩
    · cases stopped

theorem allOrNothing_of_copied (marked : IsPending valid settings database d)
    (replaces : Replaces fate) (between : ¬ StopsBetween fate)
    (copied : fate .copyDatabase = .works) :
    AllOrNothing valid settings database fate d ↔
      (fate .unlinkWal = .fails → d.wal = none ∨
        (d.settings = some settings ∧ d.database = some database) ∨
        (fate .unlinkPending = .fails ∧ StopsInCooks fate (cookNames d) (stagedCooks d))) := by
  obtain ⟨no_failure, again, once⟩ := seen_of_copied marked replaces between copied
  rw [allOrNothing_iff_seen no_failure]
  by_cases twice : fate .unlinkPending = .fails ∧ StopsInCooks fate (cookNames d) (stagedCooks d)
  · rw [again twice]
    simp [twice]
  · rw [once twice]
    cases log : fate .unlinkWal with
    | works => simp [halfway, log, restoredFiles]
    | fails =>
      simp only [halfway, log, Disk.live, restoredFiles, Files.mk.injEq, twice, or_false,
        true_and, reduceCtorEq, if_false, true_imp_iff, and_true]
      constructor
      · rintro (⟨same, same'⟩ | gone)
        · exact Or.inr ⟨same.symm, same'.symm⟩
        · exact Or.inl gone
      · rintro (gone | ⟨same, same'⟩)
        · exact Or.inr gone
        · exact Or.inl ⟨same.symm, same'.symm⟩
    | stops => exact absurd (Or.inl log) between

end AllOrNothing

/-- Whatever becomes of the file operations, a restore is all or nothing exactly where
`LeftWhole` says. -/
theorem all_or_nothing_iff {valid : β → Bool} {settings database : β} {fate : FileOp → Fate}
    {d : Disk β} (marked : IsPending valid settings database d) :
    AllOrNothing valid settings database fate d ↔ LeftWhole settings database fate d := by
  by_cases replaces : Replaces fate
  · rw [LeftWhole, imp_iff_right replaces]
    by_cases between : StopsBetween fate
    · rw [if_pos between]
      exact allOrNothing_of_stops marked replaces between
    · rw [if_neg between]
      by_cases failed : fate .copyDatabase = .fails
      · rw [if_pos failed]
        exact allOrNothing_of_fails marked replaces between failed
      · rw [if_neg failed]
        have copied : fate .copyDatabase = .works := by
          cases what : fate .copyDatabase with
          | works => rfl
          | fails => exact absurd what failed
          | stops => exact absurd (Or.inr (Or.inr what)) between
        exact allOrNothing_of_copied marked replaces between copied
  · constructor
    · intro _ replaced
      exact absurd replaced replaces
    · intro _
      exact allOrNothing_of_not_replaced marked replaces

/-! ### A card that is full -/

/-- A grill with files of its own and a backup of other settings and another database
to be put in place. -/
def stagedGrill : Disk String where
  pending := true
  stage := some ⟨true, .file "settings of the backup", .file "database of the backup", none⟩
  settings := some "settings"
  database := some "database"
  wal := some "log"
  shm := none
  cookfiles := []
  restored := false

theorem stagedGrill_pending :
    IsPending (fun _ => true) "settings of the backup" "database of the backup" stagedGrill :=
  ⟨rfl, _, rfl, rfl, rfl, rfl, rfl⟩

/-- There is room for the settings and none for the database. -/
def cardFull : FileOp → Fate
  | .copyDatabase => .fails
  | _ => .works

/-- The restore fails and leaves the settings of the backup, the grill's own database
and no log. -/
theorem restore_leaves_pieces :
    ¬ AllOrNothing (fun _ => true) "settings of the backup" "database of the backup" cardFull
      stagedGrill := by
  rintro ⟨_, reported⟩
  have same := reported _ rfl
  exact absurd (congrArg Files.wal same) (by decide)

theorem all_or_nothing_cardFull :
    IsPending (fun _ => true) "settings of the backup" "database of the backup" stagedGrill ∧
      (AllOrNothing (fun _ => true) "settings of the backup" "database of the backup" cardFull
          stagedGrill ↔
        LeftWhole "settings of the backup" "database of the backup" cardFull stagedGrill) :=
  ⟨stagedGrill_pending, all_or_nothing_iff stagedGrill_pending⟩

end PiFire.Backup
