import Mathlib.Data.Int.Notation
import PiFire.Transition.Interrupt

/-!
# Putting a staged restore in place

A restore is unpacked into a stage, marked as pending, and put in place by the next
start of the daemon before it reads settings or opens the database. This file has
the files concerned and `pf_backup_apply_staged`, each of whose operations may fail
or find the process stopped.
-/

namespace PiFire.Backup

open Transition

universe u

/-- What stands in the stage under a name. -/
inductive Staged (β : Type u)
  | absent
  | irregular
  | file (content : β)

/-- An unpacked backup. `cookfiles` is `none` where that is no folder. -/
structure Stage (β : Type u) where
  manifest : Bool
  settings : Staged β
  database : Staged β
  cookfiles : Option (List (String × Staged β))

/-- The files of the grill that a restore is about. -/
structure Disk (β : Type u) where
  /-- `restore.pending`: it names the stage -/
  pending : Bool
  stage : Option (Stage β)
  settings : Option β
  database : Option β
  /-- `pifire.db-wal`, what the database has not taken in yet -/
  wal : Option β
  shm : Option β
  cookfiles : List (String × β)
  /-- the marker that the event is written for -/
  restored : Bool

/-- The file operations of `pf_backup_apply_staged`. A file is written under another
name and renamed, so a copy is one operation; so is `rm_rf`, a process of its own. -/
inductive FileOp
  | readPending
  | unlinkPending
  | findManifest
  | checkSettings
  | checkDatabase
  | copySettings
  | unlinkWal
  | unlinkShm
  | copyDatabase
  | listCooks
  | unlinkCook (name : String)
  | makeCooks
  | listStaged
  | copyCook (name : String)
  | removeStage
  | writeRestored
  deriving DecidableEq

/-- The program's type: what it returns, unless the process stops. -/
abbrev Applying (β : Type u) (α : Type) := Interrupt FileOp (Disk β) α

variable {β : Type}

/-- An operation that looks at something. -/
def look (op : FileOp) (test : Disk β → Bool) : Applying β Bool :=
  Interrupt.attempt op fun d => if test d then some d else none

/-- An operation that changes something and succeeds whenever it works. -/
def change (op : FileOp) (effect : Disk β → Disk β) : Applying β Bool :=
  Interrupt.attempt op fun d => some (effect d)

/-- `copy_staged` of the settings: only a plain file is copied. -/
def copySettings : Applying β Bool :=
  Interrupt.attempt .copySettings fun d => match d.stage.map Stage.settings with
    | some (.file content) => some { d with settings := some content }
    | _ => none

/-- `copy_staged` of the database. -/
def copyDatabase : Applying β Bool :=
  Interrupt.attempt .copyDatabase fun d => match d.stage.map Stage.database with
    | some (.file content) => some { d with database := some content }
    | _ => none

/-- `staged_settings_ok`, with `valid` for `pf_settings_validate_json`. -/
def settingsOk (valid : β → Bool) (d : Disk β) : Bool :=
  match d.stage.map Stage.settings with
  | some (.file content) => valid content
  | _ => false

/-- `regular_file` of the staged database. -/
def databaseRegular (d : Disk β) : Bool :=
  match d.stage.map Stage.database with
  | some (.file _) => true
  | _ => false

/-- A cook file's name: more than `.json`. -/
def isCook (name : String) : Bool :=
  5 < name.length && ".json".toList.isSuffixOf name.toList

def putCook (cooks : List (String × β)) (name : String) (content : β) : List (String × β) :=
  cooks.filter (fun c => c.1 != name) ++ [(name, content)]

/-- The loop that removes the grill's cook files. -/
def unlinkCooks : List String → Applying β Unit
  | [] => pure ()
  | name :: names => do
    let _ ← change (.unlinkCook name) fun d =>
      { d with cookfiles := d.cookfiles.filter fun c => c.1 != name }
    unlinkCooks names

/-- The loop that copies the backup's cook files. -/
def copyCooks : List (String × Staged β) → Applying β Unit
  | [] => pure ()
  | (name, .file content) :: cooks => do
    let _ ← change (.copyCook name) fun d =>
      { d with cookfiles := putCook d.cookfiles name content }
    copyCooks cooks
  | (name, _) :: cooks => do
    let _ ← look (.copyCook name) fun _ => false
    copyCooks cooks

/-- The names in the grill's folder of cook files. -/
def cookNames (d : Disk β) : List String := (d.cookfiles.map Prod.fst).filter isCook

/-- The backup's cook files, where its folder is one. -/
def stagedCooks (d : Disk β) : List (String × Staged β) :=
  ((d.stage.bind Stage.cookfiles).getD []).filter fun c => isCook c.1

/-- The grill's own cook files go. -/
def removeOldCooks (found : List String) : Applying β Unit := do
  if ← look .listCooks fun _ => true then
    unlinkCooks found

/-- Those of the backup come. -/
def copyNewCooks (staged : List (String × Staged β)) : Applying β Unit := do
  if ← look .listStaged fun _ => true then
    copyCooks staged

/-- The cook files; `found` and `staged` are their listings. -/
def replaceCooks (found : List String) (staged : List (String × Staged β)) :
    Applying β Unit := do
  removeOldCooks found
  let _ ← change .makeCooks id
  copyNewCooks staged

/-- The end of a restore. -/
def clearStage : Applying β Unit := do
  let _ ← change .removeStage fun d => { d with stage := none }
  let _ ← change .writeRestored fun d => { d with restored := true }

/-- The settings and the database in place of the grill's own. -/
def applyFiles (found : List String) (staged : List (String × Staged β)) : Applying β ℤ := do
  if !(← copySettings) then return -1
  let _ ← change .unlinkWal fun d => { d with wal := none }
  let _ ← change .unlinkShm fun d => { d with shm := none }
  if !(← copyDatabase) then return -1
  replaceCooks found staged
  clearStage
  return 1

/-- A restore that is refused takes its stage along. -/
def refuse : Applying β ℤ := do
  let _ ← change .removeStage fun d => { d with stage := none }
  return -1

/-- The checks before any file is replaced. -/
def applyChecked (valid : β → Bool) (found : List String) (staged : List (String × Staged β)) :
    Applying β ℤ := do
  if !(← look .findManifest fun d => d.stage.any Stage.manifest) then return -1
  if !(← look .checkSettings (settingsOk valid)) then refuse
  else if !(← look .checkDatabase databaseRegular) then refuse
  else applyFiles found staged

/-- `pf_backup_apply_staged`. -/
def applyStaged (valid : β → Bool) : Applying β ℤ := fun fate d =>
  (do
    if !(← look .readPending Disk.pending) then return 0
    let _ ← change .unlinkPending fun d => { d with pending := false }
    applyChecked valid (cookNames d) (stagedCooks d) : Applying β ℤ) fate d

end PiFire.Backup
