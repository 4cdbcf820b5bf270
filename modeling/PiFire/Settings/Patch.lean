import PiFire.Settings.Disk
import PiFire.Settings.Validate

/-!
# Patching the settings

A patch is tried on a copy of the tree. The parents of the last name are walked
and created by exact name, whatever the items on the way are; the patch is then
merged into the member or put in its place. The copy becomes the tree when it
passes validation, and a change of units is carried out after that.
-/

namespace PiFire.Settings

namespace Item

/-- The item the walk ends at; what is missing on the way is an empty object. -/
def parentOf : Item → List String → Item
  | item, [] => item
  | item, token :: rest => parentOf ((item.getItem? token).getD (node .obj [])) rest

/-- Change the item the walk ends at, creating what is missing on the way. -/
def onParent : Item → List String → (Item → Item) → Item
  | item, [], f => f item
  | item, token :: rest, f =>
      match item.getItem? token with
      | some _ => item.onExact token fun next => onParent next rest f
      | none => item.addItem token (onParent (node .obj []) rest f)

/-- Put an item under a name: in the place of the one that has it, or last. -/
def putItem (item : Item) (name : String) (new : Item) : Item :=
  match item.getItem? name with
  | some _ => item.replaceExact name new
  | none => item.addItem name new

/-- Add an empty object under a name that is missing. -/
def ensureItem (item : Item) (name : String) : Item :=
  match item.getItem? name with
  | some _ => item
  | none => item.addItem name (node .obj [])

end Item

/-- The parents and the last name of a dotted path. The path buffer holds 255
bytes and the name 63; empty parts between the parents are passed over. -/
def splitPath (path : String) : List String × String :=
  let parts := (path.toList.take 255).splitOn '.'
  (((parts.dropLast.filter fun part => !part.isEmpty)).map String.ofList,
    String.ofList ((parts.getLast?.getD []).take 63))

example : splitPath "safety.power_loss.max_s" = (["safety", "power_loss"], "max_s") := by
  decide

/-- The tree with a patch merged in at a path, or the error. Where the patch is
not merged but put in place of the member, the parents are walked a second
time. -/
def patchTree (path : String) (patch : Item) (root : Item) : Except String Item :=
  if path = "" then
    if root.kind = .obj ∧ patch.kind = .obj then .ok (root.merge patch)
    else .error "root patch must be an object"
  else
    let (parents, leaf) := splitPath path
    let target := ((root.parentOf parents).getItem? leaf).getD (.node .obj [])
    if target.kind = .obj ∧ patch.kind = .obj then
      .ok (root.onParent parents fun parent => parent.putItem leaf (target.merge patch))
    else
      .ok ((root.onParent parents fun parent => parent.ensureItem leaf).onParent parents
        fun parent => parent.replaceExact leaf patch)

/-- The start of a text that a buffer of four bytes holds. -/
def shortUnits (name : String) : String := String.ofList (name.toList.take 3)

/-- What a patch returns: zero or an error, its text, and the settings after. -/
structure PatchResult where
  rc : ℤ
  err : Option String
  store : Store

/-- Patch the settings with a document, if the request holds one. `written` is
what the atomic write of the file returns. -/
def settingsPatch (path : String) (json : Option Json) (written : ℤ) (s : Store) : PatchResult :=
  match json.bind parse with
  | none => ⟨-1, some "invalid JSON", s⟩
  | some patch =>
      match patchTree path patch s.root with
      | .error text => ⟨-1, some text, s⟩
      | .ok trial =>
          match validate trial with
          | some text => ⟨-1, some text, s⟩
          | none =>
              let oldUnits := shortUnits (s.root.str unitsPath "F")
              let newUnits := shortUnits (trial.str unitsPath "F")
              if oldUnits ≠ newUnits then
                -- the old name goes back first, so that the change converts
                let kept := Item.modifyAt unitsPath (fun name => name.setText oldUnits) trial
                ⟨0, none, (setUnits (unitsOf newUnits) written { s with root := kept }).2⟩
              else
                let (rc, saved) := saveLocked written { s with root := trial }
                ⟨rc, if rc = 0 then none else some "save failed", saved⟩

end PiFire.Settings
