import PiFire.Settings.Migrate
import PiFire.Settings.Shipped
import PiFire.Settings.Validate
import PiFire.Settings.Disk

/-!
# Loading the settings

At the start the file is filled up from what ships, migrated, offered the
built-in rules it has not seen, and validated. Limits that are out of their
bounds fall back to what ships, one for each pass; a failure that is no safety
limit ends the repair. What changed is saved.
-/

namespace PiFire.Settings

open Item

/-- The position of a child found by name in any case. -/
def indexAnyCase (name : String) (item : Item) : Option ℕ :=
  item.child.findIdx? fun entry => entry.1.any (strcasecmp name)

/-- The item with an array under a name, and where that array is: one that is
there, or a new one added last. -/
def ensureArray (name : String) (item : Item) : Item × ℕ :=
  match indexAnyCase name item with
  | some index =>
      if (item.child[index]?).any fun entry => entry.2.kind = .arr then (item, index)
      else (item.addItem name (array []), item.child.length)
  | none => (item.addItem name (array []), item.child.length)

/-- Append items to the child at a position. -/
def appendAt (index : ℕ) (new : List Item) (item : Item) : Item :=
  node item.kind (item.child.modify index fun entry =>
    (entry.1, node entry.2.kind (entry.2.child ++ new.map fun inner => (none, inner))))

/-- The items inside the child at a position. -/
def itemsIn (index : ℕ) (item : Item) : List Item :=
  ((item.child[index]?).map fun entry => entry.2.children).getD []

/-- The id of a rule. -/
def ruleId (rule : Item) : String := rule.str ["id"] ""

/-- The rules that were never offered. -/
def offered (shipped seen : List Item) : List Item :=
  shipped.filter fun rule =>
    ruleId rule ≠ "" ∧ ¬seen.any fun known => known.asText? = some (ruleId rule)

/-- Of the rules offered, those whose id no rule has yet. -/
def adopted (rules : List Item) : List Item → List Item
  | [] => []
  | rule :: rest =>
      if rules.any fun other => ruleId other = ruleId rule then adopted rules rest
      else rule :: adopted (rules ++ [rule]) rest

/-- The ids of the rules offered, each once. -/
def newIds (seen : List Item) : List Item → List Item
  | [] => []
  | rule :: rest =>
      if seen.any fun known => known.asText? = some (ruleId rule) then newIds seen rest
      else text (ruleId rule) :: newIds (seen ++ [text (ruleId rule)]) rest

/-- Adopt the built-in rules in the group that holds the rules; with how many
were offered. -/
def adoptInto (shipped : List Item) (notify : Item) : Item × ℕ :=
  let withRules := ensureArray "rules" notify
  let withSeen := ensureArray "builtins" withRules.1
  let rules := itemsIn withRules.2 withSeen.1
  let seen := itemsIn withSeen.2 withSeen.1
  let offers := offered shipped seen
  (appendAt withSeen.2 (newIds seen offers)
    (appendAt withRules.2 (adopted rules offers) withSeen.1), offers.length)

/-- Adopt the built-in rules a tree has not been offered. -/
def adoptBuiltinRules (shipped root : Item) : Item × ℕ :=
  match shipped.path? ["notify", "rules"], root.path? ["notify"] with
  | some rules, some notify =>
      if rules.kind = .arr then
        (modifyAt ["notify"] (fun notify => (adoptInto rules.children notify).1) root,
          (adoptInto rules.children notify).2)
      else (root, 0)
  | _, _ => (root, 0)

/-- The bytes of a text. -/
def bytes (s : String) : List UInt8 := s.toByteArray.data.toList

/-- Whether a text holds another. -/
def strstr (hay needle : String) : Bool :=
  (bytes hay).tails.any fun tail => (bytes needle).isPrefixOf tail

/-- The safety limit an error is about. -/
def limitOf (err : String) : Option Limit := Limit.all.find? fun l => strstr err l.dotted

/-- Reset a limit to what ships. -/
def resetLimit (c : Bool) (l : Limit) (root : Item) : Item :=
  root.setNum l.parent l.leaf (l.shipped c)

/-- One pass: the limit the first error is about falls back to what ships; there
is no pass when nothing is wrong, the error is about something else, or the
limit's group is missing. -/
def repairPass (c : Bool) (root : Item) : Option Item :=
  (validate root).bind fun err =>
    (limitOf err).bind fun l =>
      (root.path? l.parent).map fun _ => resetLimit c l root

/-- As many passes as there can be; with whether there was one. -/
def repairLoop (c : Bool) : ℕ → Item → Item × Bool
  | 0, root => (root, false)
  | passes + 1, root =>
      match repairPass c root with
      | some next => ((repairLoop c passes next).1, true)
      | none => (root, false)

/-- How many passes a repair may take. -/
def repairPasses : ℕ := 12

/-- Repair a tree whose limits are out of their bounds. -/
def repair (root : Item) : Item × Bool := repairLoop (Schema.celsius root) repairPasses root

/-- The tree of a file, filled up, migrated and offered the built-in rules; with
whether anything changed. -/
def upToDate (loaded : Item) : Item × Bool :=
  let filled := loaded.fillDefaults defaults
  let ver := Schema.version filled.1
  let migrated := Schema.migrate ver filled.1
  let ruled := adoptBuiltinRules defaults migrated
  (ruled.1, filled.2 ≠ 0 ∨ Schema.due ver ≠ [] ∨ ruled.2 ≠ 0)

/-- The tree to be validated: of the file, or of what ships when there is none
that parses. -/
def broughtUp (file : Option Json) : Item × Bool :=
  match file.bind parse with
  | some loaded => upToDate loaded
  | none => ((adoptBuiltinRules defaults defaults).1, true)

/-- Load the settings from a file. -/
def settingsInit (written : ℤ) (file : Option Json) : ℤ × Store :=
  let current := broughtUp file
  let repaired := repair current.1
  let loaded : Store := { root := repaired.1, file := file, gen := 0 }
  if current.2 ∨ repaired.2 then saveLocked written loaded else (0, loaded)

/-- The tree in force after loading. -/
def inForce (file : Option Json) : Item := (repair (broughtUp file).1).1

theorem root_settingsInit (written : ℤ) (file : Option Json) :
    (settingsInit written file).2.root = inForce file := by
  unfold settingsInit inForce saveLocked
  dsimp only
  split_ifs <;> rfl

end PiFire.Settings
