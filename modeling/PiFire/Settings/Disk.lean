import PiFire.Settings.Edit
import Mathlib.Data.Int.Log

/-!
# The settings on disk

The file holds the document that printing the tree writes. A child of a number
or a text is not written, an item in an object is written under its name, and a
number is written in fifteen digits when these come close enough. Parsing gives
the tree of a document, unless it nests too deep.
-/

namespace PiFire.Settings

/-- The number fifteen significant digits keep of `x`. -/
def fifteenDigits (x : ℚ) : ℚ :=
  let unit := (10 : ℚ) ^ (Int.log 10 |x| - 14)
  round (x / unit) * unit

/-- The number the text of `x` reads back as: a whole int is written out, fifteen
digits are enough when they differ by no more than the spacing of doubles, and
seventeen give the number back. -/
def printedNumber (x : ℚ) : ℚ :=
  if x.den = 1 ∧ |x.num| ≤ 2147483647 then x
  else
    let short := fifteenDigits x
    if |short - x| ≤ max |short| |x| / 2 ^ 52 then short else x

namespace Item

mutual

/-- The document that is written for an item. -/
def print : Item → Json
  | .node .null _ => .null
  | .node (.bool b) _ => .bool b
  | .node (.num x) _ => .num (printedNumber x)
  | .node (.str s) _ => .str s
  | .node .arr children => .arr (printItems children)
  | .node .obj children => .obj (printMembers children)

def printItems : List Child → List Json
  | [] => []
  | (_, item) :: rest => print item :: printItems rest

def printMembers : List Child → List (String × Json)
  | [] => []
  | (name, item) :: rest => (name.getD "", print item) :: printMembers rest

end

mutual

/-- The tree of a document. -/
def ofJson : Json → Item
  | .null => node .null []
  | .bool b => node (.bool b) []
  | .num x => node (.num x) []
  | .str s => node (.str s) []
  | .arr items => node .arr (ofItems items)
  | .obj members => node .obj (ofMembers members)

def ofItems : List Json → List Child
  | [] => []
  | item :: rest => (none, ofJson item) :: ofItems rest

def ofMembers : List (String × Json) → List Child
  | [] => []
  | (name, item) :: rest => (some name, ofJson item) :: ofMembers rest

end

mutual

/-- Whether printing leaves nothing of an item out. -/
def keeps : Item → Bool
  | .node (.num x) children => printedNumber x = x && children.isEmpty
  | .node .arr children => keepsItems children
  | .node .obj children => keepsMembers children
  | .node _ children => children.isEmpty

def keepsItems : List Child → Bool
  | [] => true
  | (name, item) :: rest => name.isNone && keeps item && keepsItems rest

def keepsMembers : List Child → Bool
  | [] => true
  | (name, item) :: rest => name.isSome && keeps item && keepsMembers rest

end

mutual

theorem ofJson_print (item : Item) : ofJson item.print = item ↔ item.keeps = true := by
  rcases item with ⟨kind, children⟩
  cases kind with
  | null => cases children <;> simp [print, ofJson, keeps]
  | bool b => cases children <;> simp [print, ofJson, keeps]
  | num x => cases children <;> simp [print, ofJson, keeps]
  | str s => cases children <;> simp [print, ofJson, keeps]
  | arr => simpa [print, ofJson, keeps] using ofItems_print children
  | obj => simpa [print, ofJson, keeps] using ofMembers_print children

theorem ofItems_print (children : List Child) :
    ofItems (printItems children) = children ↔ keepsItems children = true := by
  cases children with
  | nil => simp [printItems, ofItems, keepsItems]
  | cons entry rest =>
      rcases entry with ⟨name, item⟩
      cases name <;>
        simp [printItems, ofItems, keepsItems, ofJson_print item, ofItems_print rest]

theorem ofMembers_print (children : List Child) :
    ofMembers (printMembers children) = children ↔ keepsMembers children = true := by
  cases children with
  | nil => simp [printMembers, ofMembers, keepsMembers]
  | cons entry rest =>
      rcases entry with ⟨name, item⟩
      cases name <;>
        simp [printMembers, ofMembers, keepsMembers, ofJson_print item, ofMembers_print rest]

end

end Item

mutual

/-- How deep the arrays and objects of a document nest. -/
def nesting : Json → ℕ
  | .arr items => 1 + nestingItems items
  | .obj members => 1 + nestingMembers members
  | _ => 0

def nestingItems : List Json → ℕ
  | [] => 0
  | item :: rest => max (nesting item) (nestingItems rest)

def nestingMembers : List (String × Json) → ℕ
  | [] => 0
  | (_, item) :: rest => max (nesting item) (nestingMembers rest)

end

/-- How deep a document may nest to be parsed. -/
def nestingLimit : ℕ := 1000

/-- Parse a document; one that nests too deep is not accepted. -/
def parse (document : Json) : Option Item :=
  if nesting document ≤ nestingLimit then some (Item.ofJson document) else none

/-- The settings: the tree in force, the document in the file, and how often it
was saved. -/
structure Store where
  root : Item
  file : Option Json
  gen : ℕ

/-- Write the tree to the file. `written` is what the atomic write returns: zero,
or an error that leaves the file as it was. -/
def saveLocked (written : ℤ) (s : Store) : ℤ × Store :=
  if written = 0 then (0, { s with file := some s.root.print, gen := s.gen + 1 })
  else (written, s)

/-- The tree that reading the file back gives. -/
def Store.reload (s : Store) : Option Item := s.file.bind parse

/-- The file reads back as the tree in force. -/
def Store.Saved (s : Store) : Prop := s.reload = some s.root

theorem saved_saveLocked (s : Store) :
    (saveLocked 0 s).2.Saved ↔ s.root.keeps = true ∧ nesting s.root.print ≤ nestingLimit := by
  unfold Store.Saved Store.reload saveLocked parse
  by_cases shallow : nesting s.root.print ≤ nestingLimit <;>
    simp [shallow, Item.ofJson_print]

end PiFire.Settings

/-!
# Changing the units

The settings are in the units the grill shows. Changing the units converts the
members named in two lists, the temperatures and the temperature differences,
and rounds them; nothing else is touched.
-/

namespace PiFire.Settings

/-- Settings whose values are temperatures and must be converted when units
change. -/
def tempPaths : List (List String) :=
  [["safety", "maxtemp"], ["safety", "min_target"], ["safety", "max_target"],
    ["safety", "smoke_min"], ["safety", "restart_hot_temp"],
    ["startup", "start_to_mode", "primary_setpoint"], ["keep_warm", "temp"],
    ["smoke_plus", "max_temp"]]

/-- Temperature differences (no offset). -/
def deltaPaths : List (List String) :=
  [["startup", "smartstart", "prove_rise"], ["startup", "smartstart", "exit_rise"],
    ["safety", "relight_drop"]]

/-- The path of the units. -/
def unitsPath : List String := ["globals", "units"]

/-- The units a text names. -/
def unitsOf (name : String) : Units := if name.toList.head? == some 'C' then .c else .f

/-- The text that names units. -/
def unitsName : Units → String
  | .c => "C"
  | .f => "F"

@[simp] theorem unitsOf_unitsName (u : Units) : unitsOf (unitsName u) = u := by
  cases u <;> decide

/-- The units a tree is in. -/
def rootUnits (root : Item) : Units := unitsOf (root.str unitsPath "F")

/-- A temperature in the other units, to these. -/
def convertTemp (u : Units) (x : ℚ) : ℚ :=
  match u with
  | .c => toC x .f
  | .f => fromC x .f

/-- A temperature difference in the other units, to these. -/
def convertDelta (u : Units) (d : ℚ) : ℚ :=
  match u with
  | .c => deltaToC d .f
  | .f => d * 9 / 5

/-- How a converted value is rounded: half is added and the fraction dropped. -/
def roundOff (x : ℚ) : ℚ := truncate (x + 1 / 2)

namespace Item

/-- Convert an item that is a number. -/
def convertNumber (fn : ℚ → ℚ) (item : Item) : Item :=
  match item.kind with
  | .num x => node (.num (roundOff (fn x))) item.child
  | _ => item

/-- Convert the numbers at the paths. -/
def convertPaths (paths : List (List String)) (fn : ℚ → ℚ) (root : Item) : Item :=
  paths.foldl (fun root path => modifyAt path (convertNumber fn) root) root

/-- Convert everything in the two lists. -/
def convertAll (u : Units) (root : Item) : Item :=
  (root.convertPaths tempPaths (convertTemp u)).convertPaths deltaPaths (convertDelta u)

/-- The tree in these units. -/
def inUnits (u : Units) (root : Item) : Item :=
  if rootUnits root = u then root
  else modifyAt unitsPath (fun name => name.setText (unitsName u)) (root.convertAll u)

end Item

/-- Change the units and save. -/
def setUnits (u : Units) (written : ℤ) (s : Store) : ℤ × Store :=
  saveLocked written { s with root := s.root.inUnits u }

namespace Item

@[simp] theorem child_setText (s : String) (item : Item) :
    (item.setText s).child = item.child := by
  rcases item with ⟨kind, children⟩
  cases kind <;> rfl

theorem path?_convertPaths {path : List String} {paths : List (List String)}
    (apart : ∀ other ∈ paths, parts path other) (fn : ℚ → ℚ) (root : Item) :
    (root.convertPaths paths fn).path? path = root.path? path := by
  induction paths generalizing root with
  | nil => rfl
  | cons other rest ih =>
      have here : parts path other := apart other (by simp)
      have there : ∀ another ∈ rest, parts path another := fun another member =>
        apart another (by simp [member])
      have after := ih there (modifyAt other (convertNumber fn) root)
      rw [path?_modifyAt_parts here] at after
      exact after

theorem path?_convertPaths_of_mem {path : List String} {paths : List (List String)}
    (listed : path ∈ paths) (apart : ∀ other ∈ paths, other ≠ path → parts path other)
    (once : paths.Nodup) (fn : ℚ → ℚ) (root : Item) :
    (root.convertPaths paths fn).path? path = (root.path? path).map (convertNumber fn) := by
  induction paths generalizing root with
  | nil => simp at listed
  | cons other rest ih =>
      rw [List.nodup_cons] at once
      by_cases same : other = path
      · subst same
        have elsewhere : ∀ another ∈ rest, parts other another := fun another member =>
          apart another (by simp [member]) fun equal => once.1 (equal ▸ member)
        have after := path?_convertPaths elsewhere fn (modifyAt other (convertNumber fn) root)
        rw [path?_modifyAt] at after
        exact after
      · have later : path ∈ rest := by
          rcases List.mem_cons.mp listed with equal | member
          · exact absurd equal.symm same
          · exact member
        have after := ih later
          (fun another member different => apart another (by simp [member]) different) once.2
          (modifyAt other (convertNumber fn) root)
        rw [path?_modifyAt_parts (apart other (by simp) same)] at after
        exact after

variable {u : Units} {root : Item}

theorem path?_convertAll_temp {path : List String} (listed : path ∈ tempPaths) :
    (root.convertAll u).path? path = (root.path? path).map (convertNumber (convertTemp u)) := by
  have facts : ∀ path ∈ tempPaths, (∀ other ∈ deltaPaths, parts path other) ∧
      ∀ other ∈ tempPaths, other ≠ path → parts path other := by
    decide
  rcases facts path listed with ⟨notDelta, apart⟩
  rw [convertAll, path?_convertPaths notDelta]
  exact path?_convertPaths_of_mem listed apart (by decide) _ root

theorem path?_convertAll_delta {path : List String} (listed : path ∈ deltaPaths) :
    (root.convertAll u).path? path = (root.path? path).map (convertNumber (convertDelta u)) := by
  have facts : ∀ path ∈ deltaPaths, (∀ other ∈ tempPaths, parts path other) ∧
      ∀ other ∈ deltaPaths, other ≠ path → parts path other := by
    decide
  rcases facts path listed with ⟨notTemp, apart⟩
  rw [convertAll, path?_convertPaths_of_mem listed apart (by decide), path?_convertPaths notTemp]

theorem path?_convertAll_other {path : List String}
    (notTemp : ∀ other ∈ tempPaths, parts path other)
    (notDelta : ∀ other ∈ deltaPaths, parts path other) :
    (root.convertAll u).path? path = root.path? path := by
  rw [convertAll, path?_convertPaths notDelta, path?_convertPaths notTemp]

theorem path?_convertAll_units : (root.convertAll u).path? unitsPath = root.path? unitsPath :=
  path?_convertAll_other (by decide) (by decide)

theorem path?_inUnits (changed : rootUnits root ≠ u) {path : List String}
    (elsewhere : parts path unitsPath) :
    (root.inUnits u).path? path = (root.convertAll u).path? path := by
  rw [inUnits, if_neg changed, path?_modifyAt_parts elsewhere]

theorem path?_inUnits_temp (changed : rootUnits root ≠ u) {path : List String}
    (listed : path ∈ tempPaths) :
    (root.inUnits u).path? path = (root.path? path).map (convertNumber (convertTemp u)) := by
  have elsewhere : ∀ path ∈ tempPaths, parts path unitsPath := by decide
  rw [path?_inUnits changed (elsewhere path listed), path?_convertAll_temp listed]

theorem path?_inUnits_delta (changed : rootUnits root ≠ u) {path : List String}
    (listed : path ∈ deltaPaths) :
    (root.inUnits u).path? path = (root.path? path).map (convertNumber (convertDelta u)) := by
  have elsewhere : ∀ path ∈ deltaPaths, parts path unitsPath := by decide
  rw [path?_inUnits changed (elsewhere path listed), path?_convertAll_delta listed]

theorem path?_inUnits_other {path : List String} (elsewhere : parts path unitsPath)
    (notTemp : ∀ other ∈ tempPaths, parts path other)
    (notDelta : ∀ other ∈ deltaPaths, parts path other) :
    (root.inUnits u).path? path = root.path? path := by
  by_cases same : rootUnits root = u
  · rw [inUnits, if_pos same]
  · rw [path?_inUnits same elsewhere, path?_convertAll_other notTemp notDelta]

theorem path?_inUnits_units (changed : rootUnits root ≠ u) :
    (root.inUnits u).path? unitsPath = 
      (root.path? unitsPath).map fun name => name.setText (unitsName u) := by
  rw [inUnits, if_neg changed, path?_modifyAt, path?_convertAll_units]

end Item

end PiFire.Settings
