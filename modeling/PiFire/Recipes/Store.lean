import PiFire.Control.Recipe
import PiFire.Rules.Units
import PiFire.Text.Json

/-!
# The recipes as they are stored

A recipe is accepted with its steps as a tree, and stored with its steps as a
text. When it is loaded the text is parsed again; the ending of each step is
converted to Celsius and put into the step as a text of its own, which has a
fixed room.
-/

namespace PiFire

open Rules

/-- A trait compared with a number. -/
def reaches (trait : String) (value : ℚ) : Json :=
  .obj [("trait", .str trait), ("op", .str ">="), ("value", .num value)]

/-- A signal that has been given. -/
def signalled (trait : String) : Json :=
  .obj [("trait", .str trait), ("op", .str "is_on")]

/-- Terms under an operator; one term stands for itself. -/
def group (op : String) : List Json → List Json
  | [] => []
  | [term] => [term]
  | terms => [.obj [("op", .str op), ("conditions", .arr terms)]]

/-- The condition tree an older step's fields amount to. -/
def endsFromOldFields (st : Json) : Json :=
  let mins := jsonNum st ["timer_min"] 0
  let pt := jsonNum st ["probe_temp"] 0
  let all := jsonStr st ["probe_match"] "any" == "all"
  let carry := jsonBool st ["carryover"] false
  let trait := if carry && !all then "food_rested" else if all then "food_min" else "food_max"
  let reached :=
    (if mins > 0 then [reaches "elapsed" (mins * 60)] else []) ++
      (if pt > 0 then [reaches trait pt] else [])
  let w := jsonStr st ["wait"] (if jsonBool st ["pause"] false then "confirm" else "none")
  let asked :=
    if w ≠ "none" then
      signalled "prompt" :: (if w = "lid" ∨ w = "lid_and" then [signalled "lid"] else [])
    else []
  let parts := group "any" reached ++ group (if w = "lid" then "any" else "all") asked
  .obj [("op", .str "all"), ("conditions", .arr parts)]

/-- The condition tree a step was saved with. -/
def savedTree (s : Json) : Json :=
  (s.memberAnyCase? "ends").getD (endsFromOldFields s)

/-- The saved tree with its temperatures in Celsius. -/
def endingTree (u : Units) (s : Json) : Json :=
  convertTree "step" u .c (savedTree s)

/-- The room for a step's ending as text, with the character that closes it. -/
def recipeEndsLen : ℕ := 1024

/-- The text of a step's ending as the step has room for it. -/
def endsText (format : NumberFormat) (s : Json) (u : Units) : List Char :=
  (printUnformatted format (endingTree u s)).take (recipeEndsLen - 1)

/-- The ending the runner has of a stored step. -/
def storedEnds (format : NumberFormat) (s : Json) (u : Units) : Option Json :=
  parse format (endsText format s u)

/-- A row of the table as it is written. -/
structure SavedRecipe where
  name : String
  description : String
  steps : List Char
  units : String

/-- The unit a recipe is written in: the one its first letter says, or the
grill's own. -/
def writtenUnits (grill : Units) (j : Json) : Units :=
  let un := jsonStr j ["units"] (if grill = .c then "C" else "F")
  if un.toList.head? = some 'C' ∨ un.toList.head? = some 'c' then .c else .f

/-- What is accepted of a request to save: the id it names and the row. -/
def recipeAccepted (format : NumberFormat) (grill : Units) (json : List Char) :
    Except String (ℤ × SavedRecipe) :=
  match parse format json with
  | none => .error "invalid JSON"
  | some j =>
      let name := jsonStr j ["name"] ""
      match j.memberAnyCase? "steps" with
      | some (.arr steps) =>
          if name = "" ∨ steps = [] then .error "name and at least one step required"
          else if recipeMaxSteps < steps.length then .error "too many steps"
          else if steps.any fun s => (modeFromName (jsonStr s ["mode"] "")).isNone then
            .error "step has an unknown mode"
          else
            .ok (jsonInt j ["id"] 0,
              { name := name
                description := jsonStr j ["description"] ""
                steps := printUnformatted format (.arr steps)
                units := if writtenUnits grill j = .c then "C" else "F" })
      | _ => .error "name and at least one step required"

/-- The table of recipes. -/
abbrev RecipeTable := ℤ → Option SavedRecipe

/-- Save a recipe: over the row of its id, where there is one, or in a new row,
whose id the database gives. -/
def recipeSave (format : NumberFormat) (grill : Units) (fresh : ℤ) (table : RecipeTable)
    (json : List Char) : Except String (ℤ × RecipeTable) :=
  (recipeAccepted format grill json).map fun accepted =>
    if accepted.1 > 0 then
      (accepted.1, if (table accepted.1).isSome then
        Function.update table accepted.1 (some accepted.2) else table)
    else (fresh, Function.update table fresh (some accepted.2))

/-- The table as a recipe is loaded from it. -/
def RecipeTable.store (format : NumberFormat) (table : RecipeTable) : RecipeStore where
  row id := (table id).map fun saved =>
    { steps := parse format saved.steps, units := some saved.units }
  ends := storedEnds format

end PiFire
