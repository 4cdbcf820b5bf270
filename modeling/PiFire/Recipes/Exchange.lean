import PiFire.Recipes.Ending
import Mathlib.Data.List.Nodup

/-!
# Recipes as a file, and back

The recipes of a grill are exported as one document, without their ids, which are the
grill's. A recipe of such a document is saved over the stored one of its name, or as a new
one. Names need not differ: the recipes that share one are all saved over the first of
them, so that an import on the grill that made the export leaves there the last of them.
-/

namespace PiFire.Exchange

/-- The rows of the table with their ids, in the order they were written. -/
abbrev Rows := List (ℤ × SavedRecipe)

namespace Rows

/-- The table the rows are. -/
def table (rows : Rows) : RecipeTable := fun id =>
  (rows.find? fun e => e.1 == id).map Prod.snd

/-- The id of the next new row: one more than the largest. -/
def next (rows : Rows) : ℤ := (rows.map Prod.fst).foldr max 0 + 1

/-- A row is written over the one of its id. -/
def overwrite (id : ℤ) (row : SavedRecipe) (rows : Rows) : Rows :=
  rows.map fun e => if e.1 = id then (id, row) else e

/-- `pf_recipe_save` -/
def save (format : NumberFormat) (grill : Units) (json : List Char) (rows : Rows) :
    Except String (ℤ × Rows) :=
  (recipeAccepted format grill json).map fun accepted =>
    if accepted.1 > 0 then (accepted.1, rows.overwrite accepted.1 accepted.2)
    else (rows.next, rows ++ [(rows.next, accepted.2)])

end Rows

/-- The letter of the units. -/
def unitsLetter (u : Units) : String := if u = .c then "C" else "F"

/-- A stored recipe as it is listed. A row of an older version has no units, and is in the
grill's. -/
def recipeObject (format : NumberFormat) (grill : Units) (e : ℤ × SavedRecipe) : Json :=
  .obj [("id", .num e.1), ("name", .str e.2.name), ("description", .str e.2.description),
    ("steps", (parse format e.2.steps).getD (.arr [])),
    ("units", .str (if e.2.units ≠ "" then e.2.units else unitsLetter grill))]

/-- `pf_recipes_list`, where the database gives the rows in this order. -/
def recipesList (format : NumberFormat) (grill : Units) (listed : Rows) : List Json :=
  listed.map (recipeObject format grill)

/-- The first member with a name in any case is deleted. -/
def deleteItem (name : String) : Json → Json
  | .obj members => .obj (members.eraseP fun entry => strcasecmp name entry.1)
  | node => node

/-- A number is added at the end. -/
def addNumber (name : String) (x : ℚ) : Json → Json
  | .obj members => .obj (members ++ [(name, .num x)])
  | .arr items => .arr (items ++ [.num x])
  | node => node

/-- `pf_recipes_export` -/
def recipesExport (format : NumberFormat) (grill : Units) (created : ℚ) (listed : Rows) : Json :=
  .obj [("app", .str "pifire-c"), ("kind", .str "recipes"), ("format", .num 1),
    ("created", .num created),
    ("recipes", .arr ((recipesList format grill listed).map (deleteItem "id")))]

/-- An import as far as it is: the rows, how many recipes came in, and for how many there was
one of their name. -/
structure Import where
  rows : Rows
  n : ℕ
  rep : ℕ

/-- A recipe of the document comes in, over the first listed of its name. -/
def importRecipe (format : NumberFormat) (grill : Units) (had : List Json) (s : Import)
    (r : Json) : Import :=
  let copy := deleteItem "id" r
  let name := jsonStr copy ["name"] ""
  let found := had.find? fun h => jsonStr h ["name"] "" == name
  let numbered := match found with
    | some h => addNumber "id" (jsonNum h ["id"] 0) copy
    | none => copy
  let rep := if found.isSome then s.rep + 1 else s.rep
  match s.rows.save format grill (printUnformatted format numbered) with
  | .ok (_, rows) => ⟨rows, s.n + 1, rep⟩
  | .error _ => { s with rep := rep }

/-- The list a document holds: the document itself, or what is under its recipes. -/
def documentList (doc : Json) : Except String (List Json) :=
  match doc with
  | .arr items => .ok items
  | doc =>
    match doc.memberAnyCase? "recipes" with
    | some (.arr items) =>
        if jsonStr doc ["kind"] "recipes" ≠ "recipes" then
          .error ("that file holds " ++ jsonStr doc ["kind"] "" ++ ", not recipes")
        else .ok items
    | _ => .error "not a recipes file"

/-- `pf_recipes_import`: how many came in and how many of them replaced one, and the rows,
which the database lists in this order. -/
def recipesImport (format : NumberFormat) (grill : Units) (order : Rows → Rows) (rows : Rows)
    (doc : Json) : Except String (ℕ × ℕ) × Rows :=
  match documentList doc with
  | .error e => (.error e, rows)
  | .ok items =>
    let had := recipesList format grill (order rows)
    let done := items.foldl (importRecipe format grill had) ⟨rows, 0, 0⟩
    (if done.n = 0 then .error "no recipe in the file could be read" else .ok (done.n, done.rep),
      done.rows)

/-- A row that a save wrote; a row of an older version has no units. -/
def Stored (format : NumberFormat) (row : SavedRecipe) : Prop :=
  ∃ grill json id written, recipeAccepted format grill json = .ok (id, written) ∧
    (row = written ∨ row = { written with units := "" })

/-- The stored recipes: each under an id of its own, an int, which is written and read as
it is. -/
structure Book (format : NumberFormat) where
  rows : Rows
  distinct : (rows.map Prod.fst).Nodup
  ids : ∀ e ∈ rows, 0 < e.1 ∧ format.kept e.1 = e.1
  stored : ∀ e ∈ rows, Stored format e.2

theorem lt_next {rows : Rows} {e : ℤ × SavedRecipe} (inside : e ∈ rows) : e.1 < rows.next := by
  have below : e.1 ≤ (rows.map Prod.fst).foldr max 0 := by
    induction rows with
    | nil => cases inside
    | cons first rest ih =>
        rcases List.mem_cons.mp inside with rfl | later
        · exact le_max_left _ _
        · exact (ih later).trans (le_max_right _ _)
  exact Int.lt_add_one_iff.mpr below

theorem table_overwrite (id : ℤ) (row : SavedRecipe) (rows : Rows) :
    (rows.overwrite id row).table =
      if (rows.table id).isSome then Function.update rows.table id (some row) else rows.table := by
  funext key
  have sought : ((fun e : ℤ × SavedRecipe => e.1 == key) ∘
      fun e => if e.1 = id then (id, row) else e) = fun e => e.1 == key := by
    funext e
    by_cases same : e.1 = id
    · simp [same]
    · simp [same]
  rw [Rows.table, Rows.overwrite, List.find?_map, sought]
  by_cases here : key = id
  · subst here
    rw [ite_apply, Function.update_self]
    cases found : rows.find? fun e => e.1 == key with
    | none =>
        have none_ : rows.table key = none := by rw [Rows.table, found, Option.map_none]
        rw [none_]
        rfl
    | some e =>
        have some_ : rows.table key = some e.2 := by rw [Rows.table, found, Option.map_some]
        have named : e.1 = key := by simpa using List.find?_some found
        simp [some_, named]
  · have apart : rows.table key = (if (rows.table id).isSome then
        Function.update rows.table id (some row) else rows.table) key := by
      split_ifs
      · rw [Function.update_of_ne here]
      · rfl
    rw [← apart, Rows.table]
    cases found : rows.find? fun e => e.1 == key with
    | none => rfl
    | some e =>
        have named : e.1 = key := by simpa using List.find?_some found
        simp [named, here]

theorem table_append {rows : Rows} {id : ℤ} (unused : ∀ e ∈ rows, e.1 ≠ id) (row : SavedRecipe) :
    (Rows.table (rows ++ [(id, row)])) = Function.update rows.table id (some row) := by
  funext key
  rw [Rows.table, List.find?_append]
  by_cases here : key = id
  · subst here
    have none_ : rows.find? (fun e => e.1 == key) = none := by
      apply List.find?_eq_none.mpr
      intro e inside
      simpa using unused e inside
    simp [none_]
  · rw [Function.update_of_ne here, Rows.table]
    simp [Ne.symm here]

theorem save_table (format : NumberFormat) (grill : Units) (json : List Char) (rows : Rows) :
    (rows.save format grill json).map (fun done => (done.1, done.2.table)) =
      recipeSave format grill rows.next rows.table json := by
  rw [Rows.save, recipeSave]
  cases recipeAccepted format grill json with
  | error e => rfl
  | ok accepted =>
      simp only [Except.map]
      split_ifs with named found
      · rw [table_overwrite, if_pos found]
      · rw [table_overwrite, if_neg found]
      · rw [table_append fun e inside => (lt_next inside).ne]

end PiFire.Exchange
