import PiFire.Recipes.Exchange

/-!
# An import on the grill that made the export

What an exported recipe is saved as is what was stored. So the recipes are the same ones on
a grill that had none, and on the grill that made the export every recipe is written over
the first of its name. That leaves all of them as they were exactly when, of the recipes
that share a name, the first and the last are alike.
-/

namespace PiFire

/-- A number that was read from what was written is written so again. -/
def NumberFormat.Settled (format : NumberFormat) : Prop :=
  ∀ x, format.digits (format.kept x) = format.digits x

namespace Json

variable {format : NumberFormat}

mutual

theorem print_mapNumbers (settled : format.Settled) (node : Json) :
    printUnformatted format (node.mapNumbers format.kept) = printUnformatted format node := by
  cases node with
  | num x => exact settled x
  | arr items =>
      simp only [mapNumbers, printUnformatted, printItems_mapNumbersItems settled items]
  | obj members =>
      simp only [mapNumbers, printUnformatted, printMembers_mapNumbersMembers settled members]
  | _ => rfl

theorem printItems_mapNumbersItems (settled : format.Settled) (items : List Json) :
    printItems format (mapNumbersItems format.kept items) = printItems format items := by
  cases items with
  | nil => rfl
  | cons item rest =>
      simp only [mapNumbersItems, printItems, print_mapNumbers settled item,
        printItems_mapNumbersItems settled rest]

theorem printMembers_mapNumbersMembers (settled : format.Settled)
    (members : List (String × Json)) :
    printMembers format (mapNumbersMembers format.kept members) = printMembers format members := by
  cases members with
  | nil => rfl
  | cons entry rest =>
      obtain ⟨name, value⟩ := entry
      simp only [mapNumbersMembers, printMembers, print_mapNumbers settled value,
        printMembers_mapNumbersMembers settled rest]

end

theorem unbroken_jsonStr {node : Json} {name : String} {limit : ℕ}
    (named : name.toList.all Char.isDigit = false) (fits : node.fits limit = true) :
    unbroken (jsonStr node [name] "") = true := by
  have single : jsonPath node [name] = node.member? name := by
    rw [jsonPath, enter?_name named]
    cases node.member? name <;> rfl
  rw [jsonStr, single]
  cases found : node.member? name with
  | none => rfl
  | some value =>
      cases value with
      | str s =>
          cases node with
          | obj members =>
              cases limit with
              | zero => cases fits
              | succ limit =>
                  obtain ⟨before, after, rfl, -⟩ := List.lookup_eq_some_iff.mp found
                  exact (fitsMembers_iff.mp fits (name, .str s) (by simp)).2
          | _ => cases found
      | _ => rfl

end Json

namespace Exchange

open Json

variable {format : NumberFormat} {grill other : Units} {row : SavedRecipe}

/-! ## A stored row -/

/-- The row as the grill reads it, with units where it has none. -/
def stamp (grill : Units) (row : SavedRecipe) : SavedRecipe :=
  { row with units := if row.units ≠ "" then row.units else unitsLetter grill }

@[simp] theorem stamp_name (grill : Units) (row : SavedRecipe) :
    (stamp grill row).name = row.name := rfl

/-- What is known of a stored row: its steps are the text of a list that was accepted, and
its texts can be written. -/
structure Written (format : NumberFormat) (row : SavedRecipe) (steps : List Json) : Prop where
  text : row.steps = printUnformatted format (.arr steps)
  some_ : steps ≠ []
  few : steps.length ≤ recipeMaxSteps
  modes : ∀ s ∈ steps, (modeFromName (jsonStr s ["mode"] "")).isSome = true
  fits : (Json.arr steps).fits (nestingLimit - 1) = true
  name : row.name ≠ ""
  unbrokenName : unbroken row.name = true
  unbrokenDescription : unbroken row.description = true
  units : row.units = "C" ∨ row.units = "F" ∨ row.units = ""

theorem written_of_accepted {json : List Char} {id : ℤ}
    (accepted : recipeAccepted format grill json = .ok (id, row)) :
    ∃ steps, Written format row steps := by
  rw [recipeAccepted] at accepted
  cases parsed : parse format json with
  | none =>
      rw [parsed] at accepted
      cases accepted
  | some j =>
      have inside := parse_fits parsed
      rw [parsed] at accepted
      dsimp only at accepted
      split at accepted
      · rename_i steps member
        by_cases empty : jsonStr j ["name"] "" = "" ∨ steps = []
        · rw [if_pos empty] at accepted
          cases accepted
        by_cases many : recipeMaxSteps < steps.length
        · rw [if_neg empty, if_pos many] at accepted
          cases accepted
        by_cases unknown : (steps.any fun s => (modeFromName (jsonStr s ["mode"] "")).isNone) = true
        · rw [if_neg empty, if_neg many, if_pos unknown] at accepted
          cases accepted
        rw [if_neg empty, if_neg many, if_neg unknown] at accepted
        simp only [Except.ok.injEq, Prod.mk.injEq] at accepted
        rcases accepted with ⟨-, rfl⟩
        rw [not_or] at empty
        refine ⟨steps, rfl, empty.2, not_lt.mp many, ?_, ?_, empty.1,
          unbroken_jsonStr (by decide) inside, unbroken_jsonStr (by decide) inside, ?_⟩
        · intro s among
          rw [Option.isSome_iff_ne_none]
          intro none_
          exact unknown (List.any_eq_true.mpr ⟨s, among, by rw [none_]; rfl⟩)
        · cases j with
          | obj members =>
              obtain ⟨entry, picked, value⟩ := Option.map_eq_some_iff.mp member
              have fits := (fitsMembers_iff.mp inside entry (List.mem_of_find?_eq_some picked)).2
              rw [value] at fits
              exact fits
          | _ => cases member
        · by_cases celsius : writtenUnits grill j = .c
          · exact Or.inl (if_pos celsius)
          · exact Or.inr (Or.inl (if_neg celsius))
      · cases accepted

theorem exists_written (stored : Stored format row) : ∃ steps, Written format row steps := by
  rcases stored with ⟨grill, json, id, written, accepted, rfl | rfl⟩
  · exact written_of_accepted accepted
  · obtain ⟨steps, held⟩ := written_of_accepted accepted
    exact ⟨steps, held.text, held.some_, held.few, held.modes, held.fits, held.name,
      held.unbrokenName, held.unbrokenDescription, Or.inr (Or.inr rfl)⟩

/-! ## What an exported recipe is saved as -/

/-- The members of an exported recipe. -/
def exportedMembers (format : NumberFormat) (grill : Units) (row : SavedRecipe) :
    List (String × Json) :=
  [("name", .str row.name), ("description", .str row.description),
    ("steps", (parse format row.steps).getD (.arr [])), ("units", .str (stamp grill row).units)]

theorem deleteItem_recipeObject (e : ℤ × SavedRecipe) :
    deleteItem "id" (recipeObject format grill e) = .obj (exportedMembers format grill e.2) := by
  have named : strcasecmp "id" "id" = true := by decide
  change Json.obj (bif strcasecmp "id" "id" then _ else _) = _
  rw [named]
  rfl

/-- The members an import saves a recipe with: with the id of the one it replaces, if there
is one. -/
def savedMembers (format : NumberFormat) (grill : Units) (row : SavedRecipe) (id : Option ℤ) :
    List (String × Json) :=
  exportedMembers format grill row ++ id.elim [] fun id => [("id", .num id)]

theorem stamp_units (grill : Units) {steps : List Json} (written : Written format row steps) :
    (stamp grill row).units = "C" ∨ (stamp grill row).units = "F" := by
  rcases written.units with set | set | none_
  · exact Or.inl (by simp [stamp, set])
  · exact Or.inr (by simp [stamp, set])
  · cases grill
    · exact Or.inr (by simp [stamp, none_, unitsLetter])
    · exact Or.inl (by simp [stamp, none_, unitsLetter])

theorem accepted_exported (grill other : Units) (lawful : format.Lawful)
    (settled : format.Settled) (stored : Stored format row) (id : Option ℤ)
    (kept : ∀ n ∈ id, format.kept n = n) :
    recipeAccepted format other
      (printUnformatted format (.obj (savedMembers format grill row id))) =
        .ok (id.getD 0, stamp grill row) := by
  obtain ⟨steps, written⟩ := exists_written stored
  have steps_eq : (parse format row.steps).getD (.arr []) =
      (Json.arr steps).mapNumbers format.kept := by
    rw [written.text, parse_print lawful (fits_mono (by decide) written.fits), Option.getD_some]
  have letters := stamp_units grill written
  have fits : (Json.obj (savedMembers format grill row id)).fits nestingLimit = true := by
    refine fitsMembers_iff.mpr ?_
    rw [savedMembers, exportedMembers, steps_eq]
    intro entry inside
    rcases List.mem_append.mp inside with own | numbered
    · simp only [List.mem_cons, List.not_mem_nil, or_false] at own
      rcases own with rfl | rfl | rfl | rfl
      · exact ⟨(by decide : unbroken "name" = true), written.unbrokenName⟩
      · exact ⟨(by decide : unbroken "description" = true), written.unbrokenDescription⟩
      · refine ⟨(by decide : unbroken "steps" = true), ?_⟩
        rw [fits_mapNumbers]
        exact written.fits
      · refine ⟨(by decide : unbroken "units" = true), ?_⟩
        rcases letters with set | set
        · rw [set]
          decide
        · rw [set]
          decide
    · cases id with
      | none => cases numbered
      | some n =>
          rw [List.mem_singleton.mp numbered]
          exact ⟨(by decide : unbroken "id" = true), rfl⟩
  rw [recipeAccepted, parse_print lawful fits]
  dsimp only
  rw [jsonStr_mapNumbers _ _ (by decide), jsonStr_mapNumbers _ _ (by decide),
    memberAnyCase?_mapNumbers]
  have name : jsonStr (.obj (savedMembers format grill row id)) ["name"] "" = row.name := rfl
  have description :
      jsonStr (.obj (savedMembers format grill row id)) ["description"] "" = row.description := rfl
  have member : (Json.obj (savedMembers format grill row id)).memberAnyCase? "steps" =
      some ((Json.arr steps).mapNumbers format.kept) := by
    have first : strcasecmp "steps" "name" = false := by decide
    have second : strcasecmp "steps" "description" = false := by decide
    have third : strcasecmp "steps" "steps" = true := by decide
    rw [memberAnyCase?, savedMembers, exportedMembers, steps_eq]
    simp [first, second, third]
  have numbered : jsonInt ((Json.obj (savedMembers format grill row id)).mapNumbers format.kept)
      ["id"] 0 = id.getD 0 := by
    rw [jsonInt, jsonNum, jsonNum?, jsonPath_mapNumbers _ _ (by decide)]
    cases id with
    | none => rfl
    | some n =>
        change truncate (format.kept n) = n
        rw [kept n rfl, truncate_intCast]
  have units : writtenUnits other
      ((Json.obj (savedMembers format grill row id)).mapNumbers format.kept) =
        if (stamp grill row).units = "C" then .c else .f := by
    rw [writtenUnits, jsonStr_mapNumbers _ _ (by decide)]
    change (if (stamp grill row).units.toList.head? = some 'C' ∨
      (stamp grill row).units.toList.head? = some 'c' then Units.c else .f) = _
    rcases letters with set | set
    · rw [set]
      decide
    · rw [set]
      decide
  -- the steps went through two texts, which keeps all but their numbers
  obtain ⟨read, read_eq⟩ : ∃ read,
      read = (steps.map (mapNumbers format.kept)).map (mapNumbers format.kept) := ⟨_, rfl⟩
  have twice : ((Json.arr steps).mapNumbers format.kept).mapNumbers format.kept = .arr read := by
    simp only [mapNumbers, mapNumbersItems_eq, read_eq]
  have modes : (read.any fun s => (modeFromName (jsonStr s ["mode"] "")).isNone) ≠ true := by
    rw [read_eq, List.any_map, List.any_map, Ne, List.any_eq_true]
    rintro ⟨s, among, none_⟩
    rw [Function.comp_apply, Function.comp_apply, jsonStr_mapNumbers _ _ (by decide),
      jsonStr_mapNumbers _ _ (by decide), Option.isNone_iff_eq_none] at none_
    have known := written.modes s among
    rw [none_] at known
    cases known
  have apart : ¬(row.name = "" ∨ read = []) := by
    rw [read_eq, List.map_eq_nil_iff, List.map_eq_nil_iff]
    exact not_or.mpr ⟨written.name, written.some_⟩
  have few : ¬recipeMaxSteps < read.length := by
    rw [read_eq, List.length_map, List.length_map]
    exact not_lt.mpr written.few
  have text : printUnformatted format (.arr read) = row.steps := by
    rw [← twice, print_mapNumbers settled, print_mapNumbers settled, written.text]
  have letter :
      (if (if (stamp grill row).units = "C" then Units.c else .f) = .c then "C" else "F") =
        (stamp grill row).units := by
    rcases letters with set | set
    · rw [set]
      decide
    · rw [set]
      decide
  rw [name, description, member, numbered, units, Option.map_some, twice]
  dsimp only
  rw [if_neg apart, if_neg few, if_neg modes, text]
  rw [letter]
  rfl

/-! ## What an import does to the rows -/

/-- The id of the first listed recipe of a name. -/
def firstId (listed : Rows) (name : String) : Option ℤ :=
  (listed.find? fun e => e.2.name == name).map Prod.fst

theorem find_recipesList (listed : Rows) (name : String) :
    (recipesList format grill listed).find? (fun h => jsonStr h ["name"] "" == name) =
      (listed.find? fun e => e.2.name == name).map (recipeObject format grill) := by
  rw [recipesList, List.find?_map]
  rfl

theorem deleteItem_exported (row : SavedRecipe) :
    deleteItem "id" (.obj (exportedMembers format grill row)) =
      .obj (exportedMembers format grill row) := by
  rw [deleteItem, List.eraseP_of_forall_not]
  intro entry inside
  simp only [exportedMembers, List.mem_cons, List.not_mem_nil, or_false] at inside
  rcases inside with rfl | rfl | rfl | rfl
  · exact (by decide : ¬strcasecmp "id" "name" = true)
  · exact (by decide : ¬strcasecmp "id" "description" = true)
  · exact (by decide : ¬strcasecmp "id" "steps" = true)
  · exact (by decide : ¬strcasecmp "id" "units" = true)

section Imports

variable (lawful : format.Lawful) (settled : format.Settled)

include lawful settled

theorem importRecipe_new {listed : Rows} {e : ℤ × SavedRecipe} (s : Import)
    (stored : Stored format e.2) (unknown : listed.find? (fun h => h.2.name == e.2.name) = none) :
    importRecipe format other (recipesList format other listed) s
        (.obj (exportedMembers format grill e.2)) =
      ⟨s.rows ++ [(s.rows.next, stamp grill e.2)], s.n + 1, s.rep⟩ := by
  have accepted := accepted_exported grill other lawful settled stored none
    (by simp)
  rw [savedMembers, Option.elim_none, List.append_nil] at accepted
  rw [importRecipe, deleteItem_exported]
  have name : jsonStr (.obj (exportedMembers format grill e.2)) ["name"] "" = e.2.name := rfl
  rw [name, find_recipesList, unknown]
  dsimp only [Option.map_none]
  rw [Rows.save, accepted]
  rfl

theorem importRecipe_known {listed : Rows} {e first : ℤ × SavedRecipe} (s : Import)
    (stored : Stored format e.2) (known : listed.find? (fun h => h.2.name == e.2.name) = some first)
    (positive : 0 < first.1) (kept : format.kept first.1 = first.1) :
    importRecipe format grill (recipesList format grill listed) s
        (.obj (exportedMembers format grill e.2)) =
      ⟨s.rows.overwrite first.1 (stamp grill e.2), s.n + 1, s.rep + 1⟩ := by
  have accepted := accepted_exported grill grill lawful settled stored
    (some first.1) (by simpa using kept)
  rw [importRecipe, deleteItem_exported]
  have name : jsonStr (.obj (exportedMembers format grill e.2)) ["name"] "" = e.2.name := rfl
  rw [name, find_recipesList, known]
  dsimp only [Option.map_some]
  have id : jsonNum (recipeObject format grill first) ["id"] 0 = first.1 := rfl
  rw [id, Rows.save]
  have numbered : addNumber "id" first.1 (.obj (exportedMembers format grill e.2)) =
    .obj (savedMembers format grill e.2 (some first.1)) := rfl
  rw [numbered, accepted]
  dsimp only [Except.map, Option.getD_some]
  rw [if_pos positive]
  rfl

theorem foldl_new (grill other : Units) {file : Rows} (stored : ∀ e ∈ file, Stored format e.2)
    (s : Import) :
    let done := (file.map fun e => Json.obj (exportedMembers format grill e.2)).foldl
      (importRecipe format other (recipesList format other [])) s
    done.rows.map Prod.snd = s.rows.map Prod.snd ++ file.map (fun e => stamp grill e.2) ∧
      done.n = s.n + file.length ∧ done.rep = s.rep := by
  induction file generalizing s with
  | nil => simp
  | cons e file ih =>
      have come := ih (fun e inside => stored e (List.mem_cons_of_mem _ inside))
        (importRecipe format other (recipesList format other []) s
          (.obj (exportedMembers format grill e.2)))
      rw [List.map_cons, List.foldl_cons]
      refine ⟨come.1.trans ?_, come.2.1.trans ?_, come.2.2.trans ?_⟩
      all_goals
        rw [importRecipe_new lawful settled s (stored e List.mem_cons_self) List.find?_nil]
      · simp
      · rw [List.length_cons, Nat.add_assoc, Nat.add_comm 1]

/-- The recipe of a file over the first listed of its name. -/
def rewrite (grill : Units) (listed rows : Rows) (e : ℤ × SavedRecipe) : Rows :=
  (firstId listed e.2.name).elim rows fun id => rows.overwrite id (stamp grill e.2)

theorem foldl_known (grill : Units) {listed file : Rows} (inside : ∀ e ∈ file, e ∈ listed)
    (ids : ∀ e ∈ listed, 0 < e.1 ∧ format.kept e.1 = e.1)
    (stored : ∀ e ∈ listed, Stored format e.2) (s : Import) :
    (file.map fun e => Json.obj (exportedMembers format grill e.2)).foldl
        (importRecipe format grill (recipesList format grill listed)) s =
      ⟨file.foldl (rewrite grill listed) s.rows, s.n + file.length, s.rep + file.length⟩ := by
  induction file generalizing s with
  | nil => rfl
  | cons e file ih =>
      have here : e ∈ listed := inside e List.mem_cons_self
      obtain ⟨first, found⟩ : ∃ first,
          listed.find? (fun h => h.2.name == e.2.name) = some first := by
        apply Option.isSome_iff_exists.mp
        exact List.find?_isSome.mpr ⟨e, here, by simp⟩
      obtain ⟨positive, kept⟩ := ids first (List.mem_of_find?_eq_some found)
      have replaced : rewrite grill listed s.rows e =
          s.rows.overwrite first.1 (stamp grill e.2) := by
        rw [rewrite, firstId, found]
        rfl
      rw [List.map_cons, List.foldl_cons,
        importRecipe_known lawful settled s (stored e here) found positive kept,
        ih (fun e later => inside e (List.mem_cons_of_mem _ later)), List.foldl_cons, replaced,
        List.length_cons, Nat.add_assoc, Nat.add_assoc, Nat.add_comm 1]

end Imports

theorem foldl_rewrite (grill : Units) (listed file rows : Rows) :
    file.foldl (rewrite grill listed) rows =
      rows.map fun r => (r.1,
        ((file.reverse.find? fun e => firstId listed e.2.name == some r.1).map
          fun e => stamp grill e.2).getD r.2) := by
  induction file using List.reverseRecOn with
  | nil => simp
  | append_singleton file e ih =>
      rw [List.foldl_append, ih, List.foldl_cons, List.foldl_nil, rewrite]
      cases first : firstId listed e.2.name with
      | none =>
          apply List.map_congr_left
          intro r _
          simp [first]
      | some id =>
          rw [Option.elim_some, Rows.overwrite, List.map_map]
          apply List.map_congr_left
          intro r _
          by_cases same : r.1 = id
          · simp [first, same]
          · simp [first, same, Ne.symm same]

/-! ## The round trip -/

theorem memberAnyCase?_export (created : ℚ) (listed : Rows) :
    (recipesExport format grill created listed).memberAnyCase? "recipes" =
      some (.arr (listed.map fun e => .obj (exportedMembers format grill e.2))) := by
  have items : (recipesList format grill listed).map (deleteItem "id") =
      listed.map fun e => .obj (exportedMembers format grill e.2) := by
    rw [recipesList, List.map_map]
    apply List.map_congr_left
    intro e _
    exact deleteItem_recipeObject e
  have app : strcasecmp "recipes" "app" = false := by decide
  have kind : strcasecmp "recipes" "kind" = false := by decide
  have version : strcasecmp "recipes" "format" = false := by decide
  have made : strcasecmp "recipes" "created" = false := by decide
  have recipes : strcasecmp "recipes" "recipes" = true := strcasecmp_self _
  rw [recipesExport, items, memberAnyCase?]
  simp [app, kind, version, made, recipes]

theorem documentList_of_member {doc : Json} {items : List Json}
    (member : doc.memberAnyCase? "recipes" = some (.arr items))
    (kind : jsonStr doc ["kind"] "recipes" = "recipes") : documentList doc = .ok items := by
  cases doc with
  | obj members =>
      rw [documentList, member]
      · exact if_neg (not_not.mpr kind)
      · intro items same
        cases same
  | _ => cases member

theorem documentList_export (created : ℚ) (listed : Rows) :
    documentList (recipesExport format grill created listed) =
      .ok (listed.map fun e => .obj (exportedMembers format grill e.2)) :=
  documentList_of_member (memberAnyCase?_export created listed) rfl

/-- Of the recipes that share a name, the one listed first and the one listed last are
alike. -/
def Alike (grill : Units) (listed : Rows) : Prop :=
  ∀ name first last, listed.find? (fun e => e.2.name == name) = some first →
    listed.reverse.find? (fun e => e.2.name == name) = some last →
      stamp grill first.2 = stamp grill last.2

theorem alike_of_distinct {listed : Rows} (names : (listed.map fun e => e.2.name).Nodup) :
    Alike grill listed := by
  intro name first last found lastFound
  have firstNamed : first.2.name = name := by simpa using List.find?_some found
  have lastNamed : last.2.name = name := by simpa using List.find?_some lastFound
  rw [List.inj_on_of_nodup_map names (List.mem_of_find?_eq_some found)
    (List.mem_reverse.mp (List.mem_of_find?_eq_some lastFound))
    (firstNamed.trans lastNamed.symm)]

/-- The same recipes under the same ids, as the grill reads them. -/
def Unchanged (grill : Units) (rows rows' : Rows) : Prop :=
  rows'.map (fun e => (e.1, stamp grill e.2)) = rows.map fun e => (e.1, stamp grill e.2)

theorem stamp_stamp (grill other : Units) (row : SavedRecipe) :
    stamp other (stamp grill row) = stamp grill row := by
  have named : (stamp grill row).units ≠ "" := by
    by_cases set : row.units ≠ ""
    · rw [stamp, if_pos set]
      exact set
    · rw [stamp, if_neg set]
      change unitsLetter grill ≠ ""
      cases grill <;> decide
  rw [stamp, if_pos named]

theorem firstId_beq {listed : Rows} (distinct : (listed.map Prod.fst).Nodup) {name : String}
    {first : ℤ × SavedRecipe} (found : listed.find? (fun e => e.2.name == name) = some first) :
    (fun e : ℤ × SavedRecipe => firstId listed e.2.name == some first.1) =
      fun e => e.2.name == name := by
  funext e
  rw [Bool.eq_iff_iff, beq_iff_eq, beq_iff_eq]
  constructor
  · intro here
    obtain ⟨other, foundOther, same⟩ := Option.map_eq_some_iff.mp here
    obtain rfl : other = first :=
      List.inj_on_of_nodup_map distinct (List.mem_of_find?_eq_some foundOther)
        (List.mem_of_find?_eq_some found) same
    have own : other.2.name = name := by simpa using List.find?_some found
    have its : other.2.name = e.2.name := by simpa using List.find?_some foundOther
    exact its.symm.trans own
  · intro same
    rw [firstId, same, found, Option.map_some]

theorem unchanged_iff (book : Book format) {listed : Rows} (order : listed.Perm book.rows) :
    Unchanged grill book.rows (listed.foldl (rewrite grill listed) book.rows) ↔
      Alike grill listed := by
  have distinct : (listed.map Prod.fst).Nodup := (order.map Prod.fst).nodup_iff.mpr book.distinct
  rw [Unchanged, foldl_rewrite, List.map_map]
  constructor
  · intro unchanged name first last found lastFound
    have inside : first ∈ book.rows := order.mem_iff.mp (List.mem_of_find?_eq_some found)
    have here := List.map_inj_left.mp unchanged first inside
    rw [Function.comp_apply, firstId_beq distinct found, lastFound, Option.map_some,
      Option.getD_some, stamp_stamp] at here
    exact (Prod.mk.inj here).2.symm
  · intro alike
    apply List.map_congr_left
    intro r inside
    rw [Function.comp_apply]
    cases last : listed.reverse.find? fun e => firstId listed e.2.name == some r.1 with
    | none => rfl
    | some e =>
        have written : firstId listed e.2.name = some r.1 := by simpa using List.find?_some last
        obtain ⟨first, found, same⟩ := Option.map_eq_some_iff.mp written
        obtain rfl : first = r :=
          List.inj_on_of_nodup_map distinct (List.mem_of_find?_eq_some found)
            (order.mem_iff.mpr inside) same
        rw [firstId_beq distinct found] at last
        rw [Option.map_some, Option.getD_some, stamp_stamp, alike _ _ _ found last]

/-- An export that is imported where it was made leaves the recipes as they were, and where
there are none gives the same ones. -/
structure RoundTrips (format : NumberFormat) (grill other : Units) (order : Rows → Rows)
    (created : ℚ) (rows : Rows) : Prop where
  here : Unchanged grill rows (recipesImport format grill order rows
    (recipesExport format grill created (order rows))).2
  there : ((recipesImport format other order []
    (recipesExport format grill created (order rows))).2.map Prod.snd).Perm
      (rows.map fun e => stamp grill e.2)

section RoundTrip

variable (lawful : format.Lawful) (settled : format.Settled) (order : Rows → Rows)
  (lists : ∀ rows, (order rows).Perm rows) (book : Book format) (created : ℚ)

include lawful settled lists

theorem import_here (grill : Units) :
    recipesImport format grill order book.rows
        (recipesExport format grill created (order book.rows)) =
      (if book.rows = [] then .error "no recipe in the file could be read"
        else .ok (book.rows.length, book.rows.length),
        (order book.rows).foldl (rewrite grill (order book.rows)) book.rows) := by
  have perm := lists book.rows
  have done := foldl_known lawful settled grill (fun e inside => inside)
    (fun e inside => book.ids e (perm.mem_iff.mp inside))
    (fun e inside => book.stored e (perm.mem_iff.mp inside)) ⟨book.rows, 0, 0⟩
  rw [recipesImport, documentList_export]
  dsimp only
  rw [done, Nat.zero_add, perm.length_eq]
  simp only [List.length_eq_zero_iff]

theorem import_there :
    ((recipesImport format other order []
      (recipesExport format grill created (order book.rows))).2.map Prod.snd) =
        (order book.rows).map fun e => stamp grill e.2 := by
  have none_ : order [] = [] := List.perm_nil.mp (lists [])
  have come := foldl_new lawful settled grill other
    (fun e inside => book.stored e ((lists book.rows).mem_iff.mp inside)) ⟨[], 0, 0⟩
  rw [recipesImport, documentList_export, none_]
  exact come.1

/-- The round trip gives the same recipes exactly when, of the recipes that share a name, the
first and the last are alike. -/
theorem round_trips_iff :
    RoundTrips format grill other order created book.rows ↔ Alike grill (order book.rows) := by
  have here := import_here lawful settled order lists book created grill
  constructor
  · intro trips
    have unchanged := trips.here
    rw [here] at unchanged
    exact (unchanged_iff book (lists book.rows)).mp unchanged
  · intro alike
    constructor
    · rw [here]
      exact (unchanged_iff book (lists book.rows)).mpr alike
    · rw [import_there lawful settled order lists book created]
      exact (lists book.rows).map _

end RoundTrip

/-! ## The export as a text -/

theorem kept_kept (lawful : format.Lawful) (settled : format.Settled) (x : ℚ) :
    format.kept (format.kept x) = format.kept x := by
  obtain ⟨kept, reads⟩ := lawful.reads x
  have first : format.kept x = kept := by
    rw [NumberFormat.kept, reads]
    rfl
  rw [NumberFormat.kept, settled x, reads, first]
  rfl

theorem exported_mapNumbers (lawful : format.Lawful) (settled : format.Settled)
    (stored : Stored format row) :
    (Json.obj (exportedMembers format grill row)).mapNumbers format.kept =
      .obj (exportedMembers format grill row) := by
  obtain ⟨steps, written⟩ := exists_written stored
  have twice : format.kept ∘ format.kept = format.kept := funext (kept_kept lawful settled)
  have steps_eq : (parse format row.steps).getD (.arr []) =
      (Json.arr steps).mapNumbers format.kept := by
    rw [written.text, parse_print lawful (fits_mono (by decide) written.fits), Option.getD_some]
  simp only [exportedMembers, mapNumbers, mapNumbersMembers]
  rw [steps_eq, mapNumbers_mapNumbers, twice]

/-- An export that is read back from its text is imported as the export is. -/
theorem import_read (lawful : format.Lawful) (settled : format.Settled) {listed : Rows}
    (stored : ∀ e ∈ listed, Stored format e.2) (created : ℚ)
    (fits : (recipesExport format grill created listed).fits nestingLimit = true) :
    ∃ file, parse format (printUnformatted format (recipesExport format grill created listed)) =
        some file ∧
      ∀ order rows, recipesImport format other order rows file =
        recipesImport format other order rows (recipesExport format grill created listed) := by
  have member : ((recipesExport format grill created listed).mapNumbers format.kept).memberAnyCase?
      "recipes" = some (.arr (listed.map fun e => .obj (exportedMembers format grill e.2))) := by
    rw [memberAnyCase?_mapNumbers, memberAnyCase?_export, Option.map_some, mapNumbers,
      mapNumbersItems_eq, List.map_map]
    congr 2
    apply List.map_congr_left
    intro e inside
    exact exported_mapNumbers lawful settled (stored e inside)
  have kind : jsonStr ((recipesExport format grill created listed).mapNumbers format.kept) ["kind"]
      "recipes" = "recipes" := by
    rw [jsonStr_mapNumbers _ _ (by decide)]
    rfl
  refine ⟨_, parse_print lawful fits, ?_⟩
  intro order rows
  rw [recipesImport, recipesImport, documentList_of_member member kind, documentList_export]

/-! ## Two recipes of one name -/

theorem digitFormat_settled : digitFormat.Settled := by
  intro x
  rcases digits_cases x with ⟨-, same⟩ | ⟨n, small, rfl, same⟩ | ⟨-, same⟩
  · rw [NumberFormat.kept, same]
    rfl
  · rw [NumberFormat.kept, same, (digit_read n small).2.2]
    exact same
  · rw [NumberFormat.kept, same]
    rfl

/-- A request to save a recipe of one step. -/
def smokeRequest (name description : String) : Json :=
  .obj [("name", .str name), ("description", .str description),
    ("steps", .arr [.obj [("mode", .str "Smoke")]])]

/-- The row it is saved as. -/
def smokeRecipe (name description : String) : SavedRecipe where
  name := name
  description := description
  steps := printUnformatted digitFormat (.arr [.obj [("mode", .str "Smoke")]])
  units := "F"

theorem stored_smokeRecipe {name description : String} (given : name ≠ "")
    (fits : (smokeRequest name description).fits nestingLimit = true) :
    Stored digitFormat (smokeRecipe name description) := by
  refine ⟨.f, printUnformatted digitFormat (smokeRequest name description), 0, _, ?_, Or.inl rfl⟩
  have named : jsonStr ((smokeRequest name description).mapNumbers digitFormat.kept) ["name"] "" =
    name := rfl
  have member : ((smokeRequest name description).mapNumbers digitFormat.kept).memberAnyCase?
      "steps" = some (.arr [.obj [("mode", .str "Smoke")]]) := by
    rw [memberAnyCase?_mapNumbers]
    have first : strcasecmp "steps" "name" = false := by decide
    have second : strcasecmp "steps" "description" = false := by decide
    have third : strcasecmp "steps" "steps" = true := strcasecmp_self _
    simp [smokeRequest, memberAnyCase?, first, second, third, mapNumbers, mapNumbersItems,
      mapNumbersMembers]
  rw [recipeAccepted, parse_print digitFormat_lawful fits]
  dsimp only
  have unnumbered :
      jsonInt ((smokeRequest name description).mapNumbers digitFormat.kept) ["id"] 0 = 0 :=
    truncate_intCast 0
  have unmarked :
      writtenUnits .f ((smokeRequest name description).mapNumbers digitFormat.kept) = .f := by
    change (if "F".toList.head? = some 'C' ∨ "F".toList.head? = some 'c' then Units.c else .f) = .f
    decide
  have some_ : ¬(name = "" ∨ [Json.obj [("mode", .str "Smoke")]] = []) := by
    rintro (none_ | none_)
    · exact given none_
    · cases none_
  have known : ([Json.obj [("mode", .str "Smoke")]].any fun s =>
      (modeFromName (jsonStr s ["mode"] "")).isNone) ≠ true := by
    decide
  rw [named, member]
  dsimp only
  rw [if_neg some_, if_neg (by decide), if_neg known, unnumbered, unmarked]
  rfl

/-- Two recipes, of the names and the descriptions given. -/
def twoRecipes (first second : String × String)
    (given : first.1 ≠ "" ∧ second.1 ≠ "")
    (fits : (smokeRequest first.1 first.2).fits nestingLimit = true ∧
      (smokeRequest second.1 second.2).fits nestingLimit = true) : Book digitFormat where
  rows := [(1, smokeRecipe first.1 first.2), (2, smokeRecipe second.1 second.2)]
  distinct := (by decide : ([1, 2] : List ℤ).Nodup)
  ids := by
    simp only [List.forall_mem_cons]
    exact ⟨by decide, by decide, fun _ none_ => absurd none_ List.not_mem_nil⟩
  stored := by
    simp only [List.forall_mem_cons]
    exact ⟨stored_smokeRecipe given.1 fits.1, stored_smokeRecipe given.2 fits.2,
      fun _ none_ => absurd none_ List.not_mem_nil⟩

/-- Two recipes of one name that are smoked differently. -/
def ribsTwice : Book digitFormat :=
  twoRecipes ("Ribs", "slow") ("Ribs", "fast") (by decide) (by decide)

/-- Recipes of different names come back as they were. -/
theorem round_trips_on_bench :
    RoundTrips digitFormat .f .c id 0
      (twoRecipes ("Ribs", "slow") ("Wings", "fast") (by decide) (by decide)).rows := by
  refine (round_trips_iff digitFormat_lawful digitFormat_settled id
    (fun rows => List.Perm.refl rows) _ 0).mpr ?_
  apply alike_of_distinct
  exact (by decide : ["Ribs", "Wings"].Nodup)

/-- The second recipe of a name is imported over the first. -/
theorem ribs_twice_lose_one : ¬RoundTrips digitFormat .f .f id 0 ribsTwice.rows := by
  intro trips
  have unchanged := trips.here
  rw [import_here digitFormat_lawful digitFormat_settled id
    (fun rows => List.Perm.refl rows) ribsTwice 0 .f] at unchanged
  have alike := (unchanged_iff ribsTwice (List.Perm.refl _)).mp unchanged
  have descriptions := congrArg SavedRecipe.description (alike "Ribs" _ _ rfl rfl)
  exact absurd descriptions (by decide)

end Exchange

end PiFire
