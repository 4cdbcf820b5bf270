import PiFire.Settings.Walk

/-!
# What a patch does to the settings

A patch that fails should leave the tree alone. One that succeeds should put
the merge of the old value and the patch at its path, leave the rest except for
a change of units, and save a file that reads back as the tree.
-/

namespace PiFire.Settings

open Item

/-- The old value at a path and a patch, merged: an object over an object, or
over nothing, is merged into it, and anything else takes its place. -/
def patchedValue (old : Option Item) (patch : Item) : Item :=
  let before := old.getD (.node .obj [])
  if before.kind = .obj ∧ patch.kind = .obj then before.merge patch else patch

/-- The value at a path is the merge, and every path that parts from it reads
what it read before. -/
structure PatchedAt (path : List String) (patch before after : Item) : Prop where
  value : after.path? path = some (patchedValue (before.path? path) patch)
  outside : ∀ other, apart other path → after.path? other = before.path? other

/-- The documented change of units: when the merged tree names other units than
the ones it was in, the listed settings are converted. -/
def followUnits (before merged : Item) : Item :=
  if ((merged.path? unitsPath).bind asText?).isSome ∧ rootUnits merged ≠ rootUnits before then
    merged.convertAll (rootUnits merged)
  else merged

/-- A patch that does what it should. -/
structure PatchFaithful (path : String) (json : Option Json) (written : ℤ) (s : Store) :
    Prop where
  atomic : (settingsPatch path json written s).rc ≠ 0 →
    (settingsPatch path json written s).store.root = s.root
  exact : (settingsPatch path json written s).rc = 0 →
    ∃ patch merged, json.bind parse = some patch ∧
      PatchedAt (pathTokens path) patch s.root merged ∧
      (settingsPatch path json written s).store.root = followUnits s.root merged
  saved : (settingsPatch path json written s).rc = 0 →
    (settingsPatch path json written s).store.gen = s.gen + 1 ∧
      (settingsPatch path json written s).store.Saved

/-! ## What a merge leaves of each member -/

/-- What a merge makes of one member: objects are merged, anything else is
replaced, and a missing member is added. -/
def mergedMember (old : Option Item) (new : Item) : Item :=
  match old with
  | some d => if d.kind = .obj ∧ new.kind = .obj then d.merge new else new
  | none => new

theorem findExact_mergeMembers {members dst : List Child} (named : Named members)
    (dstNamed : Named dst) (once : (members.map Prod.fst).Nodup) (name : String) :
    findExact name (mergeMembers dst members) =
      match findExact name members with
      | none => findExact name dst
      | some new => some (mergedMember (findExact name dst) new) := by
  induction members generalizing dst with
  | nil => rfl
  | cons entry rest ih =>
      rcases entry with ⟨_ | given, it⟩
      · simpa using named (none, it) (by simp)
      · rw [List.map_cons, List.nodup_cons] at once
        have absent : findExact given rest = none := by
          cases found : findExact given rest with
          | none => rfl
          | some item => exact absurd (List.mem_map_of_mem (mem_of_findExact found)) once.1
        have later := fun dst (dstNamed : Named dst) => @ih dst named.tail dstNamed once.2
        rw [mergeMembers]
        cases found : findExact given dst with
        | none =>
            have added : Named (dst ++ [(some given, it)]) := by
              intro entry member
              rcases List.mem_append.mp member with old | new
              · exact dstNamed entry old
              · rw [List.mem_singleton.mp new]
                rfl
            rw [later _ added]
            by_cases same : given = name
            · subst same
              simp [absent, findExact, findExact_append_self dstNamed found, found, mergedMember]
            · simp [findExact, same, findExact_append_ne (Ne.symm same)]
        | some d =>
            rw [later _ ((named_modifyExact given _ dst).mpr dstNamed)]
            by_cases same : given = name
            · subst same
              simp [absent, findExact, findExact_modifyExact, found, mergedMember]
            · simp [findExact, same, findExact_modifyExact_ne (Ne.symm same)]

/-- A merge of objects, member by member, when the patch names each once. -/
theorem getItem?_merge {dst src : Item} (objects : dst.kind = .obj ∧ src.kind = .obj)
    (named : Named src.child) (dstNamed : Named dst.child)
    (once : (src.child.map Prod.fst).Nodup) (name : String) :
    (dst.merge src).getItem? name =
      match src.getItem? name with
      | none => dst.getItem? name
      | some new => some (mergedMember (dst.getItem? name) new) := by
  rcases src with ⟨kind, members⟩
  rw [merge, if_pos (by simpa using objects)]
  exact findExact_mergeMembers named dstNamed once name

/-! ## Paths that fit -/

/-- What stands after the last dot of a path, as far as the buffer holds it. -/
def lastPart (path : String) : List Char :=
  ((path.toList.take 255).splitOn '.').getLast?.getD []

/-- A path whose last name is there and is short enough for its buffer. -/
def Fits (path : String) : Prop :=
  path = "" ∨ (lastPart path ≠ [] ∧ (lastPart path).length ≤ 63)

instance (path : String) : Decidable (Fits path) := inferInstanceAs (Decidable (_ ∨ _))

theorem pathTokens_empty : pathTokens "" = [] := by decide

theorem pathTokens_eq_split {path : String} (here : lastPart path ≠ [])
    (short : (lastPart path).length ≤ 63) :
    pathTokens path = (splitPath path).1 ++ [(splitPath path).2] := by
  unfold pathTokens splitPath
  dsimp only
  unfold lastPart at here short
  generalize (path.toList.take 255).splitOn '.' = parts at here short ⊢
  rcases List.eq_nil_or_concat parts with empty | ⟨front, last, rfl⟩
  · simp [empty] at here
  · rw [List.concat_eq_append] at here short ⊢
    rw [List.getLast?_concat, Option.getD_some] at here short
    simp [List.filter_append, here, List.take_of_length_le short]

/-! ## The merged tree -/

/-- The tree a patch asks for, when the request is well formed and the tree
passes validation. -/
def requested (path : String) (json : Option Json) (root : Item) : Option Item :=
  (json.bind parse).bind fun patch =>
    match patchTree path patch root with
    | .error _ => none
    | .ok trial => if Valid trial then some trial else none

/-- A tree that the file can hold: printing keeps it whole, and the document
does not nest too deep to be parsed. -/
def Writable (root : Item) : Prop := root.keeps = true ∧ nesting root.print ≤ nestingLimit

instance (root : Item) : Decidable (Writable root) := inferInstanceAs (Decidable (_ ∧ _))

theorem patchTree_root {patch root trial : Item} (patched : patchTree "" patch root = .ok trial) :
    PatchedAt [] patch root trial := by
  unfold patchTree at patched
  rw [if_pos rfl] at patched
  split_ifs at patched with objects
  cases patched
  constructor
  · simp [patchedValue, objects]
  · intro other parted
    cases other <;> simp [apart] at parted

theorem patchedAt_putItem {parents : List String} {leaf : String} {root patch : Item}
    (walkable : Walkable parents root) :
    PatchedAt (parents ++ [leaf]) patch root
      (root.onParent parents fun parent =>
        parent.putItem leaf (patchedValue ((root.parentOf parents).getItem? leaf) patch)) := by
  constructor
  · rw [path?_onParent walkable, path?_append_singleton walkable]
    have parent := walkable_parentOf walkable
    rw [path?_cons, enter?_of_obj (by rw [kind_putItem]; exact parent.1),
      getItem?_putItem parent.2]
    rfl
  · intro other parted
    apply path?_onParent_apart walkable _ _ parted
    · intro item
      exact kind_putItem leaf _ item
    · intro item name different
      exact getItem?_putItem_ne different _ item

theorem patchedAt_of_walkable {path : String} {patch root trial : Item} (fits : Fits path)
    (patched : patchTree path patch root = .ok trial)
    (walkable : path ≠ "" → Walkable (splitPath path).1 root) :
    PatchedAt (pathTokens path) patch root trial := by
  by_cases whole : path = ""
  · subst whole
    rw [pathTokens_empty]
    exact patchTree_root patched
  · rcases fits with empty | ⟨here, short⟩
    · exact absurd empty whole
    rw [pathTokens_eq_split here short]
    have walk := walkable whole
    unfold patchTree at patched
    rw [if_neg whole] at patched
    dsimp only at patched
    split_ifs at patched with objects
    · cases patched
      have same := @patchedAt_putItem _ (splitPath path).2 _ patch walk
      simpa [patchedValue, objects] using same
    · cases patched
      rw [onParent_twice walk]
      have same := @patchedAt_putItem _ (splitPath path).2 _ patch walk
      simpa [patchedValue, objects] using same

/-- The merged tree is well shaped only where the walk went through objects. -/
theorem walkable_of_patched {path : String} {patch root trial : Item} (named : path ≠ "")
    (patched : patchTree path patch root = .ok trial) (formed : trial.shaped = true) :
    Walkable (splitPath path).1 root := by
  unfold patchTree at patched
  rw [if_neg named] at patched
  dsimp only at patched
  split_ifs at patched with objects
  · cases patched
    exact walkable_of_shaped formed
  · cases patched
    exact walkable_of_shaped_twice formed

/-! ## The change of units -/

theorem modifyAt_convertPaths {path : List String} {paths : List (List String)}
    (apart : ∀ other ∈ paths, parts path other ∧ parts other path) (f : Item → Item)
    (fn : ℚ → ℚ) (root : Item) :
    (modifyAt path f root).convertPaths paths fn = modifyAt path f (root.convertPaths paths fn) := by
  induction paths generalizing root with
  | nil => rfl
  | cons other rest ih =>
      have here := apart other (by simp)
      have there := ih (fun another member => apart another (by simp [member]))
        (modifyAt other (convertNumber fn) root)
      rw [modifyAt_comm here.1 here.2] at there
      exact there

theorem convertAll_modifyAt_units (u : Units) (f : Item → Item) (root : Item) :
    (modifyAt unitsPath f root).convertAll u = modifyAt unitsPath f (root.convertAll u) := by
  unfold convertAll
  rw [modifyAt_convertPaths (by decide), modifyAt_convertPaths (by decide)]

theorem setText_setText (item : Item) (s t : String) :
    (item.setText t).setText s = item.setText s := by
  rcases item with ⟨kind, children⟩
  cases kind <;> rfl

theorem asText?_setText (item : Item) (s : String) :
    (item.setText s).asText? = item.asText?.map fun _ => s := by
  rcases item with ⟨kind, children⟩
  cases kind <;> rfl

theorem setText_of_asText? {item : Item} {s : String} (named : item.asText? = some s) :
    item.setText s = item := by
  rcases item with ⟨kind, children⟩
  cases kind <;> simp_all [asText?, setText]

theorem setText_of_no_text {item : Item} (unnamed : item.asText? = none) (s : String) :
    item.setText s = item := by
  rcases item with ⟨kind, children⟩
  cases kind <;> simp_all [asText?, setText]

theorem str_eq_of_text {root : Item} {path : List String} {s : String}
    (named : (root.path? path).bind asText? = some s) (dflt : String) : root.str path dflt = s := by
  rw [str, named]
  rfl

theorem text_modifyAt_setText (root : Item) (s : String) :
    ((modifyAt unitsPath (fun name => name.setText s) root).path? unitsPath).bind asText? =
      ((root.path? unitsPath).bind asText?).map fun _ => s := by
  rw [path?_modifyAt]
  cases root.path? unitsPath with
  | none => rfl
  | some item => exact asText?_setText item s

/-- A tree that names the units it shows. -/
def UnitsNamed (root : Item) : Prop := root.str unitsPath "F" = "F" ∨ root.str unitsPath "F" = "C"

instance (root : Item) : Decidable (UnitsNamed root) := inferInstanceAs (Decidable (_ ∨ _))

theorem Valid.unitsNamed {root : Item} (valid : Valid root) : UnitsNamed root := by
  have named := (valid_iff root).mp valid .units
  simpa [Check.holds, readings, UnitsNamed, unitsPath] using named

theorem shortUnits_of_named {name : String} (named : name = "F" ∨ name = "C") :
    shortUnits name = name := by
  rcases named with rfl | rfl <;> decide

theorem unitsOf_inj {name other : String} (named : name = "F" ∨ name = "C")
    (otherNamed : other = "F" ∨ other = "C") (same : unitsOf name = unitsOf other) :
    name = other := by
  rcases named with rfl | rfl <;> rcases otherNamed with rfl | rfl <;> first | rfl | exact absurd same (by decide)

theorem unitsName_unitsOf {name : String} (named : name = "F" ∨ name = "C") :
    unitsName (unitsOf name) = name := by
  rcases named with rfl | rfl <;> decide

theorem inUnits_old_name {root trial : Item} (named : UnitsNamed root)
    (trialNamed : UnitsNamed trial) (differ : root.str unitsPath "F" ≠ trial.str unitsPath "F") :
    (modifyAt unitsPath (fun name => name.setText (root.str unitsPath "F")) trial).inUnits
        (unitsOf (trial.str unitsPath "F")) =
      followUnits root trial := by
  have changed : rootUnits trial ≠ rootUnits root := by
    intro same
    exact differ (unitsOf_inj named trialNamed same.symm)
  unfold followUnits
  cases given : (trial.path? unitsPath).bind asText? with
  | none =>
      have untouched : modifyAt unitsPath (fun name => name.setText (root.str unitsPath "F")) trial =
          trial := by
        apply modifyAt_eq_self
        intro item reached
        rw [reached] at given
        exact setText_of_no_text given _
      rw [untouched, if_neg (by simp), inUnits, if_pos]
      rfl
  | some name =>
      have trialName := str_eq_of_text given "F"
      rw [if_pos (by simpa using changed)]
      have oldUnits : rootUnits (modifyAt unitsPath
          (fun name => name.setText (root.str unitsPath "F")) trial) = rootUnits root := by
        have text := text_modifyAt_setText trial (root.str unitsPath "F")
        rw [given] at text
        rw [rootUnits, str_eq_of_text text]
        rfl
      rw [inUnits, if_neg (by rw [oldUnits]; exact Ne.symm changed), convertAll_modifyAt_units,
        modifyAt_modifyAt]
      change modifyAt unitsPath _ (trial.convertAll (rootUnits trial)) = _
      apply modifyAt_eq_self
      intro item reached
      rw [path?_convertAll_units] at reached
      rw [reached] at given
      rw [setText_setText, unitsName_unitsOf trialNamed, trialName]
      exact setText_of_asText? given

/-! ## The two outcomes -/

theorem settingsPatch_refused {path : String} {json : Option Json} {s : Store}
    (refused : requested path json s.root = none) (written : ℤ) :
    (settingsPatch path json written s).rc = -1 ∧
      (settingsPatch path json written s).store = s := by
  unfold requested at refused
  unfold settingsPatch
  cases given : json.bind parse with
  | none => exact ⟨rfl, rfl⟩
  | some patch =>
      simp only [given, Option.bind_some] at refused
      cases patched : patchTree path patch s.root with
      | error text => simp [patched]
      | ok trial =>
          simp only [patched] at refused
          cases checked : validate trial with
          | some text => simp [patched, checked]
          | none =>
              rw [if_pos (show Valid trial from checked)] at refused
              cases refused

theorem requested_eq_some {path : String} {json : Option Json} {root trial : Item}
    (asked : requested path json root = some trial) :
    ∃ patch, json.bind parse = some patch ∧ patchTree path patch root = .ok trial ∧
      Valid trial := by
  unfold requested at asked
  cases given : json.bind parse with
  | none =>
      rw [given] at asked
      cases asked
  | some patch =>
      simp only [given, Option.bind_some] at asked
      cases patched : patchTree path patch root with
      | error text =>
          rw [patched] at asked
          cases asked
      | ok tree =>
          simp only [patched] at asked
          split_ifs at asked with valid
          cases asked
          exact ⟨patch, rfl, patched, valid⟩

theorem settingsPatch_written {path : String} {json : Option Json} {s : Store} {trial : Item}
    (named : UnitsNamed s.root) (asked : requested path json s.root = some trial) :
    (settingsPatch path json 0 s).rc = 0 ∧
      (settingsPatch path json 0 s).store =
        (saveLocked 0 { s with root := followUnits s.root trial }).2 := by
  rcases requested_eq_some asked with ⟨patch, given, patched, valid⟩
  have trialNamed := valid.unitsNamed
  unfold settingsPatch
  simp only [given, patched, show validate trial = none from valid]
  rw [shortUnits_of_named named, shortUnits_of_named trialNamed]
  by_cases same : s.root.str unitsPath "F" = trial.str unitsPath "F"
  · have unchanged : followUnits s.root trial = trial := by
      rw [followUnits, if_neg]
      rintro ⟨-, changed⟩
      exact changed (by rw [rootUnits, rootUnits, same])
    rw [if_neg (not_not.mpr same), unchanged]
    exact ⟨rfl, rfl⟩
  · rw [if_pos same, setUnits, inUnits_old_name named trialNamed same]
    exact ⟨rfl, rfl⟩

/-- What an accepted patch leaves when the write fails: the tree is the merged
one all the same, and the error is lost when the units change. -/
theorem settingsPatch_unwritten {path : String} {json : Option Json} {written : ℤ} {s : Store}
    {trial : Item} (failed : written ≠ 0) (named : UnitsNamed s.root)
    (asked : requested path json s.root = some trial) :
    (settingsPatch path json written s).store = { s with root := followUnits s.root trial } ∧
      ((settingsPatch path json written s).rc ≠ 0 → followUnits s.root trial = trial) ∧
      ((settingsPatch path json written s).rc = 0 → trial ≠ s.root) := by
  rcases requested_eq_some asked with ⟨patch, given, patched, valid⟩
  have trialNamed := valid.unitsNamed
  unfold settingsPatch
  simp only [given, patched, show validate trial = none from valid]
  rw [shortUnits_of_named named, shortUnits_of_named trialNamed]
  by_cases same : s.root.str unitsPath "F" = trial.str unitsPath "F"
  · have unchanged : followUnits s.root trial = trial := by
      rw [followUnits, if_neg]
      rintro ⟨-, changed⟩
      exact changed (by rw [rootUnits, rootUnits, same])
    rw [if_neg (not_not.mpr same), unchanged]
    simp [saveLocked, failed]
  · rw [if_pos same, setUnits, inUnits_old_name named trialNamed same]
    have other : trial ≠ s.root := fun equal => same (by rw [equal])
    simp [saveLocked, failed, other]

theorem saved_followUnits (s : Store) (tree : Item) :
    (saveLocked 0 { s with root := tree }).2.Saved ↔ Writable tree :=
  saved_saveLocked { s with root := tree }

theorem shaped_followUnits (root trial : Item) :
    (followUnits root trial).shaped = trial.shaped := by
  unfold followUnits
  split_ifs
  · exact shaped_convertAll _ trial
  · rfl

/-- Settings that were never written. -/
def benchStore : Store := { root := object [], file := none, gen := 0 }

/-- A patch of the web port. -/
def benchPortPatch : Json := .obj [("port", .num 8080)]

end PiFire.Settings
