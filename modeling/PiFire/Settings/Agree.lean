import PiFire.Settings.Faithful

/-!
# Two ways to change the units

The units can be changed by a call of their own or by a patch of the member
that names them. The patch is validated with the new name and the old numbers;
where that passes, both ways leave the same tree.
-/

namespace PiFire.Settings

open Item

/-- The requests that patch the units: the member itself, its group, and the
whole tree. -/
def unitsRequests (u : Units) : List (String × Json) :=
  [("globals.units", .str (unitsName u)),
    ("globals", .obj [("units", .str (unitsName u))]),
    ("", .obj [("globals", .obj [("units", .str (unitsName u))])])]

/-- The tree with another name for its units and nothing converted. -/
def renamed (u : Units) (root : Item) : Item :=
  modifyAt unitsPath (fun name => name.setText (unitsName u)) root

/-- A tree as a document has it, whose document is an object. -/
structure IsDocument (root : Item) : Prop where
  object : root.kind = .obj
  shaped : root.shaped = true

/-- The units are named by a text. -/
def NamesUnits (root : Item) : Prop := ∃ name, root.path? unitsPath = some (text name)

/-- Whatever the write does, an accepted patch leaves the merged tree with the
change of units carried out. -/
theorem root_settingsPatch {path : String} {json : Option Json} {s : Store} {trial : Item}
    (named : UnitsNamed s.root) (asked : requested path json s.root = some trial) (written : ℤ) :
    (settingsPatch path json written s).store.root = followUnits s.root trial := by
  by_cases succeeds : written = 0
  · subst succeeds
    rw [(settingsPatch_written named asked).2]
    rfl
  · rw [(settingsPatch_unwritten succeeds named asked).1]

theorem rc_settingsPatch_units {path : String} {json : Option Json} {s : Store} {trial : Item}
    (named : UnitsNamed s.root) (asked : requested path json s.root = some trial)
    (changed : rootUnits trial ≠ rootUnits s.root) (written : ℤ) :
    (settingsPatch path json written s).rc = 0 := by
  rcases requested_eq_some asked with ⟨patch, given, patched, valid⟩
  have differ : s.root.str unitsPath "F" ≠ trial.str unitsPath "F" := fun same =>
    changed (by rw [rootUnits, rootUnits, same])
  unfold settingsPatch
  simp only [given, patched, show validate trial = none from valid]
  rw [shortUnits_of_named named, shortUnits_of_named valid.unitsNamed, if_pos differ]

theorem requested_of_rc {path : String} {json : Option Json} {written : ℤ} {s : Store}
    (succeeds : (settingsPatch path json written s).rc = 0) :
    ∃ trial, requested path json s.root = some trial := by
  cases asked : requested path json s.root with
  | none =>
      rw [(settingsPatch_refused asked written).1] at succeeds
      exact absurd succeeds (by decide)
  | some trial => exact ⟨trial, rfl⟩

theorem splitPath_units : splitPath "globals.units" = (["globals"], "units") := by decide

theorem splitPath_globals : splitPath "globals" = ([], "globals") := by decide

theorem NamesUnits.group {root : Item} (document : IsDocument root) (names : NamesUnits root) :
    ∃ group name, root.getItem? "globals" = some group ∧ group.kind = .obj ∧
      group.getItem? "units" = some (text name) := by
  rcases names with ⟨name, reached⟩
  rw [unitsPath, path?_cons, enter?_of_obj document.object] at reached
  cases found : root.getItem? "globals" with
  | none =>
      rw [found] at reached
      cases reached
  | some group =>
      rw [found, Option.bind_some, path?_cons] at reached
      have members : shapedMembers root.child = true := by
        rcases root with ⟨kind, children⟩
        cases document.object
        exact document.shaped
      have formed := shaped_of_getItem? members found
      have entered : group.enter? "units" = some (text name) := by
        cases inner : group.enter? "units" with
        | none =>
            rw [inner] at reached
            cases reached
        | some item =>
            rw [inner] at reached
            exact reached
      have named : group.getItem? "units" = some (text name) := by
        unfold enter? at entered
        cases kind : group.kind with
        | arr =>
            rw [kind] at entered
            have unread : strtolIndex "units" = none := by decide
            simp [unread] at entered
        | null | bool b | num x | str s | obj =>
            rw [kind] at entered
            exact entered
      have object := obj_of_shaped formed ⟨_, mem_of_findExact named, rfl⟩
      exact ⟨group, name, rfl, object.1, named⟩

theorem renamed_eq {root group : Item} {name : String} (u : Units)
    (document : IsDocument root) (found : root.getItem? "globals" = some group)
    (object : group.kind = .obj) (named : group.getItem? "units" = some (text name)) :
    renamed u root =
      root.replaceExact "globals" (group.replaceExact "units" (text (unitsName u))) := by
  have inner : modifyExact "units" (fun item => modifyAt [] (fun name => name.setText (unitsName u)) item)
      group.child = modifyExact "units" (fun _ => text (unitsName u)) group.child :=
    modifyExact_congr named rfl
  have groupEq : modifyAt ["units"] (fun name => name.setText (unitsName u)) group =
      group.replaceExact "units" (text (unitsName u)) := by
    rw [modifyAt_cons]
    simp only [onEnter, object, onExact, replaceExact, inner]
  unfold renamed unitsPath
  rw [modifyAt_cons]
  simp only [onEnter, document.object, onExact, replaceExact, node.injEq, true_and]
  exact modifyExact_congr (g := fun _ => group.replaceExact "units" (text (unitsName u))) found
    groupEq

theorem IsDocument.named {root : Item} (document : IsDocument root) : Named root.child := by
  rcases root with ⟨kind, children⟩
  cases document.object
  exact named_of_shapedMembers document.shaped

theorem IsDocument.group_named {root group : Item} (document : IsDocument root)
    (found : root.getItem? "globals" = some group) (object : group.kind = .obj) :
    Named group.child := by
  have members : shapedMembers root.child = true := by
    rcases root with ⟨kind, children⟩
    cases document.object
    exact document.shaped
  have formed := shaped_of_getItem? members found
  rcases group with ⟨kind, children⟩
  cases object
  exact named_of_shapedMembers formed

theorem IsDocument.walkable {root group : Item} (document : IsDocument root)
    (found : root.getItem? "globals" = some group) (object : group.kind = .obj) :
    Walkable ["globals"] root := by
  constructor
  · exact ⟨document.object, document.named⟩
  · intro next entered
    rw [found] at entered
    cases entered
    exact ⟨object, document.group_named found object⟩

theorem patchTree_units {root : Item} {u : Units} {request : String × Json}
    (document : IsDocument root) (names : NamesUnits root) (member : request ∈ unitsRequests u) :
    patchTree request.1 (ofJson request.2) root = .ok (renamed u root) := by
  rcases names.group document with ⟨group, name, found, object, named⟩
  rw [renamed_eq u document found object named]
  have putUnits (new : Item) : group.putItem "units" new = group.replaceExact "units" new := by
    rw [putItem, named]
  have putGroup (new : Item) : root.putItem "globals" new = root.replaceExact "globals" new := by
    rw [putItem, found]
  have mergeGroup : group.merge (ofJson (.obj [("units", .str (unitsName u))])) =
      group.replaceExact "units" (text (unitsName u)) := by
    have present : findExact "units" group.child = some (text name) := named
    simp [ofJson, ofMembers, merge, object, mergeMembers, present, text, replaceExact]
  simp only [unitsRequests, List.mem_cons, List.not_mem_nil, or_false] at member
  rcases member with rfl | rfl | rfl
  · unfold patchTree
    rw [if_neg (by simp), splitPath_units]
    dsimp only
    rw [if_neg (by simp [ofJson])]
    simp only [ofJson, Except.ok.injEq]
    refine (onParent_twice (document.walkable found object)).trans ?_
    rw [onParent_some found]
    simp only [onExact, replaceExact, node.injEq, true_and]
    exact modifyExact_congr found (putUnits _)
  · unfold patchTree
    rw [if_neg (by simp), splitPath_globals]
    dsimp only
    rw [parentOf, found, Option.getD_some, if_pos (by simp [ofJson, object]), onParent,
      putGroup, mergeGroup]
  · unfold patchTree
    rw [if_pos rfl, if_pos (by simp [ofJson, document.object])]
    have present : findExact "globals" root.child = some group := found
    have unitsPresent : findExact "units" group.child = some (text name) := named
    simp [ofJson, ofMembers, merge, document.object, mergeMembers, present, object, unitsPresent,
      text, replaceExact]

theorem parse_unitsRequest {u : Units} {request : String × Json}
    (member : request ∈ unitsRequests u) : parse request.2 = some (ofJson request.2) := by
  unfold parse
  simp only [unitsRequests, List.mem_cons, List.not_mem_nil, or_false] at member
  rcases member with rfl | rfl | rfl <;>
    simp [nesting, nestingMembers, nestingLimit]

theorem requested_units {root : Item} {u : Units} {request : String × Json}
    (document : IsDocument root) (names : NamesUnits root) (member : request ∈ unitsRequests u) :
    requested request.1 (some request.2) root =
      if Valid (renamed u root) then some (renamed u root) else none := by
  simp [requested, parse_unitsRequest member, patchTree_units document names member]

theorem rootUnits_renamed {root : Item} (names : NamesUnits root) (u : Units) :
    rootUnits (renamed u root) = u := by
  rcases names with ⟨name, reached⟩
  have text := text_modifyAt_setText root (unitsName u)
  rw [reached] at text
  rw [rootUnits, renamed, str_eq_of_text text]
  exact unitsOf_unitsName u

theorem followUnits_renamed {root : Item} (names : NamesUnits root) {u : Units}
    (changes : rootUnits root ≠ u) : followUnits root (renamed u root) = root.inUnits u := by
  have newUnits := rootUnits_renamed names u
  have given : (((renamed u root).path? unitsPath).bind asText?).isSome := by
    rcases names with ⟨name, reached⟩
    rw [renamed, text_modifyAt_setText, reached]
    rfl
  rw [followUnits, if_pos ⟨given, by rw [newUnits]; exact Ne.symm changes⟩, newUnits, renamed,
    convertAll_modifyAt_units, inUnits, if_neg changes]

theorem length_child_replaceExact (name : String) (new item : Item) :
    (item.replaceExact name new).child.length = item.child.length := by
  have names := congrArg List.length (names_modifyExact name (fun _ => new) item.child)
  simp only [List.length_map] at names
  exact names

theorem length_child_onEnter (token : String) (f : Item → Item) (item : Item) :
    (item.onEnter token f).child.length = item.child.length := by
  rcases item with ⟨kind, children⟩
  have names := congrArg List.length (names_modifyExact token f children)
  simp only [List.length_map] at names
  cases kind with
  | arr =>
      simp only [onEnter, kind_node, child_node]
      cases strtolIndex token with
      | none => rfl
      | some index =>
          dsimp only
          split_ifs <;> simp
  | null | bool b | num x | str s | obj => exact names

theorem group_inUnits {root : Item} {u : Units} (changes : rootUnits root ≠ u) :
    (root.inUnits u).path? ["globals"] =
      (root.path? ["globals"]).map fun group =>
        group.onEnter "units" fun name => name.setText (unitsName u) := by
  have split : unitsPath = ["globals"] ++ ["units"] := rfl
  rw [inUnits, if_neg changes, split, modifyAt_append, path?_modifyAt,
    path?_convertAll_other (by decide) (by decide)]
  rfl

theorem group_followUnits (root trial : Item) :
    (followUnits root trial).path? ["globals"] = trial.path? ["globals"] := by
  unfold followUnits
  split_ifs
  · exact path?_convertAll_other (by decide) (by decide)
  · rfl

theorem path?_globals {root : Item} (object : root.kind = .obj) :
    root.path? ["globals"] = root.getItem? "globals" := by
  rw [path?_cons, enter?_of_obj object]
  cases root.getItem? "globals" <;> rfl

theorem text_of_setText {item : Item} {s : String} (same : text s = item.setText s) :
    ∃ name, item = text name := by
  rcases item with ⟨kind, children⟩
  cases kind with
  | str name =>
      simp only [text, setText, kind_node, child_node, node.injEq, true_and] at same
      exact ⟨name, by rw [text, same]⟩
  | null | bool b | num x | arr | obj =>
      simp only [text, setText, kind_node, node.injEq, reduceCtorEq, false_and] at same

theorem namesUnits_of_agree {root trial : Item} {u : Units} (document : IsDocument root)
    (changes : rootUnits root ≠ u)
    (patched : patchTree "globals.units" (text (unitsName u)) root = .ok trial)
    (agree : followUnits root trial = root.inUnits u) : NamesUnits root := by
  have trialEq : trial = (root.onParent ["globals"] fun parent => parent.ensureItem "units").onParent
      ["globals"] fun parent => parent.replaceExact "units" (text (unitsName u)) := by
    unfold patchTree at patched
    rw [if_neg (by simp), splitPath_units] at patched
    dsimp only at patched
    rw [if_neg (by simp [text])] at patched
    exact (Except.ok.inj patched).symm
  have firstNamed : Named (root.onParent ["globals"] fun parent => parent.ensureItem "units").child := by
    cases found : root.getItem? "globals" with
    | none =>
        rw [onParent_none found]
        intro entry member
        rcases List.mem_append.mp member with old | new
        · exact document.named entry old
        · rw [List.mem_singleton.mp new]
          rfl
    | some group =>
        rw [onParent_some found]
        exact (named_modifyExact _ _ _).mpr document.named
  have trialObject : trial.kind = .obj := by
    rw [trialEq, kind_onParent_cons, kind_onParent_cons, document.object]
  have groups := congrArg (fun tree => tree.path? ["globals"]) agree
  simp only [group_followUnits, group_inUnits changes, path?_globals document.object,
    path?_globals trialObject] at groups
  rw [trialEq, getItem?_onParent_cons firstNamed, getItem?_onParent_cons document.named] at groups
  cases found : root.getItem? "globals" with
  | none =>
      rw [found] at groups
      cases groups
  | some group =>
      rw [found] at groups
      simp only [Option.getD_some, onParent, Option.map_some, Option.some.injEq] at groups
      have lengths := congrArg (fun item => item.child.length) groups
      simp only [length_child_replaceExact, length_child_onEnter] at lengths
      cases named : group.getItem? "units" with
      | none =>
          unfold ensureItem at lengths
          rw [named] at lengths
          simp [addItem, append] at lengths
      | some item =>
          have members : shapedMembers root.child = true := by
            rcases root with ⟨kind, children⟩
            cases document.object
            exact document.shaped
          have formed := shaped_of_getItem? members found
          have object := (obj_of_shaped formed ⟨_, mem_of_findExact named, rfl⟩).1
          have inner := congrArg (fun group => group.getItem? "units") groups
          unfold ensureItem at inner
          rw [named] at inner
          have present : findExact "units" group.child = some item := named
          simp only [getItem?, replaceExact, onEnter, object, onExact, child_node,
            findExact_modifyExact, present, Option.map_some, Option.some.injEq] at inner
          rcases text_of_setText inner with ⟨name, itemEq⟩
          refine ⟨name, ?_⟩
          rw [unitsPath, path?_cons, enter?_of_obj document.object, found, Option.bind_some,
            path?_cons, enter?_of_obj object, named, itemEq]
          rfl

/-- Patching the units succeeds and leaves the tree that changing them leaves,
however the patch is written and whatever the file system does. -/
def UnitsAgree (u : Units) (written : ℤ) (s : Store) : Prop :=
  ∀ request ∈ unitsRequests u,
    (settingsPatch request.1 (some request.2) written s).rc = 0 ∧
      (settingsPatch request.1 (some request.2) written s).store.root =
        (setUnits u written s).2.root

theorem root_setUnits (u : Units) (written : ℤ) (s : Store) :
    (setUnits u written s).2.root = s.root.inUnits u := by
  unfold setUnits saveLocked
  split_ifs <;> rfl

/-- The two ways agree on a valid tree exactly when the units are named by a
text and the tree with the other name and its old numbers passes validation. -/
theorem unitsAgree_iff (u : Units) (written : ℤ) (s : Store) (document : IsDocument s.root)
    (valid : Valid s.root) (changes : rootUnits s.root ≠ u) :
    UnitsAgree u written s ↔ NamesUnits s.root ∧ Valid (renamed u s.root) := by
  have named := valid.unitsNamed
  constructor
  · intro agree
    have first : ("globals.units", Json.str (unitsName u)) ∈ unitsRequests u := by
      simp [unitsRequests]
    rcases agree _ first with ⟨accepted, same⟩
    rcases requested_of_rc accepted with ⟨trial, asked⟩
    rcases requested_eq_some asked with ⟨patch, given, patched, trialValid⟩
    have patchEq : patch = text (unitsName u) := by
      have parsed := parse_unitsRequest first
      rw [Option.bind_some] at given
      rw [given] at parsed
      exact Option.some.inj parsed
    subst patchEq
    rw [root_settingsPatch named asked, root_setUnits] at same
    have names := namesUnits_of_agree document changes patched same
    constructor
    · exact names
    · have whole := requested_units document names first
      rw [asked] at whole
      split_ifs at whole with renamedValid
      exact renamedValid
  · rintro ⟨names, renamedValid⟩ request member
    have asked := requested_units document names member
    rw [if_pos renamedValid] at asked
    constructor
    · apply rc_settingsPatch_units named asked
      rw [rootUnits_renamed names]
      exact Ne.symm changes
    · rw [root_settingsPatch named asked, root_setUnits, followUnits_renamed names changes]

/-- Settings in Fahrenheit with their limits as they ship. -/
def benchFahrenheit : Store :=
  { root := object
      [("globals", object [("units", text "F")]),
        ("safety", object
          [("maxtemp", number 650), ("min_target", number 160), ("max_target", number 550),
            ("smoke_min", number 180)])]
    file := none
    gen := 0 }

/-- Settings in Fahrenheit whose limits are low enough to pass as Celsius. -/
def benchLowLimits : Store :=
  { root := object
      [("globals", object [("units", text "F")]),
        ("safety", object
          [("maxtemp", number 340), ("min_target", number 110), ("max_target", number 280),
            ("smoke_min", number 120)]),
        ("smoke_plus", object [("max_temp", number 220)])]
    file := none
    gen := 0 }

theorem unitsAgree_on_bench : UnitsAgree .c 0 benchLowLimits := by
  apply (unitsAgree_iff .c 0 benchLowLimits ⟨rfl, by decide +kernel⟩ (by decide +kernel)
    (by decide)).mpr
  constructor
  · exact ⟨"F", rfl⟩
  · decide +kernel

/-- With the limits that ship the patch is refused: 650 is over the Celsius
ceiling of the overheat limit. -/
theorem units_disagree :
    ¬∀ (u : Units) (written : ℤ) (s : Store), IsDocument s.root → Valid s.root →
      rootUnits s.root ≠ u → UnitsAgree u written s := by
  intro agree
  have patched := agree .c 0 benchFahrenheit ⟨rfl, by decide +kernel⟩ (by decide +kernel)
    (by decide) ("globals.units", .str "C") (by simp [unitsRequests, unitsName])
  exact absurd patched.1 (by decide +kernel)

end PiFire.Settings
