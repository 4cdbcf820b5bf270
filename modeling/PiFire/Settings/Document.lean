import PiFire.Control.Config
import PiFire.Settings.Walk

/-!
# The tree as the control loop reads it

The control loop's configuration is read from a document. A well-shaped tree
is the tree of its document, and reading a path of names gives the same in
both.
-/

namespace PiFire.Settings

namespace Item

mutual

/-- The document a tree stands for. -/
def toJson : Item → Json
  | .node .null _ => .null
  | .node (.bool b) _ => .bool b
  | .node (.num x) _ => .num x
  | .node (.str s) _ => .str s
  | .node .arr children => .arr (toItems children)
  | .node .obj children => .obj (toMembers children)

def toItems : List Child → List Json
  | [] => []
  | (_, item) :: rest => toJson item :: toItems rest

def toMembers : List Child → List (String × Json)
  | [] => []
  | (name, item) :: rest => (name.getD "", toJson item) :: toMembers rest

end

/-- A token that enters no array, in the tree or in its document. -/
def plainToken (token : String) : Bool := isName token && !token.toList.all Char.isDigit

theorem lookup_toMembers {children : List Child} (named : Named children) (name : String) :
    (toMembers children).lookup name = (findExact name children).map toJson := by
  induction children with
  | nil => rfl
  | cons entry rest ih =>
      rcases entry with ⟨_ | other, item⟩
      · simpa using named (none, item) (by simp)
      · by_cases same : other = name
        · simp [toMembers, findExact, same]
        · have different : (name == other) = false := by simpa using Ne.symm same
          simp [toMembers, findExact, same, List.lookup_cons, different, ih named.tail]

theorem toItems_eq_map (children : List Child) :
    toItems children = children.map fun entry => entry.2.toJson := by
  induction children with
  | nil => rfl
  | cons entry rest ih => rw [toItems, ih, List.map_cons]

theorem snd_toMembers (children : List Child) :
    (toMembers children).map Prod.snd = children.map fun entry => entry.2.toJson := by
  induction children with
  | nil => rfl
  | cons entry rest ih => rw [toMembers, List.map_cons, List.map_cons, ih]

theorem enter?_toJson {item : Item} (formed : item.shaped = true) {token : String}
    (plain : plainToken token = true) :
    item.toJson.enter? token = (item.enter? token).map toJson := by
  simp only [plainToken, isName, Bool.and_eq_true, Option.isNone_iff_eq_none,
    Bool.not_eq_true'] at plain
  rcases item with ⟨kind, children⟩
  cases kind with
  | obj =>
      rw [shaped] at formed
      exact lookup_toMembers (named_of_shapedMembers formed) token
  | arr => simp [toJson, Json.enter?, enter?, plain.1, plain.2]
  | null | bool b | num x | str s =>
      have childless := childless_of_shaped formed (by simp) (by simp)
      subst childless
      rfl

theorem shaped_of_enter? {item inner : Item} (formed : item.shaped = true) {token : String}
    (plain : plainToken token = true) (entered : item.enter? token = some inner) :
    inner.shaped = true := by
  simp only [plainToken, isName, Bool.and_eq_true, Option.isNone_iff_eq_none] at plain
  rcases item with ⟨kind, children⟩
  cases kind with
  | obj =>
      rw [shaped] at formed
      exact @shaped_of_getItem? (node .obj children) inner token formed entered
  | arr =>
      rw [enter?, kind_node] at entered
      simp [plain.1] at entered
  | null | bool b | num x | str s =>
      have childless := childless_of_shaped formed (by simp) (by simp)
      subst childless
      cases entered

theorem jsonPath_toJson {root : Item} (formed : root.shaped = true) {path : List String}
    (plain : path.all plainToken = true) :
    jsonPath root.toJson path = (root.path? path).map toJson := by
  induction path generalizing root with
  | nil => rfl
  | cons token rest ih =>
      simp only [List.all_cons, Bool.and_eq_true] at plain
      rw [jsonPath, path?_cons, enter?_toJson formed plain.1]
      cases entered : root.enter? token with
      | none => rfl
      | some inner => exact ih (shaped_of_enter? formed plain.1 entered) plain.2

theorem jsonNum?_toJson {root : Item} (formed : root.shaped = true) {path : List String}
    (plain : path.all plainToken = true) : jsonNum? root.toJson path = root.num? path := by
  rw [jsonNum?, jsonPath_toJson formed plain, num?]
  cases root.path? path with
  | none => rfl
  | some item =>
      rcases item with ⟨kind, children⟩
      cases kind <;> rfl

theorem jsonNum_toJson {root : Item} (formed : root.shaped = true) {path : List String}
    (plain : path.all plainToken = true) (dflt : ℚ) :
    jsonNum root.toJson path dflt = root.num path dflt := by
  rw [jsonNum, jsonNum?_toJson formed plain, num]

theorem jsonStr_toJson {root : Item} (formed : root.shaped = true) {path : List String}
    (plain : path.all plainToken = true) (dflt : String) :
    jsonStr root.toJson path dflt = root.str path dflt := by
  rw [jsonStr, jsonPath_toJson formed plain, str]
  cases root.path? path with
  | none => rfl
  | some item =>
      rcases item with ⟨kind, children⟩
      cases kind <;> rfl

theorem settingsUnits_toJson {root : Item} (formed : root.shaped = true) :
    settingsUnits root.toJson = rootUnits root := by
  rw [settingsUnits, jsonStr_toJson formed (by decide)]
  rfl

theorem children_toJson {item : Item} (formed : item.shaped = true) :
    item.toJson.children = item.children.map toJson := by
  rcases item with ⟨kind, children⟩
  cases kind with
  | arr => simp [toJson, Json.children, toItems_eq_map, Item.children]
  | obj => simp [toJson, Json.children, snd_toMembers, Item.children]
  | null | bool b | num x | str s =>
      have childless := childless_of_shaped formed (by simp) (by simp)
      subst childless
      rfl

theorem shaped_of_path? {root inner : Item} (formed : root.shaped = true) {path : List String}
    (plain : path.all plainToken = true) (reached : root.path? path = some inner) :
    inner.shaped = true := by
  induction path generalizing root with
  | nil =>
      cases reached
      exact formed
  | cons token rest ih =>
      simp only [List.all_cons, Bool.and_eq_true] at plain
      rw [path?_cons] at reached
      cases entered : root.enter? token with
      | none =>
          rw [entered] at reached
          cases reached
      | some next =>
          rw [entered] at reached
          exact ih (shaped_of_enter? formed plain.1 entered) plain.2 reached

/-- The numbers among the items at a path, at most `ssMax` of them. -/
def rangeNumbers (root : Item) (path : List String) : List ℚ :=
  ((((root.path? path).map children).getD []).filterMap fun item =>
    match item.kind with
    | .num x => some x
    | _ => none).take ssMax

theorem rangeList_toJson {root : Item} (formed : root.shaped = true) {path : List String}
    (plain : path.all plainToken = true) (convert : ℚ → ℚ) :
    rangeList root.toJson path convert = (root.rangeNumbers path).map convert := by
  unfold rangeList rangeNumbers
  rw [jsonPath_toJson formed plain]
  cases reached : root.path? path with
  | none => rfl
  | some item =>
      simp only [Option.map_some, Option.getD_some]
      rw [children_toJson (shaped_of_path? formed plain reached), List.map_take,
        List.filterMap_map, List.map_filterMap]
      congr 2
      funext inner
      rcases inner with ⟨kind, children⟩
      cases kind <;> rfl

end Item

end PiFire.Settings
