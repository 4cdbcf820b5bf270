import PiFire.Settings.Item

/-!
# Editing the settings tree

The edits of cJSON that the settings code uses, each as what it leaves of the
item it is given. None of them looks at the item's kind, except the two that
set a value in place. An edit deep in the tree is an edit of the item a path
leads to; reading elsewhere does not see it.
-/

namespace PiFire.Settings

/-- Change the first child with exactly this name. -/
def modifyExact (name : String) (f : Item → Item) : List Child → List Child
  | (some other, item) :: rest =>
      if other = name then (some other, f item) :: rest
      else (some other, item) :: modifyExact name f rest
  | rest => rest

/-- Change the first child with this name in any case. -/
def modifyAnyCase (name : String) (f : Item → Item) : List Child → List Child
  | [] => []
  | (some other, item) :: rest =>
      if strcasecmp name other then (some other, f item) :: rest
      else (some other, item) :: modifyAnyCase name f rest
  | (none, item) :: rest => (none, item) :: modifyAnyCase name f rest

/-- Leave out the first child with this name in any case. -/
def deleteAnyCase (name : String) : List Child → List Child
  | [] => []
  | (some other, item) :: rest =>
      if strcasecmp name other then rest else (some other, item) :: deleteAnyCase name rest
  | (none, item) :: rest => (none, item) :: deleteAnyCase name rest

/-- Put an item under this name in the place of the first child that has it in
any case. -/
def replaceAnyCase (name : String) (new : Item) : List Child → List Child
  | [] => []
  | (some other, item) :: rest =>
      if strcasecmp name other then (some name, new) :: rest
      else (some other, item) :: replaceAnyCase name new rest
  | (none, item) :: rest => (none, item) :: replaceAnyCase name new rest

theorem findExact_modifyExact (name : String) (f : Item → Item) (children : List Child) :
    findExact name (modifyExact name f children) = (findExact name children).map f := by
  induction children with
  | nil => rfl
  | cons entry rest ih =>
      rcases entry with ⟨_ | other, item⟩
      · rfl
      · by_cases same : other = name <;> simp [modifyExact, findExact, same, ih]

theorem findExact_modifyExact_ne {name other : String} (apart : name ≠ other)
    (f : Item → Item) (children : List Child) :
    findExact name (modifyExact other f children) = findExact name children := by
  induction children with
  | nil => rfl
  | cons entry rest ih =>
      rcases entry with ⟨_ | first, item⟩
      · rfl
      · by_cases same : first = other
        · subst same
          simp [modifyExact, findExact, Ne.symm apart]
        · by_cases found : first = name <;> simp [modifyExact, findExact, same, found, ih, apart]

theorem modifyExact_eq_self {name : String} {f : Item → Item} {children : List Child}
    (fixes : ∀ item, findExact name children = some item → f item = item) :
    modifyExact name f children = children := by
  induction children with
  | nil => rfl
  | cons entry rest ih =>
      rcases entry with ⟨_ | other, item⟩
      · rfl
      · by_cases same : other = name
        · have fixed := fixes item (by simp [findExact, same])
          simp [modifyExact, same, fixed]
        · simp only [findExact, if_neg same] at fixes
          simp [modifyExact, same, ih fixes]

theorem modifyExact_congr {name : String} {children : List Child} {item : Item}
    {f g : Item → Item} (found : findExact name children = some item) (agree : f item = g item) :
    modifyExact name f children = modifyExact name g children := by
  induction children with
  | nil => rfl
  | cons entry rest ih =>
      rcases entry with ⟨_ | other, first⟩
      · rfl
      · by_cases same : other = name
        · simp only [findExact, if_pos same, Option.some.injEq] at found
          subst found
          simp [modifyExact, same, agree]
        · simp only [findExact, if_neg same] at found
          simp [modifyExact, same, ih found]

theorem modifyExact_modifyExact (name : String) (f g : Item → Item) (children : List Child) :
    modifyExact name f (modifyExact name g children) =
      modifyExact name (fun item => f (g item)) children := by
  induction children with
  | nil => rfl
  | cons entry rest ih =>
      rcases entry with ⟨_ | other, item⟩
      · rfl
      · by_cases same : other = name <;> simp [modifyExact, same, ih]

theorem modifyExact_comm {name other : String} (apart : name ≠ other) (f g : Item → Item)
    (children : List Child) :
    modifyExact name f (modifyExact other g children) =
      modifyExact other g (modifyExact name f children) := by
  induction children with
  | nil => rfl
  | cons entry rest ih =>
      rcases entry with ⟨_ | first, item⟩
      · rfl
      · by_cases one : first = name
        · have different : first ≠ other := fun equal => apart (one.symm.trans equal)
          simp [modifyExact, one, apart]
        · by_cases two : first = other
          · subst two
            simp [modifyExact, one]
          · simp [modifyExact, one, two, ih]

namespace Item

/-- Append a child. -/
def append (item : Item) (entry : Child) : Item := node item.kind (item.child ++ [entry])

/-- Append a child under a name. -/
def addItem (item : Item) (name : String) (new : Item) : Item := item.append (some name, new)

/-- Remove a child by name in any case. -/
def deleteItem (item : Item) (name : String) : Item :=
  node item.kind (deleteAnyCase name item.child)

/-- Replace a child found by name in any case; nothing happens without one. -/
def replaceItem (item : Item) (name : String) (new : Item) : Item :=
  node item.kind (replaceAnyCase name new item.child)

/-- Replace a child found by exact name; nothing happens without one. -/
def replaceExact (item : Item) (name : String) (new : Item) : Item :=
  node item.kind (modifyExact name (fun _ => new) item.child)

/-- Change a child found by exact name in place. -/
def onExact (item : Item) (name : String) (f : Item → Item) : Item :=
  node item.kind (modifyExact name f item.child)

/-- Change a child found by name in any case in place. -/
def onAnyCase (item : Item) (name : String) (f : Item → Item) : Item :=
  node item.kind (modifyAnyCase name f item.child)

/-- Change every item directly inside. -/
def onChildren (item : Item) (f : Item → Item) : Item :=
  node item.kind (item.child.map fun entry => (entry.1, f entry.2))

/-- Keep the items directly inside that pass a test. -/
def filterChildren (item : Item) (keep : Item → Bool) : Item :=
  node item.kind (item.child.filter fun entry => keep entry.2)

/-- Put an item before all the others. -/
def prepend (item new : Item) : Item := node item.kind ((none, new) :: item.child)

/-- Write a number into an item that is one. -/
def setNumber (item : Item) (x : ℚ) : Item :=
  match item.kind with
  | .num _ => node (.num x) item.child
  | _ => item

/-- Write a text into an item that is one. -/
def setText (item : Item) (s : String) : Item :=
  match item.kind with
  | .str _ => node (.str s) item.child
  | _ => item

/-- Change the item one step of a path leads to. -/
def onEnter (item : Item) (token : String) (f : Item → Item) : Item :=
  match item.kind with
  | .arr =>
      match strtolIndex token with
      | some index =>
          if index < 0 then item
          else node .arr (item.child.modify index.toNat fun entry => (entry.1, f entry.2))
      | none => item
  | _ => item.onExact token f

/-- Change the item at a path; nothing happens when the path leads nowhere. -/
def modifyAt : List String → (Item → Item) → Item → Item
  | [], f, item => f item
  | token :: rest, f, item => item.onEnter token (modifyAt rest f)

@[simp] theorem modifyAt_nil (f : Item → Item) (item : Item) : modifyAt [] f item = f item := rfl

theorem modifyAt_cons (token : String) (rest : List String) (f : Item → Item) (item : Item) :
    modifyAt (token :: rest) f item = item.onEnter token (modifyAt rest f) := rfl

@[simp] theorem kind_onEnter (token : String) (f : Item → Item) (item : Item) :
    (item.onEnter token f).kind = item.kind := by
  rcases item with ⟨kind, children⟩
  cases kind <;> simp only [onEnter, onExact, kind_node]
  cases strtolIndex token with
  | none => rfl
  | some index =>
      dsimp only
      split_ifs <;> rfl

theorem enter?_onEnter (token : String) (f : Item → Item) (item : Item) :
    (item.onEnter token f).enter? token = (item.enter? token).map f := by
  rcases item with ⟨kind, children⟩
  cases kind <;>
    simp only [onEnter, onExact, enter?, kind_node, getItem?, child_node, findExact_modifyExact]
  cases index : strtolIndex token with
  | none => simp
  | some position =>
      by_cases negative : position < 0 <;>
        simp [negative, arrayItem?, List.getElem?_modify, Option.map_map, Function.comp_def]

/-- A path token that no array can be entered by. -/
def isName (token : String) : Bool := (strtolIndex token).isNone

theorem enter?_onEnter_ne {token other : String} (apart : token ≠ other)
    (named : isName token) (f : Item → Item) (item : Item) :
    (item.onEnter other f).enter? token = item.enter? token := by
  have unread : strtolIndex token = none := by simpa [isName] using named
  rcases item with ⟨kind, children⟩
  cases kind <;>
    simp only [onEnter, onExact, enter?, kind_node, getItem?, child_node,
      findExact_modifyExact_ne apart]
  rw [unread]
  cases strtolIndex other with
  | none => simp
  | some index =>
      dsimp only
      split_ifs <;> simp

theorem onEnter_eq_self {token : String} {f : Item → Item} {item : Item}
    (fixes : ∀ inner, item.enter? token = some inner → f inner = inner) :
    item.onEnter token f = item := by
  rcases item with ⟨kind, children⟩
  cases kind <;>
    simp only [onEnter, onExact, kind_node, child_node, node.injEq, true_and] <;>
    simp only [enter?, kind_node, getItem?, child_node] at fixes
  case arr =>
    cases index : strtolIndex token with
    | none => rfl
    | some position =>
        by_cases negative : position < 0
        · simp [negative]
        · simp only [negative, if_false, node.injEq, true_and]
          apply List.ext_getElem? 
          intro i
          simp only [index, Option.bind_some, arrayItem?, negative, if_false, child_node] at fixes
          rw [List.getElem?_modify]
          split_ifs with here
          · subst here
            cases found : children[position.toNat]? with
            | none => rfl
            | some entry =>
                have fixed := fixes entry.2 (by rw [found]; rfl)
                simp [fixed]
          · simp
  all_goals exact modifyExact_eq_self fixes

theorem onEnter_onEnter (token : String) (f g : Item → Item) (item : Item) :
    (item.onEnter token g).onEnter token f = item.onEnter token fun inner => f (g inner) := by
  rcases item with ⟨kind, children⟩
  cases kind <;> simp only [onEnter, onExact, kind_node, child_node, modifyExact_modifyExact]
  cases strtolIndex token with
  | none => rfl
  | some position =>
      by_cases negative : position < 0
      · simp [negative]
      · simp only [negative, if_false, child_node, kind_node, node.injEq, true_and]
        apply List.ext_getElem?
        intro i
        simp only [List.getElem?_modify]
        cases children[i]? with
        | none => rfl
        | some entry => split_ifs <;> rfl

theorem onEnter_comm {token other : String} (apart : token ≠ other) (named : isName token)
    (otherNamed : isName other) (f g : Item → Item) (item : Item) :
    (item.onEnter other g).onEnter token f = (item.onEnter token f).onEnter other g := by
  have unread : strtolIndex token = none := by simpa [isName] using named
  have otherUnread : strtolIndex other = none := by simpa [isName] using otherNamed
  rcases item with ⟨kind, children⟩
  cases kind <;>
    simp only [onEnter, onExact, kind_node, child_node, unread, otherUnread,
      modifyExact_comm apart]

theorem path?_modifyAt (path : List String) (f : Item → Item) (root : Item) :
    (modifyAt path f root).path? path = (root.path? path).map f := by
  induction path generalizing root with
  | nil => rfl
  | cons token rest ih =>
      rw [modifyAt_cons, path?_cons, path?_cons, enter?_onEnter]
      cases root.enter? token with
      | none => rfl
      | some item => exact ih item

theorem path?_modifyAt_below (path below : List String) (f : Item → Item) (root : Item) :
    (modifyAt path f root).path? (path ++ below) =
      (root.path? path).bind fun item => (f item).path? below := by
  rw [path?_append, path?_modifyAt]
  cases root.path? path <;> rfl

/-- Two paths that part at a name. -/
def parts : List String → List String → Bool
  | token :: rest, other :: more => if token = other then parts rest more else isName token
  | _, _ => false

theorem path?_modifyAt_parts {path other : List String} (apart : parts path other)
    (f : Item → Item) (root : Item) :
    (modifyAt other f root).path? path = root.path? path := by
  induction path generalizing other root with
  | nil => simp [parts] at apart
  | cons token rest ih =>
      cases other with
      | nil => simp [parts] at apart
      | cons first more =>
          rw [modifyAt_cons, path?_cons, path?_cons]
          by_cases same : token = first
          · subst same
            simp only [parts, if_true] at apart
            rw [enter?_onEnter]
            cases root.enter? token with
            | none => rfl
            | some item => exact ih apart item
          · simp only [parts, if_neg same] at apart
            rw [enter?_onEnter_ne same apart]

theorem modifyAt_eq_self {path : List String} {f : Item → Item} {root : Item}
    (fixes : ∀ item, root.path? path = some item → f item = item) :
    modifyAt path f root = root := by
  induction path generalizing root with
  | nil => exact fixes root rfl
  | cons token rest ih =>
      rw [modifyAt_cons]
      have inner : ∀ item, root.enter? token = some item → modifyAt rest f item = item := by
        intro item entered
        apply ih
        intro below reached
        apply fixes
        rw [path?_cons, entered]
        exact reached
      exact onEnter_eq_self inner

theorem modifyAt_modifyAt (path : List String) (f g : Item → Item) (root : Item) :
    modifyAt path f (modifyAt path g root) = modifyAt path (fun item => f (g item)) root := by
  induction path generalizing root with
  | nil => rfl
  | cons token rest ih =>
      rw [modifyAt_cons, modifyAt_cons, modifyAt_cons, onEnter_onEnter]
      congr 1
      funext item
      exact ih item

theorem modifyAt_append (path below : List String) (f : Item → Item) (root : Item) :
    modifyAt (path ++ below) f root = modifyAt path (modifyAt below f) root := by
  induction path generalizing root with
  | nil => rfl
  | cons token rest ih =>
      rw [List.cons_append, modifyAt_cons, modifyAt_cons]
      congr 1
      funext item
      exact ih item

theorem modifyAt_comm {path other : List String} (apart : parts path other)
    (back : parts other path) (f g : Item → Item) (root : Item) :
    modifyAt path f (modifyAt other g root) = modifyAt other g (modifyAt path f root) := by
  induction path generalizing other root with
  | nil => simp [parts] at apart
  | cons token rest ih =>
      cases other with
      | nil => simp [parts] at apart
      | cons first more =>
          simp only [modifyAt_cons]
          by_cases same : token = first
          · subst same
            simp only [parts, if_true] at apart back
            rw [onEnter_onEnter, onEnter_onEnter]
            congr 1
            funext item
            exact ih apart back item
          · simp only [parts, if_neg same, if_neg (Ne.symm same)] at apart back
            exact onEnter_comm same apart back _ _ root

end Item

end PiFire.Settings

/-!
# Merging trees

A patch is merged over a tree and the defaults are filled in under it. Both go
through the members of the tree they take from, and enter a member that is an
object on both sides.
-/

namespace PiFire.Settings

namespace Item

mutual

/-- Merge an object over an object. -/
def merge (dst : Item) : Item → Item
  | .node kind members =>
      if dst.kind = .obj ∧ kind = .obj then .node .obj (mergeMembers dst.child members) else dst

def mergeMembers (dst : List Child) : List Child → List Child
  | [] => dst
  | (none, _) :: rest => mergeMembers dst rest
  | (some name, it) :: rest =>
      match findExact name dst with
      | none => mergeMembers (dst ++ [(some name, it)]) rest
      | some d =>
          let new := if d.kind = .obj ∧ it.kind = .obj then merge d it else it
          mergeMembers (modifyExact name (fun _ => new) dst) rest

end

mutual

/-- Fill in the members an object lacks, with how many were added. -/
def fillDefaults (dst : Item) : Item → Item × ℕ
  | .node kind members =>
      if dst.kind = .obj ∧ kind = .obj then
        let filled := fillMembers dst.child members
        (.node .obj filled.1, filled.2)
      else (dst, 0)

def fillMembers (dst : List Child) : List Child → List Child × ℕ
  | [] => (dst, 0)
  | (none, _) :: rest =>
      let filled := fillMembers dst rest
      (filled.1, filled.2 + 1)
  | (some name, it) :: rest =>
      match findExact name dst with
      | none =>
          let filled := fillMembers (dst ++ [(some name, it)]) rest
          (filled.1, filled.2 + 1)
      | some d =>
          if d.kind = .obj ∧ it.kind = .obj then
            let inner := fillDefaults d it
            let filled := fillMembers (modifyExact name (fun _ => inner.1) dst) rest
            (filled.1, filled.2 + inner.2)
          else fillMembers dst rest

end

end Item

end PiFire.Settings
