import PiFire.Settings.Patch

/-!
# Walking and printing

A walk that went through anything but objects leaves a child where printing
does not write it. So a tree that printing keeps whole was walked through
objects only, and there the walk agrees with reading by path.
-/

namespace PiFire.Settings

/-! ## Children under a new name -/

/-- Every child has a name. -/
def Named (children : List Child) : Prop := ∀ entry ∈ children, entry.1.isSome

theorem Named.tail {entry : Child} {rest : List Child} (named : Named (entry :: rest)) :
    Named rest := fun other member => named other (by simp [member])

theorem findExact_append_ne {name other : String} (apart : name ≠ other) (item : Item)
    (children : List Child) :
    findExact name (children ++ [(some other, item)]) = findExact name children := by
  induction children with
  | nil => simp [findExact, Ne.symm apart]
  | cons entry rest ih =>
      rcases entry with ⟨_ | first, inner⟩
      · rfl
      · by_cases same : first = name <;> simp [findExact, same, ih]

theorem findExact_append_self {name : String} {children : List Child} (named : Named children)
    (missing : findExact name children = none) (item : Item) :
    findExact name (children ++ [(some name, item)]) = some item := by
  induction children with
  | nil => simp [findExact]
  | cons entry rest ih =>
      rcases entry with ⟨_ | first, inner⟩
      · simpa using named (none, inner) (by simp)
      · by_cases same : first = name
        · simp [findExact, same] at missing
        · simp only [findExact, if_neg same] at missing
          simpa [findExact, same] using ih named.tail missing

theorem modifyExact_append_self {name : String} {children : List Child} (named : Named children)
    (missing : findExact name children = none) (f : Item → Item) (item : Item) :
    modifyExact name f (children ++ [(some name, item)]) = children ++ [(some name, f item)] := by
  induction children with
  | nil => simp [modifyExact]
  | cons entry rest ih =>
      rcases entry with ⟨_ | first, inner⟩
      · simpa using named (none, inner) (by simp)
      · by_cases same : first = name
        · simp [findExact, same] at missing
        · simp only [findExact, if_neg same] at missing
          simpa [modifyExact, same] using ih named.tail missing

theorem names_modifyExact (name : String) (f : Item → Item) (children : List Child) :
    (modifyExact name f children).map Prod.fst = children.map Prod.fst := by
  induction children with
  | nil => rfl
  | cons entry rest ih =>
      rcases entry with ⟨_ | first, inner⟩
      · rfl
      · by_cases same : first = name <;> simp [modifyExact, same, ih]

theorem named_modifyExact (name : String) (f : Item → Item) (children : List Child) :
    Named (modifyExact name f children) ↔ Named children := by
  have byNames (list : List Child) :
      Named list ↔ ∀ given ∈ list.map Prod.fst, given.isSome := by
    simp [Named]
  rw [byNames, byNames, names_modifyExact]

theorem mem_of_findExact {name : String} {children : List Child} {item : Item}
    (found : findExact name children = some item) : (some name, item) ∈ children := by
  induction children with
  | nil => cases found
  | cons entry rest ih =>
      rcases entry with ⟨_ | first, inner⟩
      · cases found
      · by_cases same : first = name
        · simp only [findExact, if_pos same, Option.some.injEq] at found
          simp [same, found]
        · simp only [findExact, if_neg same] at found
          exact List.mem_cons_of_mem _ (ih found)

namespace Item

@[simp] theorem kind_onExact (name : String) (f : Item → Item) (item : Item) :
    (item.onExact name f).kind = item.kind := rfl

@[simp] theorem kind_addItem (name : String) (new item : Item) :
    (item.addItem name new).kind = item.kind := rfl

@[simp] theorem kind_putItem (name : String) (new item : Item) :
    (item.putItem name new).kind = item.kind := by
  unfold putItem
  split <;> rfl

@[simp] theorem kind_ensureItem (name : String) (item : Item) :
    (item.ensureItem name).kind = item.kind := by
  unfold ensureItem
  split <;> rfl

theorem getItem?_putItem {name : String} {item : Item} (named : Named item.child) (new : Item) :
    (item.putItem name new).getItem? name = some new := by
  unfold putItem
  cases found : item.getItem? name with
  | none => exact findExact_append_self named found new
  | some old =>
      simp only [getItem?, replaceExact, child_node, findExact_modifyExact]
      simp only [getItem?] at found
      rw [found]
      rfl

theorem getItem?_putItem_ne {name other : String} (apart : name ≠ other) (new item : Item) :
    (item.putItem other new).getItem? name = item.getItem? name := by
  unfold putItem
  cases item.getItem? other with
  | none => exact findExact_append_ne apart new item.child
  | some old => exact findExact_modifyExact_ne apart _ item.child

theorem replaceExact_ensureItem {name : String} {item : Item} (named : Named item.child)
    (new : Item) : (item.ensureItem name).replaceExact name new = item.putItem name new := by
  unfold ensureItem putItem
  cases found : item.getItem? name with
  | none =>
      simp only [addItem, append, replaceExact, kind_node, child_node]
      rw [modifyExact_append_self named found]
  | some old => rfl

theorem named_of_putItem {name : String} {new item : Item}
    (named : Named (item.putItem name new).child) : Named item.child := by
  cases found : item.getItem? name with
  | none => exact fun entry member => named entry (by simp [putItem, found, addItem, append, member])
  | some old =>
      simp only [putItem, found] at named
      exact (named_modifyExact _ _ _).mp named

theorem named_of_ensureItem {name : String} {item : Item}
    (named : Named (item.ensureItem name).child) : Named item.child := by
  cases found : item.getItem? name with
  | none =>
      exact fun entry member => named entry (by simp [ensureItem, found, addItem, append, member])
  | some old => simpa [ensureItem, found] using named

theorem ensureItem_hasName (name : String) (item : Item) :
    ∃ entry ∈ (item.ensureItem name).child, entry.1 = some name := by
  cases found : item.getItem? name with
  | none => exact ⟨(some name, node .obj []), by simp [ensureItem, found, addItem, append], rfl⟩
  | some old =>
      have member := mem_of_findExact found
      exact ⟨(some name, old), by simpa [ensureItem, found] using member, rfl⟩

/-! ## Walking through objects -/

/-- The items on the way are objects, with a name for every member. -/
def Walkable : List String → Item → Prop
  | [], item => item.kind = .obj ∧ Named item.child
  | token :: rest, item =>
      (item.kind = .obj ∧ Named item.child) ∧
        ∀ next, item.getItem? token = some next → Walkable rest next

theorem Walkable.here {parents : List String} {item : Item} (open_ : Walkable parents item) :
    item.kind = .obj ∧ Named item.child := by
  cases parents with
  | nil => exact open_
  | cons token rest => exact open_.1

theorem walkable_empty (parents : List String) : Walkable parents (node .obj []) := by
  cases parents with
  | nil => simp [Walkable, Named]
  | cons token rest => simp [Walkable, Named, getItem?, findExact]

theorem walkable_parentOf {parents : List String} {item : Item}
    (walkable : Walkable parents item) :
    (item.parentOf parents).kind = .obj ∧ Named (item.parentOf parents).child := by
  induction parents generalizing item with
  | nil => exact walkable
  | cons token rest ih =>
      rw [parentOf]
      cases found : item.getItem? token with
      | none => exact ih (walkable_empty rest)
      | some next => exact ih (walkable.2 next found)

theorem enter?_of_obj {item : Item} (object : item.kind = .obj) (token : String) :
    item.enter? token = item.getItem? token := by
  simp [enter?, object]

theorem path?_append_singleton {parents : List String} {item : Item}
    (walkable : Walkable parents item) (leaf : String) :
    item.path? (parents ++ [leaf]) = (item.parentOf parents).getItem? leaf := by
  induction parents generalizing item with
  | nil =>
      rw [List.nil_append, path?_cons, enter?_of_obj walkable.1, parentOf]
      cases item.getItem? leaf <;> rfl
  | cons token rest ih =>
      rw [List.cons_append, path?_cons, enter?_of_obj walkable.here.1, parentOf]
      cases found : item.getItem? token with
      | none =>
          have empty := ih (walkable_empty rest)
          rw [Option.getD_none, ← empty]
          cases rest <;> rfl
      | some next => exact ih (walkable.2 next found)

theorem onParent_some {token : String} {rest : List String} {item next : Item}
    (found : item.getItem? token = some next) (f : Item → Item) :
    item.onParent (token :: rest) f = item.onExact token fun next => next.onParent rest f := by
  rw [onParent, found]

theorem onParent_none {token : String} {rest : List String} {item : Item}
    (missing : item.getItem? token = none) (f : Item → Item) :
    item.onParent (token :: rest) f =
      item.addItem token ((node .obj []).onParent rest f) := by
  rw [onParent, missing]

@[simp] theorem kind_onParent_cons (token : String) (rest : List String) (f : Item → Item)
    (item : Item) : (item.onParent (token :: rest) f).kind = item.kind := by
  unfold onParent
  split <;> rfl

theorem getItem?_onParent_cons {token : String} {rest : List String} {item : Item}
    (named : Named item.child) (f : Item → Item) :
    (item.onParent (token :: rest) f).getItem? token =
      some (((item.getItem? token).getD (node .obj [])).onParent rest f) := by
  cases found : item.getItem? token with
  | none =>
      rw [onParent_none found]
      exact findExact_append_self named found _
  | some next =>
      rw [onParent_some found]
      simp only [getItem?] at found
      simp only [getItem?, onExact, child_node, findExact_modifyExact, found]
      rfl

theorem getItem?_onParent_cons_ne {name token : String} (apart : name ≠ token)
    (rest : List String) (f : Item → Item) (item : Item) :
    (item.onParent (token :: rest) f).getItem? name = item.getItem? name := by
  cases found : item.getItem? token with
  | none =>
      rw [onParent_none found]
      exact findExact_append_ne apart _ item.child
  | some next =>
      rw [onParent_some found]
      exact findExact_modifyExact_ne apart _ item.child

theorem path?_onParent {parents : List String} {item : Item} (walkable : Walkable parents item)
    (f : Item → Item) (below : List String) :
    (item.onParent parents f).path? (parents ++ below) =
      (f (item.parentOf parents)).path? below := by
  induction parents generalizing item with
  | nil => rfl
  | cons token rest ih =>
      have object : (item.onParent (token :: rest) f).kind = .obj := by
        rw [kind_onParent_cons, walkable.here.1]
      rw [List.cons_append, path?_cons, enter?_of_obj object,
        getItem?_onParent_cons walkable.here.2, parentOf]
      apply ih
      cases found : item.getItem? token with
      | none => exact walkable_empty rest
      | some next => exact walkable.2 next found

/-- Two paths that part at some name or position. -/
def apart : List String → List String → Bool
  | token :: rest, other :: more => if token = other then apart rest more else true
  | _, _ => false

theorem path?_onParent_apart {parents : List String} {leaf : String} {item : Item}
    {f : Item → Item} (walkable : Walkable parents item)
    (keepsKind : ∀ item : Item, (f item).kind = item.kind)
    (keepsOthers : ∀ (item : Item) (name : String), name ≠ leaf →
      (f item).getItem? name = item.getItem? name)
    {path : List String} (parted : apart path (parents ++ [leaf])) :
    (item.onParent parents f).path? path = item.path? path := by
  induction parents generalizing item path with
  | nil =>
      cases path with
      | nil => simp [apart] at parted
      | cons name rest =>
          have other : name ≠ leaf := by
            intro same
            subst same
            cases rest <;> simp [apart] at parted
          have object := walkable.1
          rw [path?_cons, path?_cons, enter?_of_obj object, onParent,
            enter?_of_obj ((keepsKind item).trans object), keepsOthers item name other]
  | cons token rest ih =>
      cases path with
      | nil => simp [apart] at parted
      | cons name more =>
          have object := walkable.here.1
          rw [path?_cons, path?_cons, enter?_of_obj object,
            enter?_of_obj ((kind_onParent_cons token rest f item).trans object)]
          by_cases same : name = token
          · subst same
            simp only [List.cons_append, apart, if_true] at parted
            rw [getItem?_onParent_cons walkable.here.2]
            cases found : item.getItem? name with
            | some next => exact ih (walkable.2 next found) parted
            | none =>
                have created := ih (walkable_empty rest) parted
                rw [Option.bind_some, Option.getD_none, created]
                cases more with
                | nil => simp [apart] at parted
                | cons first others => rfl
          · rw [getItem?_onParent_cons_ne same]

/-! ## The shape that printing writes -/

mutual

/-- Whether every child stands where printing writes it: without a name in an
array, under a name in an object, and nowhere else. -/
def shaped : Item → Bool
  | .node .arr children => shapedItems children
  | .node .obj children => shapedMembers children
  | .node _ children => children.isEmpty

def shapedItems : List Child → Bool
  | [] => true
  | (name, item) :: rest => name.isNone && shaped item && shapedItems rest

def shapedMembers : List Child → Bool
  | [] => true
  | (name, item) :: rest => name.isSome && shaped item && shapedMembers rest

end

mutual

theorem shaped_of_keeps (item : Item) (kept : item.keeps = true) : item.shaped = true := by
  rcases item with ⟨kind, children⟩
  cases kind with
  | arr =>
      rw [shaped]
      exact shapedItems_of_keeps children (by simpa [keeps] using kept)
  | obj =>
      rw [shaped]
      exact shapedMembers_of_keeps children (by simpa [keeps] using kept)
  | null | bool b | num x | str s => simp_all [keeps, shaped]

theorem shapedItems_of_keeps (children : List Child) (kept : keepsItems children = true) :
    shapedItems children = true := by
  rcases children with _ | ⟨⟨name, item⟩, rest⟩
  · rfl
  · simp only [keepsItems, Bool.and_eq_true] at kept
    simp [shapedItems, kept.1.1, shaped_of_keeps item kept.1.2, shapedItems_of_keeps rest kept.2]

theorem shapedMembers_of_keeps (children : List Child) (kept : keepsMembers children = true) :
    shapedMembers children = true := by
  rcases children with _ | ⟨⟨name, item⟩, rest⟩
  · rfl
  · simp only [keepsMembers, Bool.and_eq_true] at kept
    simp [shapedMembers, kept.1.1, shaped_of_keeps item kept.1.2,
      shapedMembers_of_keeps rest kept.2]

end

theorem childless_of_shaped {kind : Kind} {children : List Child}
    (formed : (node kind children).shaped = true) (array : kind ≠ .arr) (object : kind ≠ .obj) :
    children = [] := by
  cases kind with
  | arr => exact absurd rfl array
  | obj => exact absurd rfl object
  | null | bool b | num x | str s => simpa [shaped] using formed

theorem shapedItems_unnamed {children : List Child} (formed : shapedItems children = true) :
    ∀ entry ∈ children, entry.1 = none := by
  induction children with
  | nil => simp
  | cons entry rest ih =>
      rcases entry with ⟨name, item⟩
      simp only [shapedItems, Bool.and_eq_true, Option.isNone_iff_eq_none] at formed
      rintro entry (_ | ⟨_, member⟩)
      · exact formed.1.1
      · exact ih formed.2 entry member

theorem shapedMembers_iff {children : List Child} :
    shapedMembers children = true ↔ ∀ entry ∈ children, entry.1.isSome ∧ entry.2.shaped := by
  induction children with
  | nil => simp [shapedMembers]
  | cons entry rest ih =>
      rcases entry with ⟨name, item⟩
      simp [shapedMembers, ih]

theorem named_of_shapedMembers {children : List Child} (formed : shapedMembers children = true) :
    Named children := fun entry member => (shapedMembers_iff.mp formed entry member).1

theorem obj_of_shaped {item : Item} (formed : item.shaped = true)
    (hasName : ∃ entry ∈ item.child, entry.1.isSome) :
    item.kind = .obj ∧ shapedMembers item.child = true := by
  rcases hasName with ⟨entry, member, named⟩
  rcases item with ⟨kind, children⟩
  cases kind with
  | obj => exact ⟨rfl, by simpa [shaped] using formed⟩
  | arr =>
      have unnamed := shapedItems_unnamed (by simpa [shaped] using formed) entry member
      simp [unnamed] at named
  | null | bool b | num x | str s => cases children <;> simp_all [shaped]

theorem shaped_of_getItem? {item inner : Item} {name : String}
    (formed : shapedMembers item.child = true) (found : item.getItem? name = some inner) :
    inner.shaped = true :=
  (shapedMembers_iff.mp formed _ (mem_of_findExact found)).2

theorem hasName_onParent_cons (token : String) (rest : List String) (f : Item → Item)
    (item : Item) : ∃ entry ∈ (item.onParent (token :: rest) f).child, entry.1.isSome := by
  cases found : item.getItem? token with
  | none =>
      rw [onParent_none found]
      exact ⟨(some token, (node .obj []).onParent rest f), by simp [addItem, append], rfl⟩
  | some next =>
      rw [onParent_some found]
      have reached : findExact token (modifyExact token (fun next => next.onParent rest f)
          item.child) = some (next.onParent rest f) := by
        rw [getItem?] at found
        rw [findExact_modifyExact, found]
        rfl
      exact ⟨_, mem_of_findExact reached, rfl⟩

theorem named_of_onParent_cons {token : String} {rest : List String} {f : Item → Item}
    {item : Item} (named : Named (item.onParent (token :: rest) f).child) : Named item.child := by
  cases found : item.getItem? token with
  | none =>
      rw [onParent_none found] at named
      exact fun entry member => named entry (by simp [addItem, append, member])
  | some next =>
      rw [onParent_some found] at named
      exact (named_modifyExact _ _ _).mp named

theorem shaped_onParent_cons {token : String} {rest : List String} {f : Item → Item} {item : Item}
    (formed : (item.onParent (token :: rest) f).shaped = true) :
    (item.kind = .obj ∧ Named item.child) ∧
      (((item.getItem? token).getD (node .obj [])).onParent rest f).shaped = true := by
  rcases obj_of_shaped formed (hasName_onParent_cons token rest f item) with ⟨object, members⟩
  have named := named_of_onParent_cons (named_of_shapedMembers members)
  rw [kind_onParent_cons] at object
  exact ⟨⟨object, named⟩, shaped_of_getItem? members (getItem?_onParent_cons named f)⟩

theorem walkable_cons {token : String} {rest : List String} {item : Item}
    (object : item.kind = .obj ∧ Named item.child)
    (next : Walkable rest ((item.getItem? token).getD (node .obj []))) :
    Walkable (token :: rest) item := by
  constructor
  · exact object
  · intro inner found
    rw [found] at next
    exact next

theorem walkable_of_shaped {parents : List String} {leaf : String} {new item : Item}
    (formed : (item.onParent parents fun parent => parent.putItem leaf new).shaped = true) :
    Walkable parents item := by
  induction parents generalizing item with
  | nil =>
      rw [onParent] at formed
      have hasName : ∃ entry ∈ (item.putItem leaf new).child, entry.1.isSome := by
        cases found : item.getItem? leaf with
        | none => exact ⟨(some leaf, new), by simp [putItem, found, addItem, append], rfl⟩
        | some old =>
            rw [getItem?] at found
            have reached : findExact leaf (modifyExact leaf (fun _ => new) item.child) =
                some new := by
              rw [findExact_modifyExact, found]
              rfl
            refine ⟨(some leaf, new), ?_, rfl⟩
            simpa [putItem, getItem?, found, replaceExact] using mem_of_findExact reached
      rcases obj_of_shaped formed hasName with ⟨object, members⟩
      constructor
      · rw [← object, kind_putItem]
      · exact named_of_putItem (named_of_shapedMembers members)
  | cons token rest ih =>
      rcases shaped_onParent_cons formed with ⟨object, inner⟩
      exact walkable_cons object (ih inner)

/-- The same after walking twice, first to see that the member is there and
then to put an item in its place. -/
theorem walkable_of_shaped_twice {parents : List String} {leaf : String} {new item : Item}
    (formed : ((item.onParent parents fun parent => parent.ensureItem leaf).onParent parents
      fun parent => parent.replaceExact leaf new).shaped = true) :
    Walkable parents item := by
  induction parents generalizing item with
  | nil =>
      simp only [onParent] at formed
      rcases ensureItem_hasName leaf item with ⟨entry, member, same⟩
      have hasName : ∃ entry ∈ ((item.ensureItem leaf).replaceExact leaf new).child,
          entry.1.isSome := by
        have names := names_modifyExact leaf (fun _ => new) (item.ensureItem leaf).child
        have given : entry.1 ∈ (modifyExact leaf (fun _ => new)
            (item.ensureItem leaf).child).map Prod.fst := by
          rw [names]
          exact List.mem_map_of_mem member
        rcases List.mem_map.mp given with ⟨other, there, equal⟩
        exact ⟨other, there, by rw [equal, same]; rfl⟩
      rcases obj_of_shaped formed hasName with ⟨object, members⟩
      constructor
      · rw [← object]
        exact (kind_ensureItem leaf item).symm
      · have named := (named_modifyExact _ _ _).mp (named_of_shapedMembers members)
        exact named_of_ensureItem named
  | cons token rest ih =>
      rcases shaped_onParent_cons formed with ⟨⟨object, named⟩, inner⟩
      rw [kind_onParent_cons] at object
      have names := named_of_onParent_cons named
      rw [getItem?_onParent_cons names, Option.getD_some] at inner
      exact walkable_cons ⟨object, names⟩ (ih inner)

theorem onParent_twice {parents : List String} {leaf : String} {new item : Item}
    (walkable : Walkable parents item) :
    (item.onParent parents fun parent => parent.ensureItem leaf).onParent parents
        (fun parent => parent.replaceExact leaf new) =
      item.onParent parents fun parent => parent.putItem leaf new := by
  induction parents generalizing item with
  | nil => exact replaceExact_ensureItem walkable.2 new
  | cons token rest ih =>
      have named := walkable.here.2
      rw [onParent_some (getItem?_onParent_cons named _)]
      cases found : item.getItem? token with
      | none =>
          have empty := @ih (node .obj []) (walkable_empty rest)
          rw [onParent_none found, onParent_none found, ← empty]
          simp only [addItem, append, onExact, kind_node, child_node, node.injEq, true_and]
          exact modifyExact_append_self named found _ _
      | some next =>
          rw [onParent_some found, onParent_some found]
          simp only [onExact, kind_node, child_node, node.injEq, true_and,
            modifyExact_modifyExact]
          exact modifyExact_congr found (ih (walkable.2 next found))

/-! ## Edits that keep the shape -/

theorem shapedMembers_modifyExact {f : Item → Item} (same : ∀ item, (f item).shaped = item.shaped)
    (name : String) (children : List Child) :
    shapedMembers (modifyExact name f children) = shapedMembers children := by
  induction children with
  | nil => rfl
  | cons entry rest ih =>
      rcases entry with ⟨_ | first, item⟩
      · rfl
      · by_cases here : first = name <;> simp [modifyExact, shapedMembers, here, same, ih]

theorem isEmpty_modifyExact (name : String) (f : Item → Item) (children : List Child) :
    (modifyExact name f children).isEmpty = children.isEmpty := by
  rcases children with _ | ⟨⟨_ | first, item⟩, rest⟩
  · rfl
  · rfl
  · by_cases same : first = name <;> simp [modifyExact, same]

theorem shapedItems_modify {f : Item → Item} (same : ∀ item, (f item).shaped = item.shaped)
    (index : ℕ) (children : List Child) :
    shapedItems (children.modify index fun entry => (entry.1, f entry.2)) =
      shapedItems children := by
  induction children generalizing index with
  | nil => simp
  | cons entry rest ih =>
      rcases entry with ⟨name, item⟩
      cases index with
      | zero => simp [shapedItems, same]
      | succ n => simp [shapedItems, ih]

theorem shaped_onEnter {f : Item → Item} (same : ∀ item, (f item).shaped = item.shaped)
    (token : String) (item : Item) : (item.onEnter token f).shaped = item.shaped := by
  rcases item with ⟨kind, children⟩
  cases kind with
  | arr =>
      simp only [onEnter, kind_node, child_node]
      cases strtolIndex token with
      | none => rfl
      | some index =>
          dsimp only
          split_ifs
          · rfl
          · exact shapedItems_modify same _ children
  | obj => exact shapedMembers_modifyExact same token children
  | null | bool b | num x | str s => exact isEmpty_modifyExact token f children

theorem shaped_modifyAt {f : Item → Item} (same : ∀ item, (f item).shaped = item.shaped)
    (path : List String) (root : Item) : (modifyAt path f root).shaped = root.shaped := by
  induction path generalizing root with
  | nil => exact same root
  | cons token rest ih => exact shaped_onEnter ih token root

theorem shaped_convertAll (u : Units) (root : Item) :
    (root.convertAll u).shaped = root.shaped := by
  have each (fn : ℚ → ℚ) (item : Item) : (item.convertNumber fn).shaped = item.shaped := by
    rcases item with ⟨kind, children⟩
    cases kind <;> rfl
  have all (paths : List (List String)) (fn : ℚ → ℚ) (root : Item) :
      (root.convertPaths paths fn).shaped = root.shaped := by
    induction paths generalizing root with
    | nil => rfl
    | cons path rest ih => exact (ih _).trans (shaped_modifyAt (each fn) path root)
  exact (all _ _ _).trans (all _ _ _)

end Item

end PiFire.Settings
