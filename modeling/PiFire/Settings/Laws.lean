import PiFire.Settings.Faithful

/-!
# The laws of merging

A merge takes every member a patch names, at whatever depth, and keeps every other one;
doing it twice does no more. Filling in defaults keeps every value there is and adds every
member that is missing. Both go by names, so they need a patch whose objects name no member
twice: a member that is copied brings its repeated names along, and the second time only
the first of them is found.
-/

namespace PiFire.Settings

namespace Item

/-- What holds of an item when it holds of those inside holds of every item. -/
theorem inside_induction {P : Item → Prop}
    (step : ∀ kind members, (∀ entry ∈ members, P entry.2) → P (node kind members)) :
    ∀ item, P item
  | node kind members => step kind members fun entry _ => inside_induction step entry.2
termination_by item => sizeOf item
decreasing_by
  rename_i inside
  have smaller := List.sizeOf_lt_of_mem inside
  obtain ⟨name, item⟩ := entry
  simp only [node.sizeOf_spec, Prod.mk.sizeOf_spec] at smaller ⊢
  omega

mutual

/-- No object names a member twice, as far as objects lead. -/
def namesOnce : Item → Bool
  | .node .obj members => decide (members.map Prod.fst).Nodup && membersOnce members
  | .node _ _ => true

def membersOnce : List Child → Bool
  | [] => true
  | (_, item) :: rest => namesOnce item && membersOnce rest

end

/-- The item that names lead to, through objects. -/
def within : List String → Item → Option Item
  | [], item => some item
  | name :: rest, item =>
      if item.kind = .obj then (item.getItem? name).bind (within rest) else none

/-- An object that has no member for the names, or stops having one on the way. -/
def Lacks : List String → Item → Prop
  | [], _ => False
  | name :: rest, item => item.kind = .obj ∧ ∀ inner ∈ item.getItem? name, Lacks rest inner

/-- Nothing but objects stands where names would lead through. -/
def Open : List String → Item → Prop
  | [], _ => True
  | name :: rest, item => item.kind = .obj ∧ ∀ inner ∈ item.getItem? name, Open rest inner

section Once

variable {members : List Child} {item inner : Item} {name : String}

theorem membersOnce_iff :
    membersOnce members = true ↔ ∀ entry ∈ members, entry.2.namesOnce = true := by
  induction members with
  | nil => simp [membersOnce]
  | cons entry rest ih =>
      obtain ⟨name, item⟩ := entry
      simp [membersOnce, ih]

theorem nodup_of_namesOnce (once : item.namesOnce = true) (object : item.kind = .obj) :
    (item.child.map Prod.fst).Nodup := by
  obtain ⟨kind, members⟩ := item
  have isObj : kind = .obj := object
  subst isObj
  rw [namesOnce, Bool.and_eq_true, decide_eq_true_eq] at once
  exact once.1

theorem namesOnce_of_getItem? (once : item.namesOnce = true) (object : item.kind = .obj)
    (found : item.getItem? name = some inner) : inner.namesOnce = true := by
  obtain ⟨kind, members⟩ := item
  have isObj : kind = .obj := object
  subst isObj
  rw [namesOnce, Bool.and_eq_true] at once
  exact membersOnce_iff.mp once.2 _ (mem_of_findExact found)

theorem shapedMembers_of_obj (formed : item.shaped = true) (object : item.kind = .obj) :
    shapedMembers item.child = true := by
  obtain ⟨kind, members⟩ := item
  have isObj : kind = .obj := object
  subst isObj
  simpa [shaped] using formed

theorem shaped_inside (formed : item.shaped = true) (object : item.kind = .obj)
    (found : item.getItem? name = some inner) : inner.shaped = true :=
  shaped_of_getItem? (shapedMembers_of_obj formed object) found

theorem named_of_obj (formed : item.shaped = true) (object : item.kind = .obj) :
    Named item.child :=
  named_of_shapedMembers (shapedMembers_of_obj formed object)

theorem findExact_of_mem (named : Named members) (once : (members.map Prod.fst).Nodup)
    (inside : (some name, inner) ∈ members) : findExact name members = some inner := by
  induction members with
  | nil => cases inside
  | cons entry rest ih =>
      obtain ⟨_ | given, item⟩ := entry
      · simpa using named (none, item) List.mem_cons_self
      · rw [List.map_cons, List.nodup_cons] at once
        rcases List.mem_cons.mp inside with same | later
        · cases same
          exact if_pos rfl
        · have apart : given ≠ name := by
            rintro rfl
            exact once.1 (List.mem_map.mpr ⟨_, later, rfl⟩)
          rw [findExact, if_neg apart]
          exact ih named.tail once.2 later

theorem within_cons (object : item.kind = .obj) (rest : List String) :
    within (name :: rest) item = (item.getItem? name).bind (within rest) := if_pos object

theorem within_of_lacks {path : List String} (lacks : Lacks path item) :
    within path item = none := by
  induction path generalizing item with
  | nil => exact absurd lacks id
  | cons name rest ih =>
      obtain ⟨object, none_⟩ := lacks
      rw [within_cons object]
      cases found : item.getItem? name with
      | none => rfl
      | some inner => exact ih (none_ inner found)

theorem within_of_not_obj {path : List String} (plain : item.kind ≠ .obj) (some_ : path ≠ []) :
    within path item = none := by
  cases path with
  | nil => exact absurd rfl some_
  | cons name rest => exact if_neg plain

end Once

end Item

open Item

/-! ## Merging -/

/-- What merging a patch does: the members it names take their values, objects at any depth
being merged in their turn, those it does not name are kept, twice is as good as once, and
nothing happens unless both are objects. -/
structure Merges (dst patch : Item) : Prop where
  takes : dst.kind = .obj → patch.kind = .obj → ∀ path new, within path patch = some new →
    within path (dst.merge patch) = some (mergedMember (within path dst) new)
  keeps : dst.kind = .obj → patch.kind = .obj → ∀ path, Lacks path patch →
    within path (dst.merge patch) = within path dst
  idempotent : (dst.merge patch).merge patch = dst.merge patch
  otherwise : ¬(dst.kind = .obj ∧ patch.kind = .obj) → dst.merge patch = dst

section Merge

variable {dst patch inner : Item} {members : List Child} {name : String}

theorem merge_otherwise (apart : ¬(dst.kind = .obj ∧ patch.kind = .obj)) :
    dst.merge patch = dst := by
  obtain ⟨kind, members⟩ := patch
  rw [merge]
  exact if_neg apart

theorem kind_merge (object : dst.kind = .obj) : (dst.merge patch).kind = .obj := by
  obtain ⟨kind, members⟩ := patch
  rw [merge]
  split_ifs
  · rfl
  · exact object

theorem getItem?_merge_shaped (objects : dst.kind = .obj ∧ patch.kind = .obj)
    (dstShaped : dst.shaped = true) (shaped : patch.shaped = true)
    (once : patch.namesOnce = true) (name : String) :
    (dst.merge patch).getItem? name =
      match patch.getItem? name with
      | none => dst.getItem? name
      | some new => some (mergedMember (dst.getItem? name) new) :=
  getItem?_merge objects (named_of_obj shaped objects.2) (named_of_obj dstShaped objects.1)
    (nodup_of_namesOnce once objects.2) name

theorem mergedMember_of_not (apart : ¬(inner.kind = .obj ∧ patch.kind = .obj)) :
    mergedMember (some inner) patch = patch := if_neg apart

theorem mergedMember_of_objects (objects : inner.kind = .obj ∧ patch.kind = .obj) :
    mergedMember (some inner) patch = inner.merge patch := if_pos objects

theorem within_merge {path : List String} {new : Item} (objects : dst.kind = .obj ∧ patch.kind = .obj)
    (dstShaped : dst.shaped = true) (shaped : patch.shaped = true)
    (once : patch.namesOnce = true) (leads : within path patch = some new) :
    within path (dst.merge patch) = some (mergedMember (within path dst) new) := by
  induction path generalizing dst patch with
  | nil =>
      cases leads
      rw [within, within, mergedMember_of_objects objects]
  | cons name rest ih =>
      rw [within_cons objects.2] at leads
      obtain ⟨inner, found, below⟩ := Option.bind_eq_some_iff.mp leads
      rw [within_cons (kind_merge objects.1),
        getItem?_merge_shaped objects dstShaped shaped once, found, within_cons objects.1]
      dsimp only
      rw [Option.bind_some]
      cases here : dst.getItem? name with
      | none => exact below
      | some d =>
          by_cases both : d.kind = .obj ∧ inner.kind = .obj
          · rw [mergedMember_of_objects both]
            exact ih both (shaped_inside dstShaped objects.1 here)
              (shaped_inside shaped objects.2 found)
              (namesOnce_of_getItem? once objects.2 found) below
          · rw [mergedMember_of_not both, below, Option.bind_some]
            cases rest with
            | nil =>
                cases below
                exact congrArg some (mergedMember_of_not both).symm
            | cons next more =>
                have innerObj : inner.kind = .obj := by
                  by_contra plain
                  rw [within_of_not_obj plain (List.cons_ne_nil next more)] at below
                  cases below
                have plain : d.kind ≠ .obj := fun isObj => both ⟨isObj, innerObj⟩
                rw [within_of_not_obj plain (List.cons_ne_nil next more)]
                rfl

theorem within_merge_of_lacks {path : List String}
    (objects : dst.kind = .obj ∧ patch.kind = .obj)
    (dstShaped : dst.shaped = true) (shaped : patch.shaped = true)
    (once : patch.namesOnce = true) (lacks : Lacks path patch) :
    within path (dst.merge patch) = within path dst := by
  induction path generalizing dst patch with
  | nil => exact absurd lacks id
  | cons name rest ih =>
      rw [within_cons (kind_merge objects.1), within_cons objects.1,
        getItem?_merge_shaped objects dstShaped shaped once]
      cases found : patch.getItem? name with
      | none => rfl
      | some inner =>
          have below := lacks.2 inner found
          have innerObj : inner.kind = .obj := by
            cases rest with
            | nil => exact absurd below id
            | cons next more => exact below.1
          have some_ : rest ≠ [] := by
            rintro rfl
            exact below
          dsimp only
          rw [Option.bind_some]
          cases here : dst.getItem? name with
          | none => exact within_of_lacks below
          | some d =>
              rw [Option.bind_some]
              by_cases isObj : d.kind = .obj
              · rw [mergedMember_of_objects ⟨isObj, innerObj⟩]
                exact ih ⟨isObj, innerObj⟩
                  (shaped_inside dstShaped objects.1 here)
                  (shaped_inside shaped objects.2 found)
                  (namesOnce_of_getItem? once objects.2 found) below
              · rw [mergedMember_of_not fun both => isObj both.1, within_of_lacks below,
                  within_of_not_obj isObj some_]

/-- An item that a merge of another leaves alone. -/
def Absorbs (item it : Item) : Prop :=
  if item.kind = .obj ∧ it.kind = .obj then item.merge it = item else it = item

theorem mergeMembers_eq_self {dst : List Child} (named : Named members)
    (absorbed : ∀ name it, (some name, it) ∈ members →
      ∃ item, findExact name dst = some item ∧ Absorbs item it) :
    mergeMembers dst members = dst := by
  induction members with
  | nil => rfl
  | cons entry rest ih =>
      obtain ⟨_ | name, it⟩ := entry
      · simpa using named (none, it) List.mem_cons_self
      · obtain ⟨item, found, absorbs⟩ := absorbed name it List.mem_cons_self
        have same : (if item.kind = .obj ∧ it.kind = .obj then item.merge it else it) = item := by
          rw [Absorbs] at absorbs
          split_ifs at absorbs ⊢
          · exact absorbs
          · exact absorbs
        have left : modifyExact name (fun _ => item) dst = dst := by
          apply modifyExact_eq_self
          intro other first
          exact Option.some.inj (found.symm.trans first)
        rw [mergeMembers, found]
        dsimp only
        rw [same, left]
        exact ih named.tail fun name it inside =>
          absorbed name it (List.mem_cons_of_mem _ inside)

theorem merge_eq_self (named : patch.kind = .obj → Named patch.child)
    (absorbed : dst.kind = .obj → patch.kind = .obj → ∀ name it, (some name, it) ∈ patch.child →
      ∃ item, dst.getItem? name = some item ∧ Absorbs item it) :
    dst.merge patch = dst := by
  by_cases objects : dst.kind = .obj ∧ patch.kind = .obj
  · obtain ⟨kind, members⟩ := patch
    obtain ⟨kindDst, membersDst⟩ := dst
    obtain ⟨isObj, patchObj⟩ := objects
    have same : kindDst = .obj := isObj
    subst same
    rw [merge, if_pos ⟨rfl, patchObj⟩]
    exact congrArg (node .obj)
      (mergeMembers_eq_self (named patchObj) (absorbed rfl patchObj))
  · exact merge_otherwise objects

theorem merge_absorbed (patch : Item) : patch.shaped = true → patch.namesOnce = true →
    patch.merge patch = patch ∧
      ∀ dst : Item, dst.shaped = true → (dst.merge patch).merge patch = dst.merge patch := by
  induction patch using inside_induction with
  | step kind members ih =>
      intro shaped once
      by_cases object : kind = .obj
      · subst object
        have named := named_of_obj shaped rfl
        have unique := nodup_of_namesOnce once rfl
        have each : ∀ name it, (some name, it) ∈ members →
            it.shaped = true ∧ it.namesOnce = true := by
          intro name it inside
          have found := findExact_of_mem named unique inside
          exact ⟨shaped_inside shaped rfl found, namesOnce_of_getItem? once rfl found⟩
        have own : ∀ name it, (some name, it) ∈ members → Absorbs it it := by
          intro name it inside
          obtain ⟨itShaped, itOnce⟩ := each name it inside
          rw [Absorbs]
          split_ifs
          · exact (ih _ inside itShaped itOnce).1
          · rfl
        constructor
        · apply merge_eq_self
          · exact fun _ => named
          · intro _ _ name it inside
            exact ⟨it, findExact_of_mem named unique inside, own name it inside⟩
        · intro dst dstShaped
          apply merge_eq_self
          · exact fun _ => named
          · intro isObj _ name it inside
            have dstObj : dst.kind = .obj := by
              by_contra plain
              rw [merge_otherwise fun both => plain both.1] at isObj
              exact plain isObj
            have found : getItem? name (node .obj members) = some it :=
              findExact_of_mem named unique inside
            obtain ⟨itShaped, itOnce⟩ := each name it inside
            refine ⟨mergedMember (dst.getItem? name) it, ?_, ?_⟩
            · rw [getItem?_merge_shaped ⟨dstObj, rfl⟩ dstShaped shaped once, found]
            · cases here : dst.getItem? name with
              | none => exact own name it inside
              | some d =>
                  by_cases both : d.kind = .obj ∧ it.kind = .obj
                  · rw [mergedMember_of_objects both, Absorbs,
                      if_pos ⟨kind_merge both.1, both.2⟩]
                    exact (ih _ inside itShaped itOnce).2 d
                      (shaped_inside dstShaped dstObj here)
                  · rw [mergedMember_of_not both]
                    exact own name it inside
      · have apart (item : Item) : item.merge (node kind members) = item :=
          merge_otherwise fun both => object both.2
        exact ⟨apart _, fun dst _ => by rw [apart, apart]⟩

end Merge

/-! ## Filling in defaults -/

/-- What filling in makes of one member: objects are filled in, anything else stays, and a
missing member is added. -/
def filledMember (old : Option Item) (new : Item) : Item :=
  match old with
  | some d => if d.kind = .obj ∧ new.kind = .obj then (d.fillDefaults new).1 else d
  | none => new

/-- What filling in defaults does: every value stays, an object gaining what it lacks, every
default is there unless something that is no object stands in its way, twice is as good as
once and adds nothing, and nothing happens unless both are objects. -/
structure Fills (dst defaults : Item) : Prop where
  keeps : ∀ path old, within path dst = some old →
    within path (dst.fillDefaults defaults).1 =
      some ((within path defaults).elim old (filledMember (some old)))
  adds : ∀ path new, within path defaults = some new → Open path dst →
    within path (dst.fillDefaults defaults).1 = some (filledMember (within path dst) new)
  idempotent : (dst.fillDefaults defaults).1.fillDefaults defaults =
    ((dst.fillDefaults defaults).1, 0)
  otherwise : ¬(dst.kind = .obj ∧ defaults.kind = .obj) → dst.fillDefaults defaults = (dst, 0)

section Fill

variable {dst defaults inner : Item} {members : List Child} {name : String}

theorem fillDefaults_otherwise (apart : ¬(dst.kind = .obj ∧ defaults.kind = .obj)) :
    dst.fillDefaults defaults = (dst, 0) := by
  obtain ⟨kind, members⟩ := defaults
  rw [fillDefaults]
  exact if_neg apart

theorem kind_fillDefaults : (dst.fillDefaults defaults).1.kind = dst.kind := by
  obtain ⟨kind, members⟩ := defaults
  rw [fillDefaults]
  split_ifs with objects
  · exact objects.1.symm
  · rfl

theorem filledMember_of_not (apart : ¬(inner.kind = .obj ∧ defaults.kind = .obj)) :
    filledMember (some inner) defaults = inner := if_neg apart

theorem filledMember_of_objects (objects : inner.kind = .obj ∧ defaults.kind = .obj) :
    filledMember (some inner) defaults = (inner.fillDefaults defaults).1 := if_pos objects

theorem findExact_fillMembers {dst : List Child} (named : Named members) (dstNamed : Named dst)
    (once : (members.map Prod.fst).Nodup) (name : String) :
    findExact name (fillMembers dst members).1 =
      match findExact name members with
      | none => findExact name dst
      | some new => some (filledMember (findExact name dst) new) := by
  induction members generalizing dst with
  | nil => rfl
  | cons entry rest ih =>
      obtain ⟨_ | given, it⟩ := entry
      · simpa using named (none, it) List.mem_cons_self
      · rw [List.map_cons, List.nodup_cons] at once
        have absent : findExact given rest = none := by
          cases found : findExact given rest with
          | none => rfl
          | some item => exact absurd (List.mem_map_of_mem (mem_of_findExact found)) once.1
        have later := fun dst (dstNamed : Named dst) =>
          @ih dst named.tail dstNamed once.2
        rw [fillMembers]
        cases found : findExact given dst with
        | none =>
            have added : Named (dst ++ [(some given, it)]) := by
              intro entry member
              rcases List.mem_append.mp member with old | new
              · exact dstNamed entry old
              · rw [List.mem_singleton.mp new]
                rfl
            dsimp only
            rw [later _ added]
            by_cases same : given = name
            · subst same
              simp [absent, findExact, findExact_append_self dstNamed found, found, filledMember]
            · simp [findExact, same, findExact_append_ne (Ne.symm same)]
        | some d =>
            dsimp only
            by_cases both : d.kind = .obj ∧ it.kind = .obj
            · rw [if_pos both]
              dsimp only
              rw [later _ ((named_modifyExact given _ dst).mpr dstNamed)]
              by_cases same : given = name
              · subst same
                simp [absent, findExact, findExact_modifyExact, found, filledMember, both]
              · simp [findExact, same, findExact_modifyExact_ne (Ne.symm same)]
            · rw [if_neg both, later _ dstNamed]
              by_cases same : given = name
              · subst same
                simp [absent, findExact, found, filledMember, both]
              · simp [findExact, same]

theorem getItem?_fillDefaults (objects : dst.kind = .obj ∧ defaults.kind = .obj)
    (dstShaped : dst.shaped = true) (shaped : defaults.shaped = true)
    (once : defaults.namesOnce = true) (name : String) :
    (dst.fillDefaults defaults).1.getItem? name =
      match defaults.getItem? name with
      | none => dst.getItem? name
      | some new => some (filledMember (dst.getItem? name) new) := by
  have named := named_of_obj shaped objects.2
  have unique := nodup_of_namesOnce once objects.2
  have dstNamed := named_of_obj dstShaped objects.1
  obtain ⟨kind, members⟩ := defaults
  have both : dst.kind = .obj ∧ kind = .obj := objects
  rw [fillDefaults, if_pos both]
  exact findExact_fillMembers named dstNamed unique name

theorem within_fill {path : List String} {old : Item}
    (dstShaped : dst.shaped = true) (shaped : defaults.shaped = true)
    (once : defaults.namesOnce = true) (leads : within path dst = some old) :
    within path (dst.fillDefaults defaults).1 =
      some ((within path defaults).elim old (filledMember (some old))) := by
  induction path generalizing dst defaults with
  | nil =>
      obtain rfl : dst = old := Option.some.inj leads
      rw [within, within, Option.elim_some]
      by_cases objects : dst.kind = .obj ∧ defaults.kind = .obj
      · rw [filledMember_of_objects objects]
      · rw [filledMember_of_not objects, fillDefaults_otherwise objects]
  | cons name rest ih =>
      have object : dst.kind = .obj := by
        by_contra plain
        rw [within_of_not_obj plain (List.cons_ne_nil name rest)] at leads
        cases leads
      by_cases defaultsObj : defaults.kind = .obj
      · rw [within_cons object] at leads
        obtain ⟨inner, found, below⟩ := Option.bind_eq_some_iff.mp leads
        rw [within_cons (kind_fillDefaults.trans object), within_cons defaultsObj,
          getItem?_fillDefaults ⟨object, defaultsObj⟩ dstShaped shaped once, found]
        cases given : defaults.getItem? name with
        | none => exact below
        | some new =>
            dsimp only
            rw [Option.bind_some, Option.bind_some]
            by_cases both : inner.kind = .obj ∧ new.kind = .obj
            · rw [filledMember_of_objects both]
              exact ih (shaped_inside dstShaped object found)
                (shaped_inside shaped defaultsObj given)
                (namesOnce_of_getItem? once defaultsObj given) below
            · rw [filledMember_of_not both, below]
              cases rest with
              | nil =>
                  cases below
                  exact congrArg some (filledMember_of_not both).symm
              | cons next more =>
                  have innerObj : inner.kind = .obj := by
                    by_contra plain
                    rw [within_of_not_obj plain (List.cons_ne_nil next more)] at below
                    cases below
                  have plain : new.kind ≠ .obj := fun isObj => both ⟨innerObj, isObj⟩
                  rw [within_of_not_obj plain (List.cons_ne_nil next more)]
                  rfl
      · rw [fillDefaults_otherwise fun both => defaultsObj both.2, leads,
          within_of_not_obj defaultsObj (List.cons_ne_nil name rest)]
        rfl

theorem within_fill_of_open {path : List String} {new : Item}
    (dstShaped : dst.shaped = true) (shaped : defaults.shaped = true)
    (once : defaults.namesOnce = true) (leads : within path defaults = some new)
    (open_ : Open path dst) :
    within path (dst.fillDefaults defaults).1 = some (filledMember (within path dst) new) := by
  cases here : within path dst with
  | some old => rw [within_fill dstShaped shaped once here, leads, Option.elim_some]
  | none =>
      induction path generalizing dst defaults with
      | nil => cases here
      | cons name rest ih =>
          obtain ⟨object, inside⟩ := open_
          have defaultsObj : defaults.kind = .obj := by
            by_contra plain
            rw [within_of_not_obj plain (List.cons_ne_nil name rest)] at leads
            cases leads
          rw [within_cons defaultsObj] at leads
          obtain ⟨inner, found, below⟩ := Option.bind_eq_some_iff.mp leads
          rw [within_cons object] at here
          rw [within_cons (kind_fillDefaults.trans object),
            getItem?_fillDefaults ⟨object, defaultsObj⟩ dstShaped shaped once, found]
          dsimp only
          rw [Option.bind_some]
          cases own : dst.getItem? name with
          | none => exact below
          | some d =>
              rw [own, Option.bind_some] at here
              have some_ : rest ≠ [] := by
                rintro rfl
                cases here
              have dObj : d.kind = .obj := by
                have reaches := inside d own
                cases rest with
                | nil => exact absurd rfl some_
                | cons next more => exact reaches.1
              have innerObj : inner.kind = .obj := by
                by_contra plain
                rw [within_of_not_obj plain some_] at below
                cases below
              rw [filledMember_of_objects ⟨dObj, innerObj⟩]
              exact ih (shaped_inside dstShaped object own)
                (shaped_inside shaped defaultsObj found)
                (namesOnce_of_getItem? once defaultsObj found) below (inside d own) here

/-- An item into which nothing of another is filled. -/
def Holds (item it : Item) : Prop :=
  item.kind = .obj → it.kind = .obj → item.fillDefaults it = (item, 0)

theorem fillMembers_eq_self {dst : List Child} (named : Named members)
    (held : ∀ name it, (some name, it) ∈ members →
      ∃ item, findExact name dst = some item ∧ Holds item it) :
    fillMembers dst members = (dst, 0) := by
  induction members with
  | nil => rfl
  | cons entry rest ih =>
      obtain ⟨_ | name, it⟩ := entry
      · simpa using named (none, it) List.mem_cons_self
      · obtain ⟨item, found, holds⟩ := held name it List.mem_cons_self
        have later := ih named.tail fun name it inside =>
          held name it (List.mem_cons_of_mem _ inside)
        rw [fillMembers, found]
        dsimp only
        by_cases both : item.kind = .obj ∧ it.kind = .obj
        · have left : modifyExact name (fun _ => item) dst = dst := by
            apply modifyExact_eq_self
            intro other first
            exact Option.some.inj (found.symm.trans first)
          rw [if_pos both, holds both.1 both.2]
          dsimp only
          rw [left, later]
        · rw [if_neg both, later]

theorem fillDefaults_eq_self (named : defaults.kind = .obj → Named defaults.child)
    (held : dst.kind = .obj → defaults.kind = .obj →
      ∀ name it, (some name, it) ∈ defaults.child →
        ∃ item, dst.getItem? name = some item ∧ Holds item it) :
    dst.fillDefaults defaults = (dst, 0) := by
  by_cases objects : dst.kind = .obj ∧ defaults.kind = .obj
  · obtain ⟨kind, members⟩ := defaults
    obtain ⟨kindDst, membersDst⟩ := dst
    obtain ⟨isObj, defaultsObj⟩ := objects
    have same : kindDst = .obj := isObj
    subst same
    have left : fillMembers membersDst members = (membersDst, 0) :=
      fillMembers_eq_self (named defaultsObj) (held rfl defaultsObj)
    rw [fillDefaults, if_pos ⟨rfl, defaultsObj⟩, child_node, left]
  · exact fillDefaults_otherwise objects

/-- Defaults whose objects name each member once are held by what they were filled into,
and by themselves. -/
theorem fill_held (defaults : Item) : defaults.shaped = true → defaults.namesOnce = true →
    defaults.fillDefaults defaults = (defaults, 0) ∧
      ∀ dst : Item, dst.shaped = true → (dst.fillDefaults defaults).1.fillDefaults defaults =
        ((dst.fillDefaults defaults).1, 0) := by
  induction defaults using inside_induction with
  | step kind members ih =>
      intro shaped once
      by_cases object : kind = .obj
      · subst object
        have named := named_of_obj shaped rfl
        have unique := nodup_of_namesOnce once rfl
        have each : ∀ name it, (some name, it) ∈ members →
            it.shaped = true ∧ it.namesOnce = true := by
          intro name it inside
          have found := findExact_of_mem named unique inside
          exact ⟨shaped_inside shaped rfl found, namesOnce_of_getItem? once rfl found⟩
        have own : ∀ name it, (some name, it) ∈ members → Holds it it := by
          intro name it inside _ _
          obtain ⟨itShaped, itOnce⟩ := each name it inside
          exact (ih _ inside itShaped itOnce).1
        constructor
        · apply fillDefaults_eq_self
          · exact fun _ => named
          · intro _ _ name it inside
            exact ⟨it, findExact_of_mem named unique inside, own name it inside⟩
        · intro dst dstShaped
          apply fillDefaults_eq_self
          · exact fun _ => named
          · intro isObj _ name it inside
            have dstObj : dst.kind = .obj := kind_fillDefaults.symm.trans isObj
            have found : getItem? name (node .obj members) = some it :=
              findExact_of_mem named unique inside
            obtain ⟨itShaped, itOnce⟩ := each name it inside
            refine ⟨filledMember (dst.getItem? name) it, ?_, ?_⟩
            · rw [getItem?_fillDefaults ⟨dstObj, rfl⟩ dstShaped shaped once, found]
            · cases here : dst.getItem? name with
              | none => exact own name it inside
              | some d =>
                  by_cases both : d.kind = .obj ∧ it.kind = .obj
                  · rw [filledMember_of_objects both]
                    intro _ _
                    exact (ih _ inside itShaped itOnce).2 d
                      (shaped_inside dstShaped dstObj here)
                  · rw [filledMember_of_not both]
                    exact fun dObj itObj => absurd ⟨dObj, itObj⟩ both
      · have apart (item : Item) : item.fillDefaults (node kind members) = (item, 0) :=
          fillDefaults_otherwise fun both => object both.2
        exact ⟨apart _, fun dst _ => by rw [apart, apart]⟩

end Fill

/-! ## The laws -/

/-- With a patch, or defaults, whose objects name no member twice, merging and filling in
keep their laws on any tree. -/
theorem merge_laws {dst src : Item} (dstShaped : dst.shaped = true) (shaped : src.shaped = true)
    (once : src.namesOnce = true) : Merges dst src ∧ Fills dst src := by
  constructor
  · constructor
    · intro dstObj srcObj path new leads
      exact within_merge ⟨dstObj, srcObj⟩ dstShaped shaped once leads
    · intro dstObj srcObj path lacks
      exact within_merge_of_lacks ⟨dstObj, srcObj⟩ dstShaped shaped once lacks
    · exact (merge_absorbed src shaped once).2 dst dstShaped
    · exact merge_otherwise
  · constructor
    · intro path old leads
      exact within_fill dstShaped shaped once leads
    · intro path new leads open_
      exact within_fill_of_open dstShaped shaped once leads open_
    · exact (fill_held src shaped once).2 dst dstShaped
    · exact fillDefaults_otherwise

/-- A limit that is changed in a group where another one stays. -/
theorem merge_laws_on_bench :
    Merges (object [("safety", object [("maxtemp", number 600), ("min_target", number 160)])])
        (object [("safety", object [("maxtemp", number 650)])]) ∧
      Fills (object [("safety", object [("maxtemp", number 600), ("min_target", number 160)])])
        (object [("safety", object [("maxtemp", number 650)])]) :=
  merge_laws (by decide) (by decide) (by decide)

/-- A group that stands where a number was brings its repeated member along; the second
time the first of the two takes the value of the last. -/
theorem repeated_name_merges_again : ¬∀ dst src : Item, dst.shaped = true → src.shaped = true →
    Merges dst src ∧ Fills dst src := by
  intro laws
  have twice := (laws (object [("a", number 5)])
    (object [("a", object [("x", number 1), ("x", number 2)])]) (by decide) (by decide)).1.idempotent
  have first : ((object [("a", number 5)]).merge
      (object [("a", object [("x", number 1), ("x", number 2)])])).num ["a", "x"] 0 = 1 := by
    decide
  have second : (((object [("a", number 5)]).merge
      (object [("a", object [("x", number 1), ("x", number 2)])])).merge
        (object [("a", object [("x", number 1), ("x", number 2)])])).num ["a", "x"] 0 = 2 := by
    decide
  rw [twice, first] at second
  exact absurd second (by norm_num)

end PiFire.Settings
