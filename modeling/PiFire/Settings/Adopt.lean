import PiFire.Settings.Reset
import Mathlib.Data.List.Nodup

/-!
# Adopting the built-in rules

A release offers its rules once each: what was offered is on record beside the rules, so a
rule that was deleted stays deleted. This rests on finding the two lists again. A member
that answers to the name of one and is no array hides the list that is made for it, and the
rules are then offered at every start.
-/

namespace PiFire.Settings

open Item

/-! ## Children by name in any case -/

section AnyCase

variable {name other : String} {item inner : Item} {new : List Item} {k : ℕ}

/-- Put items after the ones directly inside. -/
def push (new : List Item) (item : Item) : Item :=
  node item.kind (item.child ++ new.map fun inner => (none, inner))

theorem children_push (new : List Item) (item : Item) :
    (push new item).children = item.children ++ new := by
  simp [push, children, Function.comp_def]

theorem push_nil (item : Item) : push [] item = item := by
  obtain ⟨kind, child⟩ := item
  simp [push]

theorem findAnyCase_eq (name : String) (children : List Child) :
    findAnyCase name children = (children.find? (answersTo name)).map Prod.snd := by
  induction children with
  | nil => rfl
  | cons entry rest ih =>
      rcases entry with ⟨_ | given, inner⟩
      · rw [findAnyCase, ih, List.find?_cons_of_neg (by simp [answersTo])]
      · rw [findAnyCase, ih, List.find?_cons]
        cases same : strcasecmp name given with
        | false =>
            have not : answersTo name (some given, inner) = false := same
            rw [not, if_neg Bool.false_ne_true]
        | true =>
            have yes : answersTo name (some given, inner) = true := same
            rw [yes, if_pos rfl]
            rfl

theorem getAnyCase?_eq (name : String) (item : Item) :
    item.getAnyCase? name =
      (indexAnyCase name item).bind fun k => (item.child[k]?).map Prod.snd := by
  have position : indexAnyCase name item = item.child.findIdx? (answersTo name) := rfl
  rw [getAnyCase?, findAnyCase_eq, List.find?_eq_bind_findIdx?_getElem?, Option.map_bind, position]
  rfl

theorem indexAnyCase_ne (apart : strcasecmp name other = false)
    (first : indexAnyCase name item = some k) : indexAnyCase other item ≠ some k := by
  intro second
  obtain ⟨inside, answers, -⟩ := List.findIdx?_eq_some_iff_getElem.mp first
  obtain ⟨_, answersToo, -⟩ := List.findIdx?_eq_some_iff_getElem.mp second
  cases given : (item.child[k]).1 with
  | none =>
      rw [given] at answers
      cases answers
  | some text =>
      rw [given] at answers answersToo
      have not := strcasecmp_apart apart answers
      rw [Option.any_some, not] at answersToo
      cases answersToo

/-! ### Appending inside a child -/

theorem findIdx?_modify {p : Child → Bool} {f : Child → Child} (keeps : ∀ entry, p (f entry) = p entry)
    (children : List Child) (k : ℕ) : (children.modify k f).findIdx? p = children.findIdx? p := by
  induction children generalizing k with
  | nil => rw [List.modify_nil]
  | cons entry rest ih =>
      cases k with
      | zero => rw [List.modify_zero_cons, List.findIdx?_cons, List.findIdx?_cons, keeps]
      | succ k =>
          rw [List.modify_succ_cons, List.findIdx?_cons, List.findIdx?_cons, ih]

theorem indexAnyCase_appendAt (name : String) (k : ℕ) (new : List Item) (item : Item) :
    indexAnyCase name (appendAt k new item) = indexAnyCase name item :=
  findIdx?_modify (p := answersTo name) (f := fun entry => (entry.1, push new entry.2))
    (fun _ => rfl) item.child k

theorem child_appendAt (j k : ℕ) (new : List Item) (item : Item) :
    ((appendAt k new item).child[j]?).map Prod.snd =
      if k = j then ((item.child[j]?).map Prod.snd).map (push new)
      else (item.child[j]?).map Prod.snd := by
  rw [appendAt, child_node, List.getElem?_modify]
  split_ifs
  · cases item.child[j]? <;> rfl
  · cases item.child[j]? <;> rfl

theorem getAnyCase?_appendAt (found : indexAnyCase name item = some k) :
    (appendAt k new item).getAnyCase? name = (item.getAnyCase? name).map (push new) := by
  rw [getAnyCase?_eq, getAnyCase?_eq, indexAnyCase_appendAt, found, Option.bind_some,
    Option.bind_some, child_appendAt, if_pos rfl]

theorem getAnyCase?_appendAt_ne (elsewhere : indexAnyCase name item ≠ some k) :
    (appendAt k new item).getAnyCase? name = item.getAnyCase? name := by
  rw [getAnyCase?_eq, getAnyCase?_eq, indexAnyCase_appendAt]
  cases found : indexAnyCase name item with
  | none => rfl
  | some j =>
      have apart : k ≠ j := fun same => elsewhere (same ▸ found)
      rw [Option.bind_some, Option.bind_some, child_appendAt, if_neg apart]

theorem kind_getAnyCase?_appendAt (name : String) (k : ℕ) (new : List Item) (item : Item) :
    ((appendAt k new item).getAnyCase? name).map kind = (item.getAnyCase? name).map kind := by
  by_cases found : indexAnyCase name item = some k
  · rw [getAnyCase?_appendAt found, Option.map_map]
    rfl
  · rw [getAnyCase?_appendAt_ne found]

theorem length_appendAt (k : ℕ) (new : List Item) (item : Item) :
    (appendAt k new item).child.length = item.child.length := by
  rw [appendAt, child_node, List.length_modify]

theorem appendAt_nil (k : ℕ) (item : Item) : appendAt k [] item = item := by
  obtain ⟨kind, child⟩ := item
  have same : (fun entry : Child => (entry.1, push [] entry.2)) = id := by
    funext entry
    rw [push_nil]
    rfl
  have whole : appendAt k [] (node kind child) =
      node kind (child.modify k fun entry => (entry.1, push [] entry.2)) := rfl
  rw [whole, same, List.modify_id]

/-! ### Adding a list -/

theorem indexAnyCase_addItem (name given : String) (new item : Item) :
    indexAnyCase name (item.addItem given new) =
      (indexAnyCase name item).or
        (if strcasecmp name given then some item.child.length else none) := by
  have position : indexAnyCase name (item.addItem given new) =
      (item.child ++ [(some given, new)]).findIdx? (answersTo name) := rfl
  rw [position, List.findIdx?_append]
  cases same : strcasecmp name given with
  | true => simp [answersTo, same, indexAnyCase]; rfl
  | false => simp [answersTo, same, indexAnyCase]; rfl

theorem getAnyCase?_addItem (given : String) (new : Item) (found : item.getAnyCase? name = some inner) :
    (item.addItem given new).getAnyCase? name = some inner := by
  rw [getAnyCase?_eq] at found ⊢
  obtain ⟨k, index, here⟩ := Option.bind_eq_some_iff.mp found
  obtain ⟨inside, -⟩ := List.findIdx?_eq_some_iff_getElem.mp index
  rw [indexAnyCase_addItem, index, Option.some_or, Option.bind_some, addItem, append, child_node,
    List.getElem?_append_left inside]
  exact here

theorem getAnyCase?_addItem_ne {given : String} (apart : strcasecmp name given = false)
    (new item : Item) : (item.addItem given new).getAnyCase? name = item.getAnyCase? name := by
  cases found : item.getAnyCase? name with
  | some inner => exact getAnyCase?_addItem given new found
  | none =>
      rw [getAnyCase?_eq] at found ⊢
      rw [indexAnyCase_addItem, apart]
      cases index : indexAnyCase name item with
      | none => rfl
      | some k =>
          obtain ⟨inside, -⟩ := List.findIdx?_eq_some_iff_getElem.mp index
          rw [index, Option.bind_some, List.getElem?_eq_getElem inside] at found
          cases found

/-- A member under the name is an array, if there is one. -/
def Listable (name : String) (item : Item) : Prop :=
  ∀ inner ∈ item.getAnyCase? name, inner.kind = .arr

instance (name : String) (item : Item) : Decidable (Listable name item) :=
  inferInstanceAs (Decidable (∀ inner ∈ item.getAnyCase? name, inner.kind = .arr))

/-- The items of the list under a name. -/
def listUnder (name : String) (item : Item) : List Item :=
  match item.getAnyCase? name with
  | some inner => if inner.kind = .arr then inner.children else []
  | none => []

/-- An item that has a list under a name, at a position. -/
structure HasList (name : String) (k : ℕ) (items : List Item) (item : Item) : Prop where
  index : indexAnyCase name item = some k
  list : ∃ inner, item.getAnyCase? name = some inner ∧ inner.kind = .arr ∧ inner.children = items

theorem HasList.listUnder_eq {items : List Item} (has : HasList name k items item) :
    listUnder name item = items := by
  obtain ⟨inner, found, isArr, rfl⟩ := has.list
  rw [listUnder, found]
  exact if_pos isArr

theorem HasList.itemsIn_eq {items : List Item} (has : HasList name k items item) :
    itemsIn k item = items := by
  obtain ⟨inner, found, -, rfl⟩ := has.list
  rw [getAnyCase?_eq, has.index, Option.bind_some] at found
  obtain ⟨entry, here, rfl⟩ := Option.map_eq_some_iff.mp found
  rw [itemsIn, here]
  rfl

theorem HasList.ensureArray {items : List Item} (has : HasList name k items item) :
    ensureArray name item = (item, k) := by
  obtain ⟨inner, found, isArr, -⟩ := has.list
  rw [getAnyCase?_eq, has.index, Option.bind_some] at found
  obtain ⟨entry, here, rfl⟩ := Option.map_eq_some_iff.mp found
  rw [PiFire.Settings.ensureArray, has.index]
  dsimp only
  rw [here, Option.any_some, if_pos (decide_eq_true isArr)]

theorem HasList.appendAt {items : List Item} (has : HasList name k items item) :
    HasList name k (items ++ new) (appendAt k new item) where
  index := (indexAnyCase_appendAt name k new item).trans has.index
  list := by
    obtain ⟨inner, found, isArr, rfl⟩ := has.list
    refine ⟨push new inner, ?_, isArr, children_push new inner⟩
    rw [getAnyCase?_appendAt has.index, found]
    rfl

theorem HasList.appendAt_ne {items : List Item} {j : ℕ} (has : HasList name k items item)
    (apart : strcasecmp other name = false) (at_ : indexAnyCase other item = some j) :
    HasList name k items (PiFire.Settings.appendAt j new item) where
  index := (indexAnyCase_appendAt name j new item).trans has.index
  list := by
    obtain ⟨inner, found, isArr, same⟩ := has.list
    refine ⟨inner, ?_, isArr, same⟩
    rw [getAnyCase?_appendAt_ne (indexAnyCase_ne apart at_), found]

theorem hasList_ensureArray (listable : Listable name item) :
    HasList name (ensureArray name item).2 (listUnder name item) (ensureArray name item).1 := by
  cases found : item.getAnyCase? name with
  | some inner =>
      have isArr := listable inner found
      cases index : indexAnyCase name item with
      | none =>
          rw [getAnyCase?_eq, index] at found
          cases found
      | some k =>
          have has : HasList name k (listUnder name item) item := by
            refine ⟨index, inner, found, isArr, ?_⟩
            rw [listUnder, found]
            exact (if_pos isArr).symm
          rw [has.ensureArray]
          exact has
  | none =>
      have missing : indexAnyCase name item = none := by
        cases index : indexAnyCase name item with
        | none => rfl
        | some k =>
            obtain ⟨inside, -⟩ := List.findIdx?_eq_some_iff_getElem.mp index
            rw [getAnyCase?_eq, index, Option.bind_some, List.getElem?_eq_getElem inside] at found
            cases found
      have made : ensureArray name item = (item.addItem name (array []), item.child.length) := by
        rw [ensureArray, missing]
      have index : indexAnyCase name (item.addItem name (array [])) = some item.child.length := by
        rw [indexAnyCase_addItem, missing, strcasecmp_self]
        rfl
      rw [made]
      refine ⟨index, array [], ?_, rfl, ?_⟩
      · rw [getAnyCase?_eq, index, Option.bind_some, addItem, append, child_node,
          List.getElem?_concat_length]
        rfl
      · rw [listUnder, found]
        rfl

theorem getAnyCase?_ensureArray_ne (apart : strcasecmp other name = false) :
    (ensureArray name item).1.getAnyCase? other = item.getAnyCase? other := by
  rw [ensureArray]
  split
  · split_ifs
    · rfl
    · exact getAnyCase?_addItem_ne apart _ _
  · exact getAnyCase?_addItem_ne apart _ _

theorem HasList.ensureArray_ne {items : List Item} (has : HasList name k items item)
    (apart : strcasecmp name other = false) :
    HasList name k items (PiFire.Settings.ensureArray other item).1 where
  index := by
    rw [PiFire.Settings.ensureArray]
    have added : indexAnyCase name (item.addItem other (array [])) = some k := by
      rw [indexAnyCase_addItem, has.index]
      rfl
    split
    · split_ifs
      · exact has.index
      · exact added
    · exact added
  list := by
    rw [getAnyCase?_ensureArray_ne apart]
    exact has.list

/-! ### A member that is no list -/

/-- What is no list hides the list that is made for it, and one is made every time. -/
theorem ensureArray_of_not_listable (hidden : ¬Listable name item) :
    (ensureArray name item).1 = item.addItem name (array []) := by
  rw [ensureArray]
  cases index : indexAnyCase name item with
  | none => rfl
  | some k =>
      dsimp only
      rw [if_neg]
      intro isArr
      apply hidden
      intro inner found
      rw [getAnyCase?_eq, index, Option.bind_some] at found
      obtain ⟨entry, here, rfl⟩ := Option.map_eq_some_iff.mp found
      rw [here, Option.any_some] at isArr
      exact of_decide_eq_true isArr

theorem length_le_ensureArray (name : String) (item : Item) :
    item.child.length ≤ (ensureArray name item).1.child.length := by
  rw [ensureArray]
  have longer : item.child.length ≤ (item.addItem name (array [])).child.length := by
    rw [addItem, append, child_node, List.length_append]
    exact Nat.le_add_right _ _
  split
  · split_ifs
    · exact Nat.le_refl _
    · exact longer
  · exact longer

theorem listable_iff_kind : Listable name item ↔
    ∀ kind ∈ (item.getAnyCase? name).map Item.kind, kind = .arr := by
  rw [Listable]
  cases item.getAnyCase? name <;> simp

theorem listable_appendAt (name : String) (k : ℕ) (new : List Item) (item : Item) :
    Listable name (appendAt k new item) ↔ Listable name item := by
  rw [listable_iff_kind, listable_iff_kind, kind_getAnyCase?_appendAt]

theorem not_listable_ensureArray (given : String) (hidden : ¬Listable name item) :
    ¬Listable name (ensureArray given item).1 := by
  rw [Listable] at hidden
  push Not at hidden
  obtain ⟨inner, found, notArr⟩ := hidden
  have stays : (ensureArray given item).1.getAnyCase? name = some inner := by
    rw [ensureArray]
    split
    · split_ifs
      · exact found
      · exact getAnyCase?_addItem given _ found
    · exact getAnyCase?_addItem given _ found
  exact fun listable => notArr (listable inner stays)

end AnyCase

/-! ## The lists -/

section Lists

variable {shipped seen rules offers : List Item} {rule : Item} {id : String}

/-- An id is on the record of what was offered. -/
def Known (seen : List Item) (id : String) : Prop := ∃ known ∈ seen, known.asText? = some id

instance (seen : List Item) (id : String) : Decidable (Known seen id) :=
  inferInstanceAs (Decidable (∃ known ∈ seen, _))

/-- The rules with an id. -/
def withId (id : String) (rules : List Item) : List Item :=
  rules.filter fun rule => ruleId rule = id

theorem known_iff_any : seen.any (fun known => known.asText? = some id) = true ↔ Known seen id := by
  simp [Known]

theorem mem_offered : rule ∈ offered shipped seen ↔
    rule ∈ shipped ∧ ruleId rule ≠ "" ∧ ¬Known seen (ruleId rule) := by
  simp [offered, Known]

theorem withId_offered (named : id ≠ "") (unknown : ¬Known seen id) :
    withId id (offered shipped seen) = withId id shipped := by
  rw [withId, withId, offered, List.filter_filter]
  apply List.filter_congr
  intro rule _
  by_cases same : ruleId rule = id
  · subst same
    have not : ¬seen.any (fun known => known.asText? = some (ruleId rule)) = true :=
      fun known => unknown (known_iff_any.mp known)
    simp [named, Bool.eq_false_of_not_eq_true not]
  · simp [same]

theorem withId_offered_of_known (known : id = "" ∨ Known seen id) :
    withId id (offered shipped seen) = [] := by
  apply List.filter_eq_nil_iff.mpr
  intro rule inside same
  have isId := of_decide_eq_true same
  obtain ⟨-, named, unknown⟩ := mem_offered.mp inside
  rw [isId] at named unknown
  rcases known with empty | known
  · exact named empty
  · exact unknown known

theorem withId_adopted (id : String) (rules offers : List Item) :
    withId id (adopted rules offers) =
      if withId id rules = [] then (withId id offers).take 1 else [] := by
  induction offers generalizing rules with
  | nil =>
      rw [adopted]
      split_ifs <;> rfl
  | cons rule rest ih =>
      have known : (rules.any fun other => ruleId other = ruleId rule) = true ↔
          withId (ruleId rule) rules ≠ [] := by
        simp [withId]
      rw [adopted]
      by_cases have_ : (rules.any fun other => ruleId other = ruleId rule) = true
      · rw [if_pos have_, ih]
        by_cases same : ruleId rule = id
        · subst same
          rw [if_neg (known.mp have_), if_neg (known.mp have_)]
        · simp [withId, same]
      · rw [if_neg have_]
        by_cases same : ruleId rule = id
        · subst same
          have none_ : withId (ruleId rule) rules = [] := by
            by_contra some_
            exact have_ (known.mpr some_)
          have later : withId (ruleId rule) (adopted (rules ++ [rule]) rest) = [] := by
            rw [ih, if_neg]
            simp [withId]
          rw [if_pos none_]
          simp only [withId, List.filter_cons, decide_true, if_true] at later ⊢
          rw [later, List.take_succ_cons, List.take_zero]
        · have apart : withId id (rules ++ [rule]) = withId id rules := by
            simp [withId, same]
          rw [← apart, ← show withId id (adopted (rules ++ [rule]) rest) =
            withId id (rule :: adopted (rules ++ [rule]) rest) by simp [withId, same],
            ih]
          simp [withId, same]

theorem known_append {more : List Item} :
    Known (seen ++ more) id ↔ Known seen id ∨ Known more id := by
  simp only [Known, List.mem_append, or_and_right, exists_or]

theorem known_newIds (seen offers : List Item) (id : String) :
    Known (seen ++ newIds seen offers) id ↔ Known seen id ∨ ∃ rule ∈ offers, ruleId rule = id := by
  induction offers generalizing seen with
  | nil => simp [newIds]
  | cons rule rest ih =>
      have either : (∃ other ∈ rule :: rest, ruleId other = id) ↔
          ruleId rule = id ∨ ∃ other ∈ rest, ruleId other = id := by simp
      rw [newIds, either]
      split_ifs with already
      · rw [ih]
        constructor
        · rintro (known | later)
          · exact Or.inl known
          · exact Or.inr (Or.inr later)
        · rintro (known | rfl | later)
          · exact Or.inl known
          · exact Or.inl (known_iff_any.mp already)
          · exact Or.inr later
      · have own : Known [text (ruleId rule)] id ↔ ruleId rule = id := by
          simp [Known, text, asText?]
        rw [List.append_cons, ih, known_append, own, or_assoc]

theorem offered_newIds (shipped seen : List Item) :
    offered shipped (seen ++ newIds seen (offered shipped seen)) = [] := by
  apply List.eq_nil_iff_forall_not_mem.mpr
  intro rule inside
  obtain ⟨isShipped, named, unknown⟩ := mem_offered.mp inside
  apply unknown
  rw [known_newIds]
  by_cases known : Known seen (ruleId rule)
  · exact Or.inl known
  · exact Or.inr ⟨rule, mem_offered.mpr ⟨isShipped, named, known⟩, rfl⟩

end Lists

/-! ## Adopting into a group -/

section Group

variable (shipped : List Item) {notify : Item}

theorem adoptInto_eq (listed : Listable "rules" notify) (recorded : Listable "builtins" notify) :
    ∃ r s ready, HasList "rules" r (listUnder "rules" notify) ready ∧
      HasList "builtins" s (listUnder "builtins" notify) ready ∧
      adoptInto shipped notify =
        (appendAt s (newIds (listUnder "builtins" notify)
            (offered shipped (listUnder "builtins" notify)))
          (appendAt r (adopted (listUnder "rules" notify)
            (offered shipped (listUnder "builtins" notify))) ready),
          (offered shipped (listUnder "builtins" notify)).length) := by
  have first := hasList_ensureArray listed
  have keeps : (ensureArray "rules" notify).1.getAnyCase? "builtins" =
      notify.getAnyCase? "builtins" := getAnyCase?_ensureArray_ne (by decide)
  have stillRecorded : Listable "builtins" (ensureArray "rules" notify).1 := by
    rw [Listable, keeps]
    exact recorded
  have same : listUnder "builtins" (ensureArray "rules" notify).1 =
      listUnder "builtins" notify := by
    rw [listUnder, keeps, listUnder]
  have second := hasList_ensureArray stillRecorded
  rw [same] at second
  have both : HasList "rules" _ _ (ensureArray "builtins" (ensureArray "rules" notify).1).1 :=
    first.ensureArray_ne (by decide)
  refine ⟨_, _, _, both, second, ?_⟩
  rw [adoptInto, both.itemsIn_eq, second.itemsIn_eq]

/-- What adopting leaves in the two lists; adopting again leaves the group as it is. -/
theorem adoptInto_lists (listed : Listable "rules" notify)
    (recorded : Listable "builtins" notify) :
    let offers := offered shipped (listUnder "builtins" notify)
    let after := (adoptInto shipped notify).1
    listUnder "rules" after =
        listUnder "rules" notify ++ adopted (listUnder "rules" notify) offers ∧
      listUnder "builtins" after =
        listUnder "builtins" notify ++ newIds (listUnder "builtins" notify) offers ∧
      adoptInto shipped after = (after, 0) := by
  obtain ⟨r, s, ready, rules, record, eq⟩ := adoptInto_eq shipped listed recorded
  intro offers after
  have isAfter : after = appendAt s (newIds (listUnder "builtins" notify) offers)
      (appendAt r (adopted (listUnder "rules" notify) offers) ready) := congrArg Prod.fst eq
  have rules' : HasList "rules" r (listUnder "rules" notify ++
      adopted (listUnder "rules" notify) offers) after := by
    rw [isAfter]
    exact rules.appendAt.appendAt_ne (by decide)
      ((indexAnyCase_appendAt _ _ _ _).trans record.index)
  have record' : HasList "builtins" s (listUnder "builtins" notify ++
      newIds (listUnder "builtins" notify) offers) after := by
    rw [isAfter]
    exact (record.appendAt_ne (by decide) rules.index).appendAt
  refine ⟨rules'.listUnder_eq, record'.listUnder_eq, ?_⟩
  have nothing : offered shipped (listUnder "builtins" notify ++
      newIds (listUnder "builtins" notify) offers) = [] := offered_newIds shipped _
  rw [adoptInto, rules'.ensureArray]
  dsimp only
  rw [record'.ensureArray]
  dsimp only
  rw [record'.itemsIn_eq, nothing, adopted, newIds, appendAt_nil, appendAt_nil]
  rfl

theorem adoptInto_longer (hidden : ¬Listable "rules" notify ∨ ¬Listable "builtins" notify) :
    notify.child.length < (adoptInto shipped notify).1.child.length := by
  have long : (adoptInto shipped notify).1.child.length =
      (ensureArray "builtins" (ensureArray "rules" notify).1).1.child.length := by
    rw [adoptInto]
    dsimp only
    rw [length_appendAt, length_appendAt]
  have added (name : String) (item : Item) (hidden : ¬Listable name item) :
      item.child.length < (ensureArray name item).1.child.length := by
    rw [ensureArray_of_not_listable hidden, addItem, append, child_node, List.length_append]
    exact Nat.lt_succ_self _
  rw [long]
  rcases hidden with noRules | noRecord
  · exact (added _ _ noRules).trans_le (length_le_ensureArray _ _)
  · exact (length_le_ensureArray _ _).trans_lt
      (added _ _ (not_listable_ensureArray "rules" noRecord))

theorem hidden_adoptInto (hidden : ¬Listable "rules" notify ∨ ¬Listable "builtins" notify) :
    ¬Listable "rules" (adoptInto shipped notify).1 ∨
      ¬Listable "builtins" (adoptInto shipped notify).1 := by
  have keeps (name : String) (hidden : ¬Listable name notify) :
      ¬Listable name (adoptInto shipped notify).1 := by
    rw [adoptInto]
    dsimp only
    rw [listable_appendAt, listable_appendAt]
    exact not_listable_ensureArray _ (not_listable_ensureArray _ hidden)
  exact hidden.imp (keeps "rules") (keeps "builtins")

end Group

/-! ## Adopting into the settings -/

/-- The defaults of a release: an array of built-in rules, each known by its id. -/
structure Release where
  tree : Item
  rules : Item
  ships : tree.path? ["notify", "rules"] = some rules
  array : rules.kind = .arr
  named : ∃ rule ∈ rules.children, ruleId rule ≠ ""
  distinct : ∀ rule ∈ rules.children, ∀ other ∈ rules.children,
    ruleId rule = ruleId other → ruleId rule ≠ "" → rule = other

/-- A list of the notification settings. -/
def notifyList (name : String) (root : Item) : List Item :=
  match root.path? ["notify"] with
  | some notify => listUnder name notify
  | none => []

namespace Release

variable {release : Release} {root : Item}

/-- The settings after the rules of a release were adopted. -/
def adopt (release : Release) (root : Item) : Item := (adoptBuiltinRules release.tree root).1

/-- What adopting the rules of a release does: once is as good as twice, the rules there are
stay in front, a rule that was never offered is there once unless one has its id already, an
id on record is given no rule, no id is given a second rule, and every rule is on record. -/
structure Adopts (release : Release) (root : Item) : Prop where
  idempotent : adoptBuiltinRules release.tree (release.adopt root) = (release.adopt root, 0)
  keeps : notifyList "rules" root <+: notifyList "rules" (release.adopt root)
  adds : ∀ rule ∈ release.rules.children, ruleId rule ≠ "" →
    ¬Known (notifyList "builtins" root) (ruleId rule) →
      withId (ruleId rule) (notifyList "rules" root) = [] →
        withId (ruleId rule) (notifyList "rules" (release.adopt root)) = [rule]
  leaves : ∀ id, Known (notifyList "builtins" root) id →
    withId id (notifyList "rules" (release.adopt root)) = withId id (notifyList "rules" root)
  single : ∀ id, (withId id (notifyList "rules" root)).length ≤ 1 →
    (withId id (notifyList "rules" (release.adopt root))).length ≤ 1
  remembers : ∀ id, Known (notifyList "builtins" root) id →
    Known (notifyList "builtins" (release.adopt root)) id
  records : ∀ rule ∈ release.rules.children, ruleId rule ≠ "" →
    Known (notifyList "builtins" (release.adopt root)) (ruleId rule)

/-- The notification settings are there, and what stands for their rules and their record
is an array wherever there is something. -/
def Ready (root : Item) : Prop :=
  ∃ notify, root.path? ["notify"] = some notify ∧
    Listable "rules" notify ∧ Listable "builtins" notify

theorem adoptBuiltinRules_some {notify : Item} (here : root.path? ["notify"] = some notify) :
    adoptBuiltinRules release.tree root =
      (modifyAt ["notify"] (fun notify => (adoptInto release.rules.children notify).1) root,
        (adoptInto release.rules.children notify).2) := by
  rw [adoptBuiltinRules, release.ships, here]
  exact if_pos release.array

theorem adoptBuiltinRules_none (missing : root.path? ["notify"] = none) :
    adoptBuiltinRules release.tree root = (root, 0) := by
  rw [adoptBuiltinRules, release.ships, missing]

theorem path?_adopt (release : Release) {notify : Item}
    (here : root.path? ["notify"] = some notify) :
    (release.adopt root).path? ["notify"] =
      some (adoptInto release.rules.children notify).1 := by
  rw [adopt, adoptBuiltinRules_some here, path?_modifyAt, here]
  rfl

theorem adopts_of_ready (ready : Ready root) : Adopts release root := by
  obtain ⟨notify, here, listed, recorded⟩ := ready
  obtain ⟨rules, record, again⟩ :=
    adoptInto_lists release.rules.children listed recorded
  have after := path?_adopt release here
  have before (name : String) : notifyList name root = listUnder name notify := by
    rw [notifyList, here]
  have then_ (name : String) : notifyList name (release.adopt root) =
      listUnder name (adoptInto release.rules.children notify).1 := by
    rw [notifyList, after]
  have held (id : String) : withId id (notifyList "rules" (release.adopt root)) =
      withId id (listUnder "rules" notify) ++
        withId id (adopted (listUnder "rules" notify)
          (offered release.rules.children (listUnder "builtins" notify))) := by
    rw [then_, rules, withId, List.filter_append]
    rfl
  refine ⟨?_, ?_, ?_, ?_, ?_, ?_, ?_⟩
  · rw [adoptBuiltinRules_some after, again]
    refine Prod.ext ?_ rfl
    apply modifyAt_eq_self
    intro item found
    rw [after, Option.some_inj] at found
    rw [← found, again]
  · rw [then_, rules, before]
    exact List.prefix_append _ _
  · intro rule inside named unknown none_
    rw [before] at unknown none_
    rw [held, none_, List.nil_append, withId_adopted, if_pos none_,
      withId_offered named unknown]
    have own : ∀ other ∈ withId (ruleId rule) release.rules.children, other = rule := by
      intro other member
      obtain ⟨isShipped, same⟩ := List.mem_filter.mp member
      have isId := of_decide_eq_true same
      exact release.distinct other isShipped rule inside isId (isId ▸ named)
    have member : rule ∈ withId (ruleId rule) release.rules.children :=
      List.mem_filter.mpr ⟨inside, decide_eq_true rfl⟩
    cases offers : withId (ruleId rule) release.rules.children with
    | nil =>
        rw [offers] at member
        cases member
    | cons first rest =>
        rw [List.take_succ_cons, List.take_zero, own first (offers ▸ List.mem_cons_self)]
  · intro id known
    rw [before] at known
    rw [held, withId_adopted, withId_offered_of_known (Or.inr known), List.take_nil, ite_self,
      List.append_nil, before]
  · intro id single
    rw [before] at single
    rw [held, withId_adopted, List.length_append]
    split_ifs with none_
    · rw [none_, List.length_nil, Nat.zero_add]
      exact List.length_take_le 1 _
    · exact single
  · intro id known
    rw [before] at known
    rw [then_, record, known_newIds]
    exact Or.inl known
  · intro rule inside named
    rw [then_, record, known_newIds]
    by_cases known : Known (listUnder "builtins" notify) (ruleId rule)
    · exact Or.inl known
    · exact Or.inr ⟨rule, mem_offered.mpr ⟨inside, named, known⟩, rfl⟩

/-- Adopting the built-in rules does what it should exactly where the notification settings
are there and no other member stands where the rules or the record are looked for. -/
theorem adopts_iff (release : Release) (root : Item) : Adopts release root ↔ Ready root := by
  constructor
  · intro adopts
    cases here : root.path? ["notify"] with
    | none =>
        obtain ⟨rule, inside, named⟩ := release.named
        obtain ⟨known, member, -⟩ := adopts.records rule inside named
        rw [adopt, adoptBuiltinRules_none here, notifyList, here] at member
        cases member
    | some notify =>
        refine ⟨notify, here, ?_⟩
        by_contra missing
        rw [not_and_or] at missing
        have after := path?_adopt release here
        have twice := path?_adopt release after
        have same : release.adopt (release.adopt root) = release.adopt root := by
          have first := congrArg Prod.fst adopts.idempotent
          exact first
        rw [same, after, Option.some_inj] at twice
        have longer := adoptInto_longer release.rules.children
          (hidden_adoptInto release.rules.children missing)
        rw [← twice] at longer
        exact lt_irrefl _ longer
  · exact adopts_of_ready

/-- The rules that ship. -/
def current : Release where
  tree := defaults
  rules := Shipped.rules
  ships := rfl
  array := rfl
  named := ⟨Shipped.ruleProbeTarget, List.mem_cons_self, by decide⟩
  distinct := by
    have different : (Shipped.rules.children.map ruleId).Nodup := by decide
    intro rule inside other otherInside same _
    exact List.inj_on_of_nodup_map different inside otherInside same

/-- Settings in which a text stands where the record of the built-in rules is looked for. -/
def hiddenRecord : Item :=
  object [("notify", object [("rules", Item.array []), ("builtins", text "all")])]

/-- A record that cannot be found again keeps nothing: every start offers every rule. -/
theorem hidden_record_forgets : ¬∀ (release : Release) (root : Item), Adopts release root := by
  intro all
  have known := (all current hiddenRecord).records Shipped.ruleProbeTarget List.mem_cons_self
    (by decide)
  have forgotten : ¬Known (notifyList "builtins" (current.adopt hiddenRecord))
      (ruleId Shipped.ruleProbeTarget) := by decide
  exact forgotten known

end Release

end PiFire.Settings
