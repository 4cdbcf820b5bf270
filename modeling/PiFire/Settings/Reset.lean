import PiFire.Settings.Load
import PiFire.Settings.Walk

/-!
# Resetting a limit

A reset deletes by name in any case and adds under the exact name, last. Where
a limit's group is an object that has the name at most once, in whatever case,
the limit then reads what it was reset to, and every other value reads what it
read before.
-/

namespace PiFire.Settings

open Item

/-! ## Names in any case -/

/-- Whether a child has a name, in any case. -/
def answersTo (name : String) (entry : Child) : Bool := entry.1.any (strcasecmp name)

/-- At most one child has the name, in any case. -/
def Once (name : String) (children : List Child) : Prop :=
  (children.filter (answersTo name)).length ≤ 1

theorem filter_deleteAnyCase_self (name : String) (children : List Child) :
    (deleteAnyCase name children).filter (answersTo name) =
      (children.filter (answersTo name)).tail := by
  induction children with
  | nil => rfl
  | cons entry rest ih =>
      rcases entry with ⟨_ | other, item⟩
      · simpa [deleteAnyCase, answersTo] using ih
      · by_cases same : strcasecmp name other = true <;>
          simp [deleteAnyCase, answersTo, same]
        simpa [answersTo] using ih

theorem strcasecmp_apart {name other given : String} (apart : strcasecmp name other = false)
    (answers : strcasecmp name given = true) : strcasecmp other given = false := by
  simp only [strcasecmp, beq_iff_eq, beq_eq_false_iff_ne] at apart answers ⊢
  rw [← answers]
  exact Ne.symm apart

theorem filter_deleteAnyCase_other {name other : String}
    (apart : strcasecmp name other = false)
    (children : List Child) :
    (deleteAnyCase name children).filter (answersTo other) =
      children.filter (answersTo other) := by
  induction children with
  | nil => rfl
  | cons entry rest ih =>
      rcases entry with ⟨_ | given, item⟩
      · simpa [deleteAnyCase, answersTo] using ih
      · by_cases same : strcasecmp name given = true
        · simp [deleteAnyCase, answersTo, same, strcasecmp_apart apart same]
        · simp only [deleteAnyCase, same, Bool.false_eq_true, if_false, List.filter_cons, ih]

theorem findExact_deleteAnyCase_other {name other : String}
    (apart : strcasecmp name other = false)
    (children : List Child) :
    findExact other (deleteAnyCase name children) = findExact other children := by
  induction children with
  | nil => rfl
  | cons entry rest ih =>
      rcases entry with ⟨_ | given, item⟩
      · rfl
      · by_cases same : strcasecmp name given = true
        · have different : given ≠ other := by
            rintro rfl
            rw [apart] at same
            cases same
          simp [deleteAnyCase, findExact, same, different]
        · simp only [deleteAnyCase, same, Bool.false_eq_true, if_false, findExact, ih]

theorem findExact_of_filter_nil {name : String} {children : List Child}
    (none_ : children.filter (answersTo name) = []) : findExact name children = none := by
  cases found : findExact name children with
  | none => rfl
  | some item =>
      have member := List.filter_eq_nil_iff.mp none_ _ (mem_of_findExact found)
      simp [answersTo, strcasecmp_self] at member

theorem named_deleteAnyCase (name : String) {children : List Child} (named : Named children) :
    Named (deleteAnyCase name children) := by
  induction children with
  | nil => exact named
  | cons entry rest ih =>
      rcases entry with ⟨_ | given, item⟩
      · simpa using named (none, item) (by simp)
      · rw [deleteAnyCase]
        split_ifs
        · exact named.tail
        · intro entry member
          rcases List.mem_cons.mp member with rfl | later
          · rfl
          · exact ih named.tail entry later

/-! ## A group after a reset -/

/-- A group in which a member can be set: an object that has the name at most
once. -/
structure Settable (leaf : String) (group : Item) : Prop where
  object : group.kind = .obj
  named : Named group.child
  once : Once leaf group.child

instance (leaf : String) (group : Item) : Decidable (Settable leaf group) :=
  decidable_of_iff
    (group.kind = .obj ∧ (∀ entry ∈ group.child, entry.1.isSome) ∧
      (group.child.filter (answersTo leaf)).length ≤ 1)
    ⟨fun ⟨object, named, once⟩ => ⟨object, named, once⟩,
      fun ⟨object, named, once⟩ => ⟨object, named, once⟩⟩

/-- The group with a number set. -/
def withNumber (leaf : String) (v : ℚ) (group : Item) : Item :=
  (group.deleteItem leaf).addItem leaf (number v)

theorem named_withNumber {leaf : String} {group : Item} (named : Named group.child) (v : ℚ) :
    Named (withNumber leaf v group).child := by
  intro entry member
  rcases List.mem_append.mp member with old | new
  · exact named_deleteAnyCase leaf named entry old
  · rw [List.mem_singleton.mp new]
    rfl

theorem enter?_withNumber {leaf : String} {group : Item} (settable : Settable leaf group)
    (v : ℚ) : (withNumber leaf v group).enter? leaf = some (number v) := by
  have gone : (deleteAnyCase leaf group.child).filter (answersTo leaf) = [] := by
    rw [filter_deleteAnyCase_self]
    exact List.eq_nil_of_length_eq_zero (by
      rw [List.length_tail]
      exact Nat.sub_eq_zero_of_le settable.once)
  rw [enter?_of_obj (show (withNumber leaf v group).kind = .obj from settable.object)]
  exact findExact_append_self (named_deleteAnyCase leaf settable.named)
    (findExact_of_filter_nil gone) (number v)

theorem enter?_withNumber_other {leaf other : String} (apart : strcasecmp leaf other = false)
    {group : Item} (object : group.kind = .obj) (v : ℚ) :
    (withNumber leaf v group).enter? other = group.enter? other := by
  have different : other ≠ leaf := by
    rintro rfl
    rw [strcasecmp_self] at apart
    cases apart
  rw [enter?_of_obj object, enter?_of_obj (show (withNumber leaf v group).kind = .obj from object)]
  exact (findExact_append_ne different _ _).trans (findExact_deleteAnyCase_other apart group.child)

theorem settable_withNumber_self {leaf : String} {group : Item}
    (settable : Settable leaf group) (v : ℚ) : Settable leaf (withNumber leaf v group) := by
  refine ⟨settable.object, named_withNumber settable.named v, ?_⟩
  show ((deleteAnyCase leaf group.child ++ [(some leaf, number v)]).filter _).length ≤ 1
  rw [List.filter_append, filter_deleteAnyCase_self, List.length_append, List.length_tail]
  have before := settable.once
  unfold Once at before
  have added : ([((some leaf : Option String), number v)].filter (answersTo leaf)).length = 1 := by
    simp [answersTo, strcasecmp_self]
  omega

theorem settable_withNumber_other {leaf other : String} (apart : strcasecmp leaf other = false)
    {group : Item} (settable : Settable other group) (v : ℚ) :
    Settable other (withNumber leaf v group) := by
  refine ⟨settable.object, named_withNumber settable.named v, ?_⟩
  show ((deleteAnyCase leaf group.child ++ [(some leaf, number v)]).filter _).length ≤ 1
  have back : strcasecmp other leaf = false := by
    simp only [strcasecmp, beq_eq_false_iff_ne] at apart ⊢
    exact Ne.symm apart
  rw [List.filter_append, filter_deleteAnyCase_other apart, List.length_append]
  have before := settable.once
  unfold Once at before
  simpa [answersTo, back] using before

theorem filter_modifyExact (p : Child → Bool)
    (same : ∀ name one other, p (name, one) = p (name, other)) (name : String) (f : Item → Item) (children : List Child) :
    ((modifyExact name f children).filter p).length = (children.filter p).length := by
  induction children with
  | nil => rfl
  | cons entry rest ih =>
      rcases entry with ⟨_ | given, item⟩
      · rfl
      · rw [modifyExact]
        split_ifs
        · rw [List.filter_cons, List.filter_cons, same _ (f item) item]
          split_ifs <;> rfl
        · rw [List.filter_cons, List.filter_cons]
          split_ifs <;> simp [ih]

theorem settable_onEnter {leaf token : String} {f : Item → Item} {group : Item}
    (settable : Settable leaf group) : Settable leaf (group.onEnter token f) := by
  rcases group with ⟨kind, children⟩
  cases settable.object
  refine ⟨rfl, (named_modifyExact token f children).mpr settable.named, ?_⟩
  unfold Once
  show ((modifyExact token f children).filter _).length ≤ 1
  rw [filter_modifyExact _ (fun _ _ _ => rfl)]
  exact settable.once

/-! ## The limits after a reset -/

namespace Limit

theorem mem_all (l : Limit) : l ∈ all := by
  cases l <;> decide

theorem leaf_apart {l other : Limit} (different : l ≠ other) (group : l.parent = other.parent) :
    strcasecmp l.leaf other.leaf = false := by
  have checked : ∀ l ∈ all, ∀ other ∈ all, l ≠ other → l.parent = other.parent →
      strcasecmp l.leaf other.leaf = false := by
    decide
  exact checked l l.mem_all other other.mem_all different group

theorem parent_cases (l other : Limit) :
    l.parent = other.parent ∨ parts other.parent l.parent ∧ parts other.path l.parent ∨
      l.parent = ["safety"] ∧ other.parent = ["safety", "power_loss"] ∨
      l.parent = ["safety", "power_loss"] ∧ other.parent = ["safety"] := by
  have checked : ∀ l ∈ all, ∀ other ∈ all,
      l.parent = other.parent ∨ parts other.parent l.parent ∧ parts other.path l.parent ∨
        l.parent = ["safety"] ∧ other.parent = ["safety", "power_loss"] ∨
        l.parent = ["safety", "power_loss"] ∧ other.parent = ["safety"] := by
    decide
  exact checked l l.mem_all other other.mem_all

theorem isName_leaf (l : Limit) : isName l.leaf = true := by
  have checked : ∀ l ∈ all, isName l.leaf = true := by decide
  exact checked l l.mem_all

theorem leaf_powerLoss (l : Limit) : strcasecmp l.leaf "power_loss" = false := by
  have checked : ∀ l ∈ all, strcasecmp l.leaf "power_loss" = false := by decide
  exact checked l l.mem_all

end Limit

/-- Every limit can be set in its group. -/
def Plain (root : Item) : Prop :=
  ∀ l : Limit, ∃ group, root.path? l.parent = some group ∧ Settable l.leaf group

instance (root : Item) : Decidable (Plain root) :=
  decidable_of_iff
    (∀ l ∈ Limit.all, ∃ group ∈ root.path? l.parent, Settable l.leaf group)
    ⟨fun each l => each l l.mem_all, fun each l _ => each l⟩

theorem resetLimit_eq (c : Bool) (l : Limit) (root : Item) :
    resetLimit c l root = modifyAt l.parent (withNumber l.leaf (l.shipped c)) root := rfl

section

variable {root : Item} (plain : Plain root) (c : Bool) (l : Limit)

include plain

theorem path?_resetLimit : (resetLimit c l root).path? l.path = some (number (l.shipped c)) := by
  rcases plain l with ⟨group, reached, settable⟩
  rw [resetLimit_eq, Limit.path, path?_modifyAt_below, reached, Option.bind_some, path?_cons,
    enter?_withNumber settable]
  rfl

theorem group_resetLimit {other : Limit} (different : l ≠ other) :
    ∃ group after, root.path? other.parent = some group ∧
      (resetLimit c l root).path? other.parent = some after ∧ Settable other.leaf group ∧
      Settable other.leaf after ∧ after.enter? other.leaf = group.enter? other.leaf := by
  rcases plain other with ⟨group, reached, settable⟩
  refine ⟨group, ?_⟩
  rcases Limit.parent_cases l other with same | ⟨apart, _⟩ | ⟨outer, inner⟩ | ⟨inner, outer⟩
  · have names := Limit.leaf_apart different same
    refine ⟨withNumber l.leaf (l.shipped c) group, reached, ?_, settable,
      settable_withNumber_other names settable _, enter?_withNumber_other names settable.object _⟩
    rw [resetLimit_eq, same, path?_modifyAt, reached]
    rfl
  · refine ⟨group, reached, ?_, settable, settable, rfl⟩
    rw [resetLimit_eq, path?_modifyAt_parts apart, reached]
  · -- the group lies in the one that is reset
    refine ⟨group, reached, ?_, settable, settable, rfl⟩
    rcases plain l with ⟨safety, found, holds⟩
    rw [outer] at found
    rw [inner] at reached ⊢
    rw [resetLimit_eq, outer, show ["safety", "power_loss"] = ["safety"] ++ ["power_loss"] from rfl,
      path?_modifyAt_below, found, Option.bind_some, path?_cons,
      enter?_withNumber_other (Limit.leaf_powerLoss l) holds.object]
    rw [show ["safety", "power_loss"] = ["safety"] ++ ["power_loss"] from rfl, path?_append,
      found, Option.bind_some, path?_cons] at reached
    exact reached
  · -- the group holds the one that is reset
    refine ⟨group.onEnter "power_loss" (withNumber l.leaf (l.shipped c)), reached, ?_, settable,
      settable_onEnter settable, ?_⟩
    · rw [outer] at reached ⊢
      rw [resetLimit_eq, inner, show ["safety", "power_loss"] = ["safety"] ++ ["power_loss"] from rfl,
        modifyAt_append, path?_modifyAt, reached]
      rfl
    · apply enter?_onEnter_ne _ (Limit.isName_leaf other)
      intro equal
      have apart := Limit.leaf_powerLoss other
      rw [equal, strcasecmp_self] at apart
      cases apart

theorem path?_resetLimit_ne {other : Limit} (different : l ≠ other) :
    (resetLimit c l root).path? other.path = root.path? other.path := by
  rcases group_resetLimit plain c l different with ⟨group, after, before, reached, _, _, same⟩
  rw [Limit.path, path?_append, path?_append, before, reached, Option.bind_some, Option.bind_some,
    path?_cons, path?_cons, same]

theorem plain_resetLimit : Plain (resetLimit c l root) := by
  intro other
  by_cases different : l = other
  · subst different
    rcases plain l with ⟨group, reached, settable⟩
    refine ⟨withNumber l.leaf (l.shipped c) group, ?_, settable_withNumber_self settable _⟩
    rw [resetLimit_eq, path?_modifyAt, reached]
    rfl
  · rcases group_resetLimit plain c l different with ⟨_, after, _, reached, _, settable, _⟩
    exact ⟨after, reached, settable⟩

end

theorem path?_resetLimit_apart {path : List String} (c : Bool) {l : Limit}
    (apart : parts path l.parent) (root : Item) :
    (resetLimit c l root).path? path = root.path? path :=
  path?_modifyAt_parts apart _ _

/-- The readings with a limit reset. -/
def Readings.reset (r : Readings) (l : Limit) : Readings :=
  { r with limit := Function.update r.limit l (l.shipped r.celsius) }

theorem readings_resetLimit {root : Item} (plain : Plain root) (l : Limit) :
    readings (resetLimit (Schema.celsius root) l root) = (readings root).reset l := by
  have apart : ∀ l ∈ Limit.all, ∀ path ∈ [["globals", "units"], ["cycle_data", "u_min"],
      ["cycle_data", "u_max"], ["cycle_data", "HoldCycleTime"], ["smoke_plus", "max_temp"],
      ["web", "port"], ["history", "sample_s"], ["network", "hotspot_password"]],
      parts path l.parent := by
    decide
  have same := fun path member =>
    path?_resetLimit_apart (Schema.celsius root) (apart l l.mem_all path member) root
  simp only [List.mem_cons, List.not_mem_nil, or_false, forall_eq_or_imp, forall_eq] at same
  rcases same with ⟨units, uMin, uMax, hold, splus, port, sample, password⟩
  have limits : ∀ (dflt : Limit → ℚ) (other : Limit),
      (resetLimit (Schema.celsius root) l root).num other.path (dflt other) =
        Function.update (fun other => root.num other.path (dflt other)) l
          (l.shipped (Schema.celsius root)) other := by
    intro dflt other
    by_cases same : other = l
    · subst same
      rw [Function.update_self, Item.num, Item.num?, path?_resetLimit plain]
      rfl
    · rw [Function.update_of_ne same, Item.num, Item.num?,
        path?_resetLimit_ne plain _ l (Ne.symm same), Item.num, Item.num?]
  have num {path : List String}
      (same : (resetLimit (Schema.celsius root) l root).path? path = root.path? path) (dflt : ℚ) :
      (resetLimit (Schema.celsius root) l root).num path dflt = root.num path dflt := by
    rw [Item.num, Item.num?, same, Item.num, Item.num?]
  have str {path : List String}
      (same : (resetLimit (Schema.celsius root) l root).path? path = root.path? path)
      (dflt : String) :
      (resetLimit (Schema.celsius root) l root).str path dflt = root.str path dflt := by
    rw [Item.str, same, Item.str]
  simp only [readings, Readings.reset, Item.int, str units, num uMin, num uMax, num hold,
    num splus, num port, num sample, str password, Readings.mk.injEq, true_and]
  exact funext (limits _)

/-! ## The repair, read -/

/-- One pass of the repair, on the values read. -/
def Readings.pass (r : Readings) : Option Readings :=
  match r.failing with
  | some (.limit l) => some (r.reset l)
  | _ => none

/-- As many passes as there can be, on the values read. -/
def Readings.repairLoop : ℕ → Readings → Readings
  | 0, r => r
  | passes + 1, r =>
      match r.pass with
      | some next => Readings.repairLoop passes next
      | none => r

/-- The error of a check names the limit the check is about, and no other. -/
theorem limitOf_message (c : Bool) (check : Check) :
    limitOf (check.message c) =
      match check with
      | .limit l => some l
      | _ => none := by
  cases check with
  | limit l => cases l <;> cases c <;> decide +kernel
  | _ => cases c <;> decide +kernel

theorem celsius_readings (root : Item) : (readings root).celsius = Schema.celsius root := rfl

theorem repairPass_eq {root : Item} (plain : Plain root) :
    repairPass (Schema.celsius root) root =
      match (readings root).failing with
      | some (.limit l) => some (resetLimit (Schema.celsius root) l root)
      | _ => none := by
  have read : validate root =
      (readings root).failing.map (Check.message (readings root).celsius) := rfl
  rw [repairPass, read]
  cases (readings root).failing with
  | none => rfl
  | some check =>
      rw [Option.map_some, Option.bind_some, limitOf_message]
      cases check with
      | limit l =>
          rcases plain l with ⟨group, reached, _⟩
          rw [Option.bind_some, reached]
          rfl
      | _ => rfl

/-- A pass over a tree whose limits can be set is a pass over the values read
from it, and leaves such a tree. -/
theorem repairPass_read {root : Item} (plain : Plain root) :
    (repairPass (Schema.celsius root) root).map readings = (readings root).pass ∧
      ∀ next, repairPass (Schema.celsius root) root = some next →
        Plain next ∧ Schema.celsius next = Schema.celsius root := by
  rw [repairPass_eq plain, Readings.pass]
  cases (readings root).failing with
  | none => simp
  | some check =>
      cases check with
      | limit l =>
          have read := readings_resetLimit plain l
          refine ⟨congrArg some read, ?_⟩
          rintro next ⟨⟩
          refine ⟨plain_resetLimit plain _ l, ?_⟩
          rw [← celsius_readings, read]
          rfl
      | _ => simp

theorem readings_repairLoop {root : Item} (plain : Plain root) (passes : ℕ) :
    readings (repairLoop (Schema.celsius root) passes root).1 =
      (readings root).repairLoop passes := by
  induction passes generalizing root with
  | zero => rfl
  | succ passes ih =>
      rcases repairPass_read plain with ⟨read, kept⟩
      rw [repairLoop, Readings.repairLoop, ← read]
      cases found : repairPass (Schema.celsius root) root with
      | none => rfl
      | some next =>
          rcases kept next found with ⟨plainNext, sameUnits⟩
          have later := ih plainNext
          rw [sameUnits] at later
          exact later

theorem readings_repair {root : Item} (plain : Plain root) :
    readings (repair root).1 = (readings root).repairLoop repairPasses :=
  readings_repairLoop plain repairPasses

end PiFire.Settings

/-!
# The entries of a list

A list that is found under its name in any case can be changed in place, and its
entries can be sifted. This file says what is read back after such a change, and
when two of them come to the same.
-/

namespace PiFire.Settings

namespace Item

variable {name other : String} {f : Item → Item} {item : Item}

theorem getAnyCase?_onAnyCase (name : String) (f : Item → Item) (item : Item) :
    (item.onAnyCase name f).getAnyCase? name = (item.getAnyCase? name).map f := by
  obtain ⟨kind, children⟩ := item
  change findAnyCase name (modifyAnyCase name f children) = (findAnyCase name children).map f
  induction children with
  | nil => rfl
  | cons entry rest ih =>
      rcases entry with ⟨_ | given, inner⟩
      · exact ih
      · by_cases same : strcasecmp name given = true
        · simp only [modifyAnyCase, findAnyCase, same, if_true, Option.map_some]
        · simp only [modifyAnyCase, findAnyCase, same, Bool.false_eq_true, if_false]
          exact ih

theorem getAnyCase?_onAnyCase_ne (apart : strcasecmp other name = false) (f : Item → Item)
    (item : Item) : (item.onAnyCase other f).getAnyCase? name = item.getAnyCase? name := by
  obtain ⟨kind, children⟩ := item
  change findAnyCase name (modifyAnyCase other f children) = findAnyCase name children
  induction children with
  | nil => rfl
  | cons entry rest ih =>
      rcases entry with ⟨_ | given, inner⟩
      · exact ih
      · by_cases same : strcasecmp other given = true
        · simp only [modifyAnyCase, findAnyCase, same, if_true, strcasecmp_apart apart same,
            Bool.false_eq_true, if_false]
        · simp only [modifyAnyCase, findAnyCase, same, Bool.false_eq_true, if_false,
            ih]

theorem onAnyCase_eq_self (fixes : ∀ inner, item.getAnyCase? name = some inner → f inner = inner) :
    item.onAnyCase name f = item := by
  obtain ⟨kind, children⟩ := item
  have same : modifyAnyCase name f children = children := by
    change ∀ inner, findAnyCase name children = some inner → f inner = inner at fixes
    induction children with
    | nil => rfl
    | cons entry rest ih =>
        rcases entry with ⟨_ | given, inner⟩
        · rw [modifyAnyCase, ih fixes]
        · by_cases same : strcasecmp name given = true
          · simp only [findAnyCase, same, if_true, Option.some.injEq, forall_eq'] at fixes
            simp only [modifyAnyCase, same, if_true, fixes]
          · simp only [findAnyCase, same, Bool.false_eq_true, if_false] at fixes
            simp only [modifyAnyCase, same, Bool.false_eq_true, if_false,
              ih fixes]
  exact congrArg (node kind) same

theorem mem_children {inner : Item} :
    inner ∈ item.children ↔ ∃ entry ∈ item.child, entry.2 = inner :=
  List.mem_map

theorem filterChildren_eq_iff {keep keep' : Item → Bool} :
    item.filterChildren keep = item.filterChildren keep' ↔
      ∀ inner ∈ item.children, keep inner = keep' inner := by
  constructor
  · intro same inner inside
    obtain ⟨entry, listed, rfl⟩ := mem_children.mp inside
    have kept := congrArg (entry ∈ ·.child) same
    simp only [filterChildren, child_node, List.mem_filter, listed, true_and, eq_iff_iff] at kept
    exact Bool.eq_iff_iff.mpr kept
  · intro agree
    unfold filterChildren
    congr 1
    apply List.filter_congr
    intro entry listed
    exact agree entry.2 (mem_children.mpr ⟨entry, listed, rfl⟩)

theorem filterChildren_eq_self {keep : Item → Bool}
    (all : ∀ inner ∈ item.children, keep inner = true) : item.filterChildren keep = item := by
  obtain ⟨kind, children⟩ := item
  unfold filterChildren
  congr 1
  apply List.filter_eq_self.mpr
  intro entry listed
  exact all entry.2 (mem_children.mpr ⟨entry, listed, rfl⟩)

end Item

end PiFire.Settings
