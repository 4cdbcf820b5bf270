import PiFire.Rules.Condition

/-!
# The shape of a condition

A node is a group when its conditions are a list, and a comparison otherwise. This file
has the recursion and the induction over that shape, the evaluation as an instance of it,
and the timed nodes of a tree, each with its path and whether it lies inside an odd number
of negated groups.
-/

namespace PiFire.Rules

universe u

/-- The conditions of a group; a comparison has none. -/
def kidsOf (node : Json) : Option (List Json) :=
  match jget (some node) "conditions" with
  | some (.arr items) => some items
  | _ => none

section Fold

variable {α : Type u} (leaf : Json → α) (group : Json → List α → α)

mutual

/-- The recursion over a condition. -/
def foldTree : Json → α
  | .obj members =>
      match foldConditions members with
      | some kids => group (.obj members) kids
      | none => leaf (.obj members)
  | node => leaf node

def foldConditions : List (String × Json) → Option (List α)
  | [] => none
  | (name, .arr items) :: rest =>
      if name = "conditions" then some (foldItems items) else foldConditions rest
  | (name, _) :: rest => if name = "conditions" then none else foldConditions rest

def foldItems : List Json → List α
  | [] => []
  | item :: rest => foldTree item :: foldItems rest

end

theorem foldItems_eq (items : List Json) :
    foldItems leaf group items = items.map (foldTree leaf group) := by
  induction items with
  | nil => rfl
  | cons item rest ih => rw [foldItems, ih, List.map_cons]

theorem foldConditions_eq (members : List (String × Json)) :
    foldConditions leaf group members =
      (kidsOf (.obj members)).map (List.map (foldTree leaf group)) := by
  induction members with
  | nil => rfl
  | cons entry rest ih =>
      obtain ⟨name, value⟩ := entry
      by_cases here : name = "conditions"
      · subst here
        cases value <;>
          simp [foldConditions, foldItems_eq, kidsOf, jget, Json.member?]
      · have apart : ("conditions" == name) = false := by simpa using Ne.symm here
        have later : kidsOf (.obj ((name, value) :: rest)) = kidsOf (.obj rest) := by
          simp [kidsOf, jget, Json.member?, List.lookup_cons, apart]
        rw [later, ← ih]
        cases value <;> simp [foldConditions, here]

theorem foldTree_leaf {node : Json} (plain : kidsOf node = none) :
    foldTree leaf group node = leaf node := by
  cases node with
  | obj members => rw [foldTree, foldConditions_eq, plain, Option.map_none]
  | _ => rw [foldTree]; nofun

theorem foldTree_group {node : Json} {items : List Json} (inside : kidsOf node = some items) :
    foldTree leaf group node = group node (items.map (foldTree leaf group)) := by
  cases node with
  | obj members => rw [foldTree, foldConditions_eq, inside, Option.map_some]
  | _ => cases inside

end Fold

theorem sizeOf_kid {node item : Json} {items : List Json} (inside : kidsOf node = some items)
    (among : item ∈ items) : sizeOf item < sizeOf node := by
  cases node with
  | obj members =>
      have found : members.lookup "conditions" = some (.arr items) := by
        simp only [kidsOf, jget, Option.bind_some, Json.member?] at inside
        split at inside
        · simp_all
        · cases inside
      obtain ⟨before, after, rfl, -⟩ := List.lookup_eq_some_iff.mp found
      have member : sizeOf ("conditions", Json.arr items) <
          sizeOf (before ++ ("conditions", Json.arr items) :: after) :=
        List.sizeOf_lt_of_mem (by simp)
      have element := List.sizeOf_lt_of_mem among
      simp only [Json.obj.sizeOf_spec, Json.arr.sizeOf_spec, Prod.mk.sizeOf_spec] at member ⊢
      omega
  | _ => cases inside

/-- The induction over a condition. -/
theorem tree_induction {motive : Json → Prop}
    (leaf : ∀ node, kidsOf node = none → motive node)
    (group : ∀ node items, kidsOf node = some items → (∀ item ∈ items, motive item) →
      motive node) (node : Json) : motive node := by
  cases inside : kidsOf node with
  | none => exact leaf node inside
  | some items =>
      apply group node items inside
      intro item among
      have := sizeOf_kid inside among
      exact tree_induction leaf group item
  termination_by sizeOf node

/-- A comparison, and how long it has been true. -/
def evalLeaf (cx : EvalCtx) (node : Json) : Evaluation := fun path clocks =>
  heldLongEnough cx.now path node (evalComparison cx node) clocks

/-- A group, and how long it has been true. -/
def evalTimedGroup (cx : EvalCtx) (node : Json) (kids : List Evaluation) : Evaluation :=
  fun path clocks =>
    heldLongEnough cx.now path node (evalGroup node kids path clocks).1
      (evalGroup node kids path clocks).2

mutual

theorem evalPath_eq_fold (cx : EvalCtx) : ∀ node : Json,
    evalPath cx node = foldTree (evalLeaf cx) (evalTimedGroup cx) node
  | .obj members => by
      rw [evalPath, foldTree, evalConditions_eq_fold cx members]
      cases foldConditions (evalLeaf cx) (evalTimedGroup cx) members <;> rfl
  | .null | .bool _ | .num _ | .str _ | .arr _ => rfl

theorem evalConditions_eq_fold (cx : EvalCtx) : ∀ members : List (String × Json),
    evalConditions cx members = foldConditions (evalLeaf cx) (evalTimedGroup cx) members
  | [] => rfl
  | (name, value) :: rest => by
      have later := evalConditions_eq_fold cx rest
      cases value with
      | arr items => rw [evalConditions, foldConditions, evalItems_eq_fold cx items, later]
      | _ => rw [evalConditions, foldConditions, later] <;> nofun

theorem evalItems_eq_fold (cx : EvalCtx) : ∀ items : List Json,
    evalItems cx items = foldItems (evalLeaf cx) (evalTimedGroup cx) items
  | [] => rfl
  | item :: rest => by
      rw [evalItems, foldItems, evalPath_eq_fold cx item, evalItems_eq_fold cx rest]

end

theorem evalPath_leaf (cx : EvalCtx) {node : Json} (plain : kidsOf node = none) :
    evalPath cx node = evalLeaf cx node := by
  rw [evalPath_eq_fold, foldTree_leaf _ _ plain]

theorem evalPath_group (cx : EvalCtx) {node : Json} {items : List Json}
    (inside : kidsOf node = some items) :
    evalPath cx node = evalTimedGroup cx node (items.map (evalPath cx)) := by
  have same : evalPath cx = foldTree (evalLeaf cx) (evalTimedGroup cx) :=
    funext (evalPath_eq_fold cx)
  rw [same, foldTree_group _ _ inside]

/-- The time a node asks to have been true for; none when it is not positive. -/
def needOf (node : Json) : ℚ := jsonNum node ["for_s"] 0

/-- Whether a group denies what is inside it. -/
def denies (node : Json) : Bool :=
  !strcasecmp (jsonStr node ["op"] "all") "any" && strcasecmp (jsonStr node ["op"] "all") "not"

/-- The path of a condition of a group. -/
def kidPath (path : UInt32) (i : ℕ) : UInt32 := path * 31 + UInt32.ofNat (i + 1)

/-- A timed node: its path, and whether an odd number of groups deny it. -/
structure TimedNode where
  path : UInt32
  denied : Bool
  node : Json

/-- The clock a node asks for, if any. -/
def ownClock (node : Json) (path : UInt32) (denied : Bool) : List TimedNode :=
  if 0 < needOf node then [⟨path, denied, node⟩] else []

/-- The timed nodes among the conditions of a group. -/
def kidClocks (path : UInt32) (denied : Bool) : ℕ → List (UInt32 → Bool → List TimedNode) →
    List TimedNode
  | _, [] => []
  | i, kid :: rest => kid (kidPath path i) denied ++ kidClocks path denied (i + 1) rest

/-- The timed nodes of a tree at a path. -/
def timedNodes : Json → UInt32 → Bool → List TimedNode :=
  foldTree ownClock fun node kids path denied =>
    kidClocks path (denied ^^ denies node) 0 kids ++ ownClock node path denied

theorem timedNodes_leaf {node : Json} (plain : kidsOf node = none) :
    timedNodes node = ownClock node :=
  foldTree_leaf _ _ plain

theorem timedNodes_group {node : Json} {items : List Json} (inside : kidsOf node = some items)
    (path : UInt32) (denied : Bool) :
    timedNodes node path denied =
      kidClocks path (denied ^^ denies node) 0 (items.map timedNodes) ++
        ownClock node path denied := by
  rw [timedNodes, foldTree_group _ _ inside]

/-- A pit over a temperature, for a minute. -/
def hotMinute (isOver : ℚ) : Json :=
  .obj [("trait", .str "temp"), ("op", .str ">"), ("value", .num isOver), ("for_s", .num 60)]

/-- What a clock is set to by a look at its node. -/
def setClock (now : ℚ) (nowTrue : Bool) (old : ℚ) : ℚ :=
  if !nowTrue then 0 else if old = 0 then now else old

theorem setClock_le {now old : ℚ} {nowTrue : Bool} (started : 0 ≤ now) (past : old ≤ now) :
    setClock now nowTrue old ≤ now := by
  unfold setClock
  split_ifs
  · exact started
  · exact le_rfl
  · exact past

theorem findTimer_path {timers : List NodeTimer} {path : UInt32} {i : ℕ}
    (found : findTimer timers path = some i) :
    ∃ timer, timers[i]? = some timer ∧ (timer.path = path ∨ timer.path = 0) := by
  have at_ {p : UInt32} (index : timers.findIdx? (·.path = p) = some i) :
      ∃ timer, timers[i]? = some timer ∧ timer.path = p := by
    obtain ⟨inside, here, -⟩ := List.findIdx?_eq_some_iff_getElem.mp index
    exact ⟨_, List.getElem?_eq_getElem inside, by simpa using here⟩
  rw [findTimer] at found
  split at found
  · rename_i own
    rw [Option.some_inj] at found
    subst found
    obtain ⟨timer, here, same⟩ := at_ own
    exact ⟨timer, here, Or.inl same⟩
  · obtain ⟨timer, here, same⟩ := at_ found
    exact ⟨timer, here, Or.inr same⟩

theorem heldLongEnough_timed {now : ℚ} {path : UInt32} {node : Json} {nowTrue : Bool}
    {timers : List NodeTimer} {i : ℕ} {timer : NodeTimer} (timed : 0 < needOf node)
    (found : findTimer timers path = some i) (here : timers[i]? = some timer) :
    heldLongEnough now path node nowTrue (some timers) =
      (nowTrue && decide (needOf node ≤ now - setClock now nowTrue timer.since),
        some (timers.set i ⟨path, setClock now nowTrue timer.since⟩)) := by
  have need : ¬jsonNum node ["for_s"] 0 ≤ 0 := timed.not_ge
  simp only [heldLongEnough, if_neg need, found, here, Option.map_some, Option.getD_some]
  rfl

theorem heldLongEnough_full {now : ℚ} {path : UInt32} {node : Json} {nowTrue : Bool}
    {timers : List NodeTimer} (timed : 0 < needOf node) (full : findTimer timers path = none) :
    heldLongEnough now path node nowTrue (some timers) = (false, some timers) := by
  have need : ¬jsonNum node ["for_s"] 0 ≤ 0 := timed.not_ge
  simp only [heldLongEnough, if_neg need, full]

theorem heldLongEnough_untimed {now : ℚ} {path : UInt32} {node : Json} {nowTrue : Bool}
    {clocks : Clocks} (untimed : ¬0 < needOf node) :
    heldLongEnough now path node nowTrue clocks = (nowTrue, clocks) := by
  cases clocks with
  | none => rfl
  | some timers =>
      have need : jsonNum node ["for_s"] 0 ≤ 0 := not_lt.mp untimed
      simp only [heldLongEnough, if_pos need]

end PiFire.Rules
