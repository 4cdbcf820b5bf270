import PiFire.Recipes.Store
import PiFire.Rules.Tree

/-!
# The ending of an older step

An older step says in separate fields when it ends: after a time, or at a temperature of the
food, and then whether it asks. The tree that is made of these fields is held against what
they say of the facts of a step: the time in it, the food probes of the cook, and the two
answers only a person can give.
-/

namespace PiFire.OldFields

open Rules

/-! ## The facts of a step -/

/-- A food probe that is part of the cook: its label, its temperature, and how much it will
still climb off the heat. -/
structure Food where
  label : String
  temp : ℚ
  climb : ℚ

/-- The facts a step is asked about. -/
structure Facts where
  elapsed : ℚ
  food : List Food
  prompt : Bool
  lid : Bool

/-- The further of two probes by a measure, the first where they are as far. -/
def further (measure : Food → ℚ) (best : Option Food) (p : Food) : Option Food :=
  match best with
  | none => some p
  | some b => if measure b < measure p then some p else some b

/-- The first of the probes that are furthest by a measure. -/
def furthest (measure : Food → ℚ) (food : List Food) : Option Food :=
  food.foldl (further measure) none

def hottest : List Food → Option Food := furthest Food.temp

def coolest : List Food → Option Food := furthest fun p => -p.temp

/-- A number that may be missing, as a status has it. -/
def shown (name : String) (x : Option ℚ) : List (String × Json) :=
  (x.map fun value => (name, Json.num value)).toList

/-- The facts as the status that a step's ending is evaluated on. -/
def stepFacts (x : Facts) : Json :=
  .obj [("step", .obj
    ([("elapsed", .num x.elapsed)] ++ shown "food_max" ((hottest x.food).map Food.temp) ++
      shown "food_min" ((coolest x.food).map Food.temp) ++
      shown "food_rested" ((hottest x.food).map fun p => p.temp + p.climb) ++
      [("prompt", .bool x.prompt), ("lid", .bool x.lid)]))]

/-- What a number that may be missing reads as. -/
def reading : Option ℚ → Val
  | some x => .num x
  | none => .none

/-- A status that shows the facts of a step, whatever else it has. -/
structure Shows (status : Json) (x : Facts) : Prop where
  elapsed : Val.ofScalar (jsonPath status ["step", "elapsed"]) = .num x.elapsed
  hot : Val.ofScalar (jsonPath status ["step", "food_max"]) =
    reading ((hottest x.food).map Food.temp)
  cool : Val.ofScalar (jsonPath status ["step", "food_min"]) =
    reading ((coolest x.food).map Food.temp)
  rested : Val.ofScalar (jsonPath status ["step", "food_rested"]) =
    reading ((hottest x.food).map fun p => p.temp + p.climb)
  prompt : Val.ofScalar (jsonPath status ["step", "prompt"]) = .bool x.prompt
  lid : Val.ofScalar (jsonPath status ["step", "lid"]) = .bool x.lid

theorem shows_stepFacts (x : Facts) : Shows (stepFacts x) x := by
  cases hot : hottest x.food <;> cases cool : coolest x.food <;>
    constructor <;>
      simp [stepFacts, hot, cool, shown, jsonPath, Json.enter?, Json.member?, List.lookup_cons,
        Val.ofScalar, reading]

section Furthest

variable {measure : Food → ℚ} {food : List Food} {p : Food} {target : ℚ}

theorem furthest_concat (measure : Food → ℚ) (food : List Food) (p : Food) :
    furthest measure (food ++ [p]) = further measure (furthest measure food) p := by
  rw [furthest, List.foldl_append]
  rfl

theorem furthest_ne_none (some_ : food ≠ []) : furthest measure food ≠ none := by
  induction food using List.reverseRecOn with
  | nil => exact absurd rfl some_
  | append_singleton food last _ =>
      rw [furthest_concat]
      cases furthest measure food with
      | none => nofun
      | some b =>
          rw [further]
          split_ifs <;> nofun

theorem furthest_eq_some (found : furthest measure food = some p) :
    p ∈ food ∧ ∀ q ∈ food, measure q ≤ measure p := by
  induction food using List.reverseRecOn generalizing p with
  | nil => cases found
  | append_singleton food last ih =>
      rw [furthest_concat] at found
      cases before : furthest measure food with
      | none =>
          have empty : food = [] := by
            by_contra some_
            exact furthest_ne_none some_ before
          rw [before] at found
          obtain rfl : last = p := Option.some.inj found
          subst empty
          simp
      | some b =>
          obtain ⟨inside, most⟩ := ih before
          rw [before, further] at found
          split_ifs at found with beaten
          · obtain rfl : last = p := Option.some.inj found
            refine ⟨List.mem_append_right _ List.mem_cons_self, ?_⟩
            intro q member
            rcases List.mem_append.mp member with old | new
            · exact (most q old).trans beaten.le
            · rw [List.mem_singleton.mp new]
          · obtain rfl : b = p := Option.some.inj found
            refine ⟨List.mem_append_left _ inside, ?_⟩
            intro q member
            rcases List.mem_append.mp member with old | new
            · exact most q old
            · rw [List.mem_singleton.mp new]
              exact not_lt.mp beaten

/-- A number that is there and at least another. -/
def atLeast (target : ℚ) (x : Option ℚ) : Bool := x.any fun value => decide (target ≤ value)

theorem atLeast_hottest : atLeast target ((hottest food).map Food.temp) = true ↔
    ∃ p ∈ food, target ≤ p.temp := by
  rw [atLeast, hottest]
  constructor
  · intro there
    cases found : furthest Food.temp food with
    | none =>
        rw [found] at there
        cases there
    | some p =>
        rw [found, Option.map_some, Option.any_some, decide_eq_true_eq] at there
        exact ⟨p, (furthest_eq_some found).1, there⟩
  · rintro ⟨q, inside, there⟩
    cases found : furthest Food.temp food with
    | none => exact absurd found (furthest_ne_none (List.ne_nil_of_mem inside))
    | some p =>
        rw [Option.map_some, Option.any_some, decide_eq_true_eq]
        exact there.trans ((furthest_eq_some found).2 q inside)

theorem atLeast_coolest : atLeast target ((coolest food).map Food.temp) = true ↔
    food ≠ [] ∧ ∀ p ∈ food, target ≤ p.temp := by
  rw [atLeast, coolest]
  constructor
  · intro there
    cases found : furthest (fun p => -p.temp) food with
    | none =>
        rw [found] at there
        cases there
    | some p =>
        obtain ⟨inside, least⟩ := furthest_eq_some found
        rw [found, Option.map_some, Option.any_some, decide_eq_true_eq] at there
        refine ⟨List.ne_nil_of_mem inside, fun q member => ?_⟩
        exact there.trans (neg_le_neg_iff.mp (least q member))
  · rintro ⟨some_, all⟩
    cases found : furthest (fun p => -p.temp) food with
    | none => exact absurd found (furthest_ne_none some_)
    | some p =>
        rw [Option.map_some, Option.any_some, decide_eq_true_eq]
        exact all p (furthest_eq_some found).1

end Furthest

/-! ## What the fields say -/

/-- How a step ends when it asks. -/
inductive Wait where
  | none
  | confirm
  | lid
  | lidAnd
  deriving DecidableEq

/-- What the text says the step waits for; anything unrecognised is nothing. -/
def waitOf (st : Json) : Wait :=
  let w := jsonStr st ["wait"] "none"
  if w = "lid_and" then .lidAnd
  else if w = "lid" then .lid
  else if w = "confirm" then .confirm
  else .none

/-- Whether the step waits for the cook when its time or its temperature is there. -/
def pauses (st : Json) : Bool := jsonBool st ["pause"] false || waitOf st ≠ .none

/-- A probe label, and not the mark for every food probe. -/
def Named (label : String) : Prop := label ≠ "" ∧ label ≠ "@food"

instance (label : String) : Decidable (Named label) := inferInstanceAs (Decidable (_ ∧ _))

/-- The food is at its temperature: the probe that is named, or else all food probes or any
of them, where the meat ends up if the step allows for carry-over. -/
def FoodThere (st : Json) (food : List Food) : Prop :=
  let target := jsonNum st ["probe_temp"] 0
  let label := jsonStr st ["probe"] ""
  let carry := jsonBool st ["carryover"] false
  if Named label then
    ∃ p ∈ food, p.label = label ∧ target ≤ p.temp + if carry then p.climb else 0
  else if jsonStr st ["probe_match"] "any" = "all" then
    food ≠ [] ∧ ∀ p ∈ food, target ≤ p.temp
  else if carry then ∃ p, hottest food = some p ∧ target ≤ p.temp + p.climb
  else ∃ p ∈ food, target ≤ p.temp

/-- The cook has answered, by the prompt, or by the lid as far as it counts. -/
def Answered (st : Json) (x : Facts) : Prop :=
  match waitOf st with
  | .lid => x.prompt = true ∨ x.lid = true
  | .lidAnd => x.prompt = true ∧ x.lid = true
  | _ => x.prompt = true

/-- A step has a time, and one has a temperature. -/
def Timed (st : Json) : Prop := 0 < jsonNum st ["timer_min"] 0

def Fed (st : Json) : Prop := 0 < jsonNum st ["probe_temp"] 0

instance (st : Json) : Decidable (Timed st) := inferInstanceAs (Decidable (_ < _))

instance (st : Json) : Decidable (Fed st) := inferInstanceAs (Decidable (_ < _))

/-- The old rule: the time or the food is there, and where the step asks it was answered. A
half the step does not have is not asked for, and one of them it has. -/
structure OldRule (st : Json) (x : Facts) : Prop where
  ends : Timed st ∨ Fed st ∨ pauses st = true
  reached : Timed st ∨ Fed st →
    Timed st ∧ jsonNum st ["timer_min"] 0 * 60 ≤ x.elapsed ∨ Fed st ∧ FoodThere st x.food
  answered : pauses st = true → Answered st x

/-! ## What the tree says -/

/-- A step's ending is evaluated on its facts and without a deadband. -/
def asked (status : Json) (now : ℚ) : EvalCtx := ⟨status, ⟨"step", "", none⟩, 0, now⟩

/-- A node that says the same whatever clocks it is given, and leaves them. -/
def Steady (cx : EvalCtx) (node : Json) (truth : Bool) : Prop :=
  ∀ path clocks, evalPath cx node path clocks = (truth, clocks)

section Tree

variable {status : Json} {now : ℚ} {x : Facts} {cx : EvalCtx} {op : String}

theorem heldLongEnough_untimed {node : Json} {path : UInt32} {truth : Bool} {clocks : Clocks}
    (untimed : jsonNum node ["for_s"] 0 = 0) :
    heldLongEnough now path node truth clocks = (truth, clocks) := by
  cases clocks with
  | none => rfl
  | some timers => rw [heldLongEnough, untimed, if_pos (le_refl _)]

theorem steady_leaf {node : Json} (plain : kidsOf node = none)
    (untimed : jsonNum node ["for_s"] 0 = 0) : Steady cx node (evalComparison cx node) := by
  intro path clocks
  rw [evalPath_leaf cx plain, evalLeaf, heldLongEnough_untimed untimed]

theorem traitOf_step {trait : String}
    (known : trait ∈ ["elapsed", "food_max", "food_min", "food_rested", "prompt", "lid"]) :
    traitOf status ⟨"step", "", none⟩ "this" trait =
      Val.ofScalar (jsonPath status ["step", trait]) := by
  simp only [List.mem_cons, List.not_mem_nil, or_false] at known
  rcases known with rfl | rfl | rfl | rfl | rfl | rfl <;> rfl

theorem steady_reaches {trait : String} {value : ℚ} {read : Option ℚ}
    (known : trait ∈ ["elapsed", "food_max", "food_min", "food_rested", "prompt", "lid"])
    (reads : Val.ofScalar (jsonPath status ["step", trait]) = reading read) :
    Steady (asked status now) (reaches trait value) (atLeast value read) := by
  have comparison : evalComparison (asked status now) (reaches trait value) =
      atLeast value read := by
    have here : traitOf status ⟨"step", "", none⟩ "this" trait = reading read :=
      (traitOf_step known).trans reads
    have compared : evalComparison (asked status now) (reaches trait value) =
        compare (traitOf status ⟨"step", "", none⟩ "this" trait) ">=" (.num value) .none 0 := rfl
    rw [compared, here]
    cases read with
    | none => rfl
    | some r =>
        have number : compare (.num r) ">=" (.num value) .none 0 = decide (value - 0 ≤ r) := rfl
        rw [reading, number, sub_zero]
        rfl
  rw [← comparison]
  exact steady_leaf rfl rfl

theorem steady_signalled {trait : String} {given : Bool}
    (known : trait ∈ ["elapsed", "food_max", "food_min", "food_rested", "prompt", "lid"])
    (reads : Val.ofScalar (jsonPath status ["step", trait]) = .bool given) :
    Steady (asked status now) (signalled trait) given := by
  have comparison : evalComparison (asked status now) (signalled trait) = given := by
    have here : traitOf status ⟨"step", "", none⟩ "this" trait = .bool given :=
      (traitOf_step known).trans reads
    have compared : evalComparison (asked status now) (signalled trait) =
        compare (traitOf status ⟨"step", "", none⟩ "this" trait) "is_on" .none .none 0 := rfl
    rw [compared, here]
    rfl
  have steady : Steady (asked status now) (signalled trait)
      (evalComparison (asked status now) (signalled trait)) := steady_leaf rfl rfl
  rwa [comparison] at steady

/-- Terms under an operator. -/
def joined (op : String) (truths : List Bool) : Bool :=
  if op = "any" then truths.any id else truths.all id

theorem evalKids_steady {terms : List Json} {truths : List Bool}
    (each : List.Forall₂ (Steady cx) terms truths) (path : UInt32) (i : ℕ) (clocks : Clocks) :
    evalKids path i (terms.map (evalPath cx)) clocks = (truths, clocks) := by
  induction each generalizing i with
  | nil => rfl
  | cons first _ ih =>
      rw [List.map_cons, evalKids, first]
      dsimp only
      rw [ih]

theorem steady_group {terms : List Json} {truths : List Bool}
    (each : List.Forall₂ (Steady cx) terms truths) (isOp : op = "any" ∨ op = "all") :
    Steady cx (.obj [("op", .str op), ("conditions", .arr terms)])
      (!truths.isEmpty && joined op truths) := by
  intro path clocks
  have inside : kidsOf (.obj [("op", .str op), ("conditions", .arr terms)]) = some terms := rfl
  have untimed : jsonNum (.obj [("op", .str op), ("conditions", .arr terms)]) ["for_s"] 0 = 0 := rfl
  have isGroup : jsonStr (.obj [("op", .str op), ("conditions", .arr terms)]) ["op"] "all" = op :=
    rfl
  rw [evalPath_group cx inside, evalTimedGroup, heldLongEnough_untimed untimed, evalGroup]
  cases each with
  | nil => rfl
  | cons first rest =>
      rw [isGroup, evalKids_steady (List.Forall₂.cons first rest)]
      rcases isOp with rfl | rfl <;> rfl

theorem steady_terms {terms : List Json} {truths : List Bool}
    (each : List.Forall₂ (Steady cx) terms truths) (isOp : op = "any" ∨ op = "all") :
    List.Forall₂ (Steady cx) (group op terms)
      (if truths.isEmpty then [] else [joined op truths]) := by
  cases each with
  | nil => exact .nil
  | cons first rest =>
      cases rest with
      | nil =>
          have own (truth : Bool) : joined op [truth] = truth := by
            rcases isOp with rfl | rfl <;> simp [joined]
          rw [List.isEmpty_cons, if_neg Bool.false_ne_true, own]
          exact .cons first .nil
      | cons second more =>
          rw [List.isEmpty_cons, if_neg Bool.false_ne_true]
          exact .cons (steady_group (.cons first (.cons second more)) isOp) .nil

/-- What the step asks for, as the tree has it. -/
def asks (st : Json) : Prop :=
  jsonStr st ["wait"] (if jsonBool st ["pause"] false then "confirm" else "none") ≠ "none"

instance (st : Json) : Decidable (asks st) := inferInstanceAs (Decidable (_ ≠ _))

/-- The figure of the food the tree asks about. -/
def figure (st : Json) (food : List Food) : Option ℚ :=
  if jsonBool st ["carryover"] false && !(jsonStr st ["probe_match"] "any" == "all") then
    (hottest food).map fun p => p.temp + p.climb
  else if jsonStr st ["probe_match"] "any" == "all" then (coolest food).map Food.temp
  else (hottest food).map Food.temp

/-- The terms of the first half, and those of the second. -/
def reachedTruths (st : Json) (x : Facts) : List Bool :=
  (if Timed st then [atLeast (jsonNum st ["timer_min"] 0 * 60) (some x.elapsed)] else []) ++
    if Fed st then [atLeast (jsonNum st ["probe_temp"] 0) (figure st x.food)] else []

def askedTruths (st : Json) (x : Facts) : List Bool :=
  if asks st then
    x.prompt :: if waitOf st = .lid ∨ waitOf st = .lidAnd then [x.lid] else []
  else []

theorem wait_lid (st : Json) {dflt : String} (plain : dflt = "confirm" ∨ dflt = "none") :
    (jsonStr st ["wait"] dflt = "lid" ↔ waitOf st = .lid) ∧
      (jsonStr st ["wait"] dflt = "lid_and" ↔ waitOf st = .lidAnd) := by
  rw [waitOf, jsonStr, jsonStr]
  split
  · rename_i w _
    by_cases isAnd : w = "lid_and"
    · subst isAnd
      simp
    · by_cases isLid : w = "lid"
      · subst isLid
        simp
      · by_cases isConfirm : w = "confirm" <;> simp [isAnd, isLid, isConfirm]
  · rcases plain with rfl | rfl <;> simp

/-- The trait of the food the tree asks about. -/
def foodTrait (st : Json) : String :=
  if jsonBool st ["carryover"] false && !(jsonStr st ["probe_match"] "any" == "all") then
    "food_rested"
  else if jsonStr st ["probe_match"] "any" == "all" then "food_min"
  else "food_max"

def reachedTerms (st : Json) : List Json :=
  (if Timed st then [reaches "elapsed" (jsonNum st ["timer_min"] 0 * 60)] else []) ++
    if Fed st then [reaches (foodTrait st) (jsonNum st ["probe_temp"] 0)] else []

def askedTerms (st : Json) : List Json :=
  let w := jsonStr st ["wait"] (if jsonBool st ["pause"] false then "confirm" else "none")
  if asks st then
    signalled "prompt" :: if w = "lid" ∨ w = "lid_and" then [signalled "lid"] else []
  else []

theorem endsFromOldFields_eq (st : Json) : endsFromOldFields st =
    .obj [("op", .str "all"), ("conditions", .arr (group "any" (reachedTerms st) ++
      group (if jsonStr st ["wait"] (if jsonBool st ["pause"] false then "confirm" else "none") =
        "lid" then "any" else "all") (askedTerms st)))] := rfl

theorem steady_reached (st : Json) (shows : Shows status x) :
    List.Forall₂ (Steady (asked status now)) (reachedTerms st) (reachedTruths st x) := by
  rw [reachedTerms, reachedTruths]
  apply List.rel_append
  · split_ifs
    · exact .cons (steady_reaches (by decide) shows.elapsed) .nil
    · exact .nil
  · split_ifs
    · apply List.Forall₂.cons _ .nil
      rw [figure, foodTrait]
      split_ifs
      · exact steady_reaches (by decide) shows.rested
      · exact steady_reaches (by decide) shows.cool
      · exact steady_reaches (by decide) shows.hot
    · exact .nil

theorem pauseWord (st : Json) : (if jsonBool st ["pause"] false then "confirm" else "none") =
    "confirm" ∨ (if jsonBool st ["pause"] false then "confirm" else "none") = "none" := by
  split_ifs
  · exact Or.inl rfl
  · exact Or.inr rfl

theorem steady_asked (st : Json) (shows : Shows status x) :
    List.Forall₂ (Steady (asked status now)) (askedTerms st) (askedTruths st x) := by
  obtain ⟨isLid, isAnd⟩ := wait_lid st (pauseWord st)
  rw [askedTerms, askedTruths]
  simp only [isLid, isAnd]
  split_ifs
  · exact .cons (steady_signalled (by decide) shows.prompt)
      (.cons (steady_signalled (by decide) shows.lid) .nil)
  · exact .cons (steady_signalled (by decide) shows.prompt) .nil
  · exact .nil

/-- The terms of a half under its operator; a half without terms has no say. -/
def half (op : String) (truths : List Bool) : List Bool :=
  if truths.isEmpty then [] else [joined op truths]

theorem steady_ends (st : Json) (shows : Shows status x) :
    Steady (asked status now) (endsFromOldFields st)
      (!(half "any" (reachedTruths st x) ++
          half (if waitOf st = .lid then "any" else "all") (askedTruths st x)).isEmpty &&
        (half "any" (reachedTruths st x) ++
          half (if waitOf st = .lid then "any" else "all") (askedTruths st x)).all id) := by
  obtain ⟨isLid, -⟩ := wait_lid st (pauseWord st)
  have isOp : (if waitOf st = .lid then "any" else "all") = "any" ∨
      (if waitOf st = .lid then "any" else "all") = "all" := by
    split_ifs
    · exact Or.inl rfl
    · exact Or.inr rfl
  have first : List.Forall₂ (Steady (asked status now)) _ _ :=
    steady_terms (steady_reached st shows) (Or.inl rfl)
  have parts := List.rel_append first (steady_terms (steady_asked st shows) isOp)
  rw [endsFromOldFields_eq]
  simp only [isLid]
  exact steady_group parts (Or.inr rfl)

end Tree

/-! ## The tree and the rule -/

section Rule

variable {st : Json} {x : Facts}

theorem half_any : (half "any" (reachedTruths st x)).isEmpty = !decide (Timed st ∨ Fed st) := by
  rw [half, reachedTruths]
  by_cases timed : Timed st <;> by_cases fed : Fed st <;> simp [timed, fed]

theorem half_asked (op : String) : (half op (askedTruths st x)).isEmpty = !decide (asks st) := by
  rw [half, askedTruths]
  by_cases isAsked : asks st <;> simp [isAsked]

theorem half_reached : (half "any" (reachedTruths st x)).all id = true ↔ (Timed st ∨ Fed st →
    Timed st ∧ jsonNum st ["timer_min"] 0 * 60 ≤ x.elapsed ∨
      Fed st ∧ atLeast (jsonNum st ["probe_temp"] 0) (figure st x.food) = true) := by
  rw [half, reachedTruths]
  by_cases timed : Timed st <;> by_cases fed : Fed st <;> simp [timed, fed, joined, atLeast]

theorem half_answered :
    (half (if waitOf st = .lid then "any" else "all") (askedTruths st x)).all id = true ↔
      (asks st → Answered st x) := by
  rw [half, askedTruths, Answered]
  by_cases isAsked : asks st
  · cases wait : waitOf st <;> simp [isAsked, joined]
  · simp [isAsked]

theorem figure_iff (together : ¬Named (jsonStr st ["probe"] "")) :
    atLeast (jsonNum st ["probe_temp"] 0) (figure st x.food) = true ↔ FoodThere st x.food := by
  rw [figure, FoodThere, if_neg together]
  by_cases all : jsonStr st ["probe_match"] "any" = "all"
  · simp only [all, beq_self_eq_true, Bool.not_true, Bool.and_false, Bool.false_eq_true, if_false,
      if_true]
    exact atLeast_coolest
  · have notAll : (jsonStr st ["probe_match"] "any" == "all") = false := beq_false_of_ne all
    simp only [notAll, all, Bool.not_false, Bool.and_true, if_false, Bool.false_eq_true]
    split_ifs
    · rw [atLeast]
      cases hottest x.food <;> simp
    · exact atLeast_hottest

/-- When the tree is true: there is a half, the first one holds, and so does the second. -/
theorem ends_iff (st : Json) {status : Json} (shows : Shows status x) (now : ℚ) (clocks : Clocks) :
    (evalNodeAt (asked status now) (endsFromOldFields st) clocks).1 = true ↔
      (Timed st ∨ Fed st ∨ asks st) ∧
        (Timed st ∨ Fed st → Timed st ∧ jsonNum st ["timer_min"] 0 * 60 ≤ x.elapsed ∨
          Fed st ∧ atLeast (jsonNum st ["probe_temp"] 0) (figure st x.food) = true) ∧
        (asks st → Answered st x) := by
  have empty (first second : List Bool) :
      (first ++ second).isEmpty = (first.isEmpty && second.isEmpty) := by cases first <;> rfl
  rw [evalNodeAt, steady_ends st shows, Bool.and_eq_true, List.all_append, Bool.and_eq_true,
    half_reached, half_answered, empty, half_any, half_asked, ← or_assoc]
  apply and_congr_left'
  by_cases first : Timed st ∨ Fed st <;> by_cases second : asks st <;> simp [first, second]

/-- The food is read from all food probes, and the step asks where its own reading says it
waits for the cook. -/
structure Plain (st : Json) : Prop where
  together : Fed st → ¬Named (jsonStr st ["probe"] "")
  waits : asks st ↔ pauses st = true

/-- The facts of a step that has run its time, or has just begun, with one food probe at the
temperature that is asked for, and an answer or none. -/
def bench (st : Json) (label : String) (ran answer : Bool) : Facts where
  elapsed := if ran then jsonNum st ["timer_min"] 0 * 60 else 0
  food := [⟨label, jsonNum st ["probe_temp"] 0, 0⟩]
  prompt := answer
  lid := answer

theorem answered_bench (label : String) (ran : Bool) (answer : Bool) :
    Answered st (bench st label ran answer) ↔ answer = true := by
  rw [Answered]
  cases waitOf st <;> simp [bench]

theorem figure_bench (label : String) (ran answer : Bool) :
    atLeast (jsonNum st ["probe_temp"] 0) (figure st (bench st label ran answer).food) =
      true := by
  have hot : hottest (bench st label ran answer).food =
      some ⟨label, jsonNum st ["probe_temp"] 0, 0⟩ := rfl
  have cool : coolest (bench st label ran answer).food =
      some ⟨label, jsonNum st ["probe_temp"] 0, 0⟩ := rfl
  rw [figure, hot, cool]
  split_ifs <;> simp [atLeast]

theorem reached_bench (label : String) (answer : Bool) (some_ : Timed st ∨ Fed st) :
    Timed st ∧ jsonNum st ["timer_min"] 0 * 60 ≤ (bench st label true answer).elapsed ∨
      Fed st ∧ atLeast (jsonNum st ["probe_temp"] 0)
        (figure st (bench st label true answer).food) = true :=
  some_.imp (fun timed => ⟨timed, le_refl _⟩) fun fed => ⟨fed, figure_bench _ _ _⟩

/-- The tree of an older step is true exactly when the old rule was, whatever the facts, for
the steps that are plain and for no others. -/
theorem old_step_keeps_meaning_iff (st : Json) :
    (∀ (x : Facts) (status : Json) (now : ℚ) (clocks : Clocks), Shows status x →
      ((evalNodeAt (asked status now) (endsFromOldFields st) clocks).1 = true ↔ OldRule st x)) ↔
      Plain st := by
  constructor
  · intro same
    have tree (x : Facts) := (ends_iff st (shows_stepFacts x) 0 none).symm.trans
      (same x (stepFacts x) 0 none (shows_stepFacts x))
    have together : Fed st → ¬Named (jsonStr st ["probe"] "") := by
      intro fed named
      -- another probe is there, and the one that is named is not
      let x := bench st (jsonStr st ["probe"] "" ++ "'") false true
      have holds := (tree x).mp ⟨Or.inr (Or.inl fed),
        fun _ => Or.inr ⟨fed, figure_bench _ _ _⟩,
        fun _ => (answered_bench _ _ _).mpr rfl⟩
      rcases holds.reached (Or.inr fed) with ⟨timed, ran⟩ | ⟨-, there⟩
      · exact absurd ran (not_le.mpr (mul_pos timed (by norm_num)))
      · rw [FoodThere, if_pos named] at there
        obtain ⟨p, inside, label, -⟩ := there
        rw [List.mem_singleton.mp inside] at label
        have length := congrArg String.length label
        simp at length
    refine ⟨together, ?_⟩
    · constructor
      · intro isAsked
        by_contra silent
        by_cases some_ : Timed st ∨ Fed st
        · have rule : OldRule st (bench st "" true false) := by
            refine ⟨or_assoc.mp (Or.inl some_), fun _ => ?_, fun waits => absurd waits silent⟩
            exact (reached_bench "" false some_).imp id fun ⟨fed, there⟩ =>
              ⟨fed, (figure_iff (together fed)).mp there⟩
          have answer := ((tree _).mpr rule).2.2 isAsked
          rw [answered_bench] at answer
          cases answer
        · have rule := (tree (bench st "" true true)).mp
            ⟨Or.inr (Or.inr isAsked), fun half => absurd half some_,
              fun _ => (answered_bench _ _ _).mpr rfl⟩
          rcases or_assoc.mpr rule.ends with half | waits
          · exact some_ half
          · exact silent waits
      · intro waits
        by_contra silent
        by_cases some_ : Timed st ∨ Fed st
        · have rule := (tree (bench st "" true false)).mp
            ⟨or_assoc.mp (Or.inl some_), fun _ => reached_bench "" false some_,
              fun isAsked => absurd isAsked silent⟩
          have answer := rule.answered waits
          rw [answered_bench] at answer
          cases answer
        · have rule : OldRule st (bench st "" true true) :=
            ⟨Or.inr (Or.inr waits), fun half => absurd half some_,
              fun _ => (answered_bench _ _ _).mpr rfl⟩
          rcases or_assoc.mpr ((tree _).mpr rule).1 with half | isAsked
          · exact some_ half
          · exact silent isAsked
  · rintro ⟨together, waits⟩ x status now clocks shows
    rw [ends_iff st shows, waits]
    have food (fed : Fed st) := figure_iff (x := x) (together fed)
    constructor
    · rintro ⟨ends, reached, answered⟩
      refine ⟨ends, fun some_ => ?_, answered⟩
      exact (reached some_).imp id fun ⟨fed, there⟩ => ⟨fed, (food fed).mp there⟩
    · rintro ⟨ends, reached, answered⟩
      refine ⟨ends, fun some_ => ?_, answered⟩
      exact (reached some_).imp id fun ⟨fed, there⟩ => ⟨fed, (food fed).mpr there⟩

end Rule

/-- A step of an hour and a half that waits for something nobody recognises. -/
def oddStep : Json :=
  .obj [("mode", .str "Hold"), ("timer_min", .num 90), ("wait", .str "whenever")]

/-- What is not recognised waits for nothing, and its tree waits for the prompt. -/
theorem odd_wait_asks : ¬∀ (st : Json) (x : Facts) (status : Json) (now : ℚ) (clocks : Clocks),
    Shows status x →
      ((evalNodeAt (asked status now) (endsFromOldFields st) clocks).1 = true ↔
        OldRule st x) := by
  intro same
  have timed : Timed oddStep := by decide
  have silent : pauses oddStep = false := by decide
  have rule : OldRule oddStep ⟨5400, [], false, false⟩ := by
    refine ⟨Or.inl timed, fun _ => Or.inl ⟨timed, by decide +kernel⟩, fun waits => ?_⟩
    rw [silent] at waits
    cases waits
  have tree := (same oddStep ⟨5400, [], false, false⟩ _ 0 none (shows_stepFacts _)).mpr rule
  have waiting : (evalNodeAt (asked (stepFacts ⟨5400, [], false, false⟩) 0)
      (endsFromOldFields oddStep) none).1 = false := by decide +kernel
  rw [waiting] at tree
  cases tree

end PiFire.OldFields
