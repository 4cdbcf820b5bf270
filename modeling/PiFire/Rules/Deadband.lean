import PiFire.Rules.Watch
import PiFire.Rules.Tree
import Mathlib.Order.BoundedOrder.Basic

/-!
# A deadband only prolongs

A deadband widens the threshold of a comparison, so it makes a comparison true more often.
A negated group turns that round: what is widened inside it ends a report. This file
compares the evaluations of a tree with and without a deadband, over any run, where no
reading lies in the band of a comparison that is denied.
-/

namespace PiFire.Rules

open Transition

/-! ## Comparisons -/

/-- Whether a deadband makes a comparison of numbers true: the reading is past the
threshold, in the band beside it. -/
def inBandNum (x : ℚ) (op : String) (y : ℚ) (b2 : Val) (db : ℚ) : Bool :=
  let given := match b2 with | .none => false | _ => true
  if op = ">" then y - db < x && x ≤ y
  else if op = ">=" then y - db ≤ x && x < y
  else if op = "<" then y ≤ x && x < y + db
  else if op = "<=" then y < x && x ≤ y + db
  else if op = "==" ∨ op = "is" then 1 / 10 ^ 9 ≤ |x - y| && |x - y| < db
  else if op = "between" then
    given && y - db ≤ x && x ≤ b2.asNum + db && (x < y || b2.asNum < x)
  else if op = "within" then given && b2.asNum < |x - y| && |x - y| ≤ b2.asNum + db
  else false

/-- Whether a deadband makes an equality of numbers false: it is smaller than the
tolerance. -/
def pinchedNum (x : ℚ) (op : String) (y : ℚ) (db : ℚ) : Bool :=
  (op = "==" || op = "is") && 0 < db && db ≤ |x - y| && |x - y| < 1 / 10 ^ 9

theorem compareNum_deadband {db : ℚ} (nonneg : 0 ≤ db) (x : ℚ) (op : String) (y : ℚ) (b2 : Val) :
    compareNum x op y b2 db =
      ((compareNum x op y b2 0 || inBandNum x op y b2 db) && !pinchedNum x op y db) := by
  rw [Bool.eq_iff_iff]
  simp only [compareNum, inBandNum, pinchedNum]
  by_cases above : op = ">"
  · subst above
    simp
    grind
  by_cases atLeast : op = ">="
  · subst atLeast
    simp
    grind
  by_cases below : op = "<"
  · subst below
    simp
    grind
  by_cases atMost : op = "<="
  · subst atMost
    simp
    grind
  by_cases equal : op = "==" ∨ op = "is"
  · rcases equal with rfl | rfl <;> simp <;> grind
  by_cases unequal : op = "!=" ∨ op = "is_not"
  · rcases unequal with rfl | rfl <;> simp
  by_cases between : op = "between"
  · subst between
    simp
    grind
  by_cases within_ : op = "within"
  · subst within_
    simp
    grind
  simp [above, atLeast, below, atMost, equal, unequal, between, within_]

theorem compareNum_of_inBand {x y db : ℚ} {op : String} {b2 : Val}
    (inside : inBandNum x op y b2 db = true) : compareNum x op y b2 0 = false := by
  simp only [inBandNum] at inside
  split_ifs at inside with above atLeast below atMost equal between within_
  · subst above
    simpa [compareNum] using (by simpa using inside : _ ∧ x ≤ y).2
  · subst atLeast
    simpa [compareNum] using (by simpa using inside : _ ∧ x < y).2
  · subst below
    simpa [compareNum] using (by simpa using inside : y ≤ x ∧ _).1
  · subst atMost
    simpa [compareNum] using (by simpa using inside : y < x ∧ _).1
  · have far : 1 / 10 ^ 9 ≤ |x - y| := by
      simp only [Bool.and_eq_true, decide_eq_true_eq] at inside
      exact inside.1
    rcases equal with rfl | rfl <;> simpa [compareNum] using far
  · subst between
    simp only [Bool.and_eq_true, Bool.or_eq_true, decide_eq_true_eq] at inside
    rcases inside.2 with low | high
    · simp [compareNum, low]
    · simp [compareNum, high]
  · subst within_
    simp only [Bool.and_eq_true, decide_eq_true_eq] at inside
    simp [compareNum, inside.1.2]

/-- What a comparison compares when both sides are numbers. -/
def onNumbers (f : ℚ → String → ℚ → Val → Bool) (cx : EvalCtx) (node : Json) : Bool :=
  let o := some node
  match jget o "trait" with
  | some (.str trait) =>
      match traitOf cx.status cx.inst (strAt o ["entity"] "this") trait,
          resolveOperand cx.status cx.inst (jget o "value") with
      | .num x, .num y =>
          f x (strAt o ["op"] "==") y (resolveOperand cx.status cx.inst (jget o "value2"))
      | _, _ => false
  | _ => false

/-- The operators that compare no two numbers. -/
def asideOps : List String := ["is_one_of", "is_none_of", "unavailable", "available"]

theorem evalComparison_numbers {cx : EvalCtx} {node : Json} {f : ℚ → String → ℚ → Val → Bool}
    (aside : ∀ x y b2, ∀ op ∈ asideOps, f x op y b2 = false) (on : onNumbers f cx node = true) :
    ∃ x op y b2, f x op y b2 = true ∧
      ∀ db, evalComparison { cx with db := db } node = compareNum x op y b2 db := by
  simp only [onNumbers] at on
  cases named : jget (some node) "trait" with
  | none =>
      rw [named] at on
      cases on
  | some value =>
      rw [named] at on
      cases value with
      | str trait =>
          simp only at on
          cases left : traitOf cx.status cx.inst (strAt (some node) ["entity"] "this") trait <;>
            cases right : resolveOperand cx.status cx.inst (jget (some node) "value") <;>
              simp only [left, right, Bool.false_eq_true] at on
          rename_i x y
          refine ⟨x, _, y, _, on, fun db => ?_⟩
          have apart : strAt (some node) ["op"] "==" ∉ asideOps := by
            intro among
            rw [aside _ _ _ _ among] at on
            cases on
          simp only [asideOps, List.mem_cons, List.not_mem_nil, or_false, not_or] at apart
          simp only [evalComparison, named, left, right, apart.1, apart.2.1, or_self, if_false]
          unfold compare
          simp only [apart.2.2.1, apart.2.2.2, if_false]
      | _ => cases on

/-- Whether only the deadband makes a comparison true. -/
def inBand (cx : EvalCtx) : Json → Bool :=
  onNumbers (fun x op y b2 => inBandNum x op y b2 cx.db) cx

/-- Whether the deadband makes a comparison false. -/
def pinched (cx : EvalCtx) : Json → Bool :=
  onNumbers (fun x op y _ => pinchedNum x op y cx.db) cx

/-- The same evaluation without a deadband. -/
def EvalCtx.plain (cx : EvalCtx) : EvalCtx := { cx with db := 0 }

theorem no_band {op : String} (aside : op ∈ asideOps) (x y : ℚ) (b2 : Val) (db : ℚ) :
    inBandNum x op y b2 db = false := by
  simp only [asideOps, List.mem_cons, List.not_mem_nil, or_false] at aside
  rcases aside with rfl | rfl | rfl | rfl <;> simp [inBandNum]

theorem not_pinched {op : String} (aside : op ∈ asideOps) (x y db : ℚ) :
    pinchedNum x op y db = false := by
  simp only [asideOps, List.mem_cons, List.not_mem_nil, or_false] at aside
  rcases aside with rfl | rfl | rfl | rfl <;> simp [pinchedNum]

theorem evalComparison_deadband {cx : EvalCtx} (nonneg : 0 ≤ cx.db) (node : Json) :
    evalComparison cx node =
      ((evalComparison cx.plain node || inBand cx node) && !pinched cx node) := by
  simp only [evalComparison, inBand, pinched, onNumbers, EvalCtx.plain]
  cases jget (some node) "trait" with
  | none => simp
  | some named =>
      cases named with
      | str trait =>
          simp only
          generalize traitOf cx.status cx.inst (strAt (some node) ["entity"] "this") trait = a
          generalize strAt (some node) ["op"] "==" = op
          generalize resolveOperand cx.status cx.inst (jget (some node) "value") = b
          generalize resolveOperand cx.status cx.inst (jget (some node) "value2") = b2
          by_cases among : op = "is_one_of" ∨ op = "is_none_of"
          · have aside : op ∈ asideOps := by
              rcases among with rfl | rfl <;> decide
            rw [if_pos among, if_pos among]
            cases a <;> cases b <;> simp only [no_band aside, not_pinched aside] <;> simp
          · rw [if_neg among, if_neg among]
            by_cases presence : op = "unavailable" ∨ op = "available"
            · have aside : op ∈ asideOps := by
                rcases presence with rfl | rfl <;> decide
              have still : compare a op b b2 cx.db = compare a op b b2 0 := by
                unfold compare
                rcases presence with rfl | rfl <;> simp
              rw [still]
              cases a <;> cases b <;> simp only [no_band aside, not_pinched aside] <;> simp
            · rw [not_or] at presence
              unfold compare
              simp only [if_neg presence.1, if_neg presence.2]
              cases a <;> cases b <;> simp [compareNum_deadband nonneg]
      | _ => simp

/-! ## Turning round -/

/-- A relation, turned round inside an odd number of negated groups. -/
def Turned {α : Type*} (denied : Bool) (r : α → α → Prop) (plain wide : α) : Prop :=
  if denied then r wide plain else r plain wide

theorem Turned.refl {α : Type*} {r : α → α → Prop} (reflexive : ∀ a, r a a) (denied : Bool)
    (a : α) : Turned denied r a a := by
  cases denied <;> exact reflexive a

/-- Whether no comparison of a tree is turned the wrong way: one that is denied has no
reading in its band, and another is not pinched. -/
def upright (cx : EvalCtx) : Json → Bool → Bool :=
  foldTree (fun node denied => if denied then !inBand cx node else !pinched cx node)
    fun node kids denied => kids.all fun kid => kid (denied ^^ denies node)

theorem upright_leaf {cx : EvalCtx} {node : Json} (plain : kidsOf node = none) (denied : Bool) :
    upright cx node denied = if denied then !inBand cx node else !pinched cx node := by
  rw [upright, foldTree_leaf _ _ plain]

theorem upright_group {cx : EvalCtx} {node : Json} {items : List Json}
    (inside : kidsOf node = some items) (denied : Bool) :
    upright cx node denied = items.all fun item => upright cx item (denied ^^ denies node) := by
  rw [upright, foldTree_group _ _ inside, List.all_map]
  rfl

theorem plain_of_pinched {cx : EvalCtx} {node : Json} (tight : pinched cx node = true) :
    evalComparison cx.plain node = true := by
  obtain ⟨x, op, y, b2, inside, said⟩ :=
    evalComparison_numbers (fun x y b2 op among => not_pinched among x y _) tight
  rw [EvalCtx.plain, said]
  simp only [pinchedNum, Bool.and_eq_true, Bool.or_eq_true, decide_eq_true_eq] at inside
  obtain ⟨⟨⟨equal, -⟩, -⟩, near⟩ := inside
  rcases equal with rfl | rfl <;> simpa [compareNum] using near

theorem plain_of_inBand {cx : EvalCtx} {node : Json} (band : inBand cx node = true) :
    evalComparison cx.plain node = false := by
  obtain ⟨x, op, y, b2, inside, said⟩ :=
    evalComparison_numbers (fun x y b2 op among => no_band among x y b2 _) band
  rw [EvalCtx.plain, said]
  exact compareNum_of_inBand inside

theorem evalComparison_turned {cx : EvalCtx} (nonneg : 0 ≤ cx.db) {node : Json} {denied : Bool} :
    Turned denied (· ≤ ·) (evalComparison cx.plain node) (evalComparison cx node) ↔
      (if denied then !inBand cx node else !pinched cx node) = true := by
  have said := evalComparison_deadband nonneg node
  have band : inBand cx node = true → evalComparison cx.plain node = false := plain_of_inBand
  have tight : pinched cx node = true → evalComparison cx.plain node = true := plain_of_pinched
  rw [said, Turned]
  revert band tight
  generalize evalComparison cx.plain node = plain
  generalize inBand cx node = inside
  generalize pinched cx node = narrow
  revert denied plain inside narrow
  decide

/-! ## Groups -/

theorem turned_not {plain wide : Bool} {denied : Bool}
    (turned : Turned (!denied) (· ≤ ·) plain wide) : Turned denied (· ≤ ·) (!plain) (!wide) := by
  cases denied <;> exact compl_le_compl turned

theorem turned_all {denied : Bool} {plain wide : List Bool}
    (kids : List.Forall₂ (Turned denied (· ≤ ·)) plain wide) :
    Turned denied (· ≤ ·) (plain.all id) (wide.all id) := by
  induction kids with
  | nil => exact .refl le_refl denied true
  | cons first _ ih =>
      rw [List.all_cons, List.all_cons]
      revert first ih
      cases denied <;> exact fun first rest => inf_le_inf first rest

theorem turned_any {denied : Bool} {plain wide : List Bool}
    (kids : List.Forall₂ (Turned denied (· ≤ ·)) plain wide) :
    Turned denied (· ≤ ·) (plain.any id) (wide.any id) := by
  induction kids with
  | nil => exact .refl le_refl denied false
  | cons first _ ih =>
      rw [List.any_cons, List.any_cons]
      revert first ih
      cases denied <;> exact fun first rest => sup_le_sup first rest

/-! ## Clocks -/

/-- The first clock runs no longer than the second; zero is a clock that does not run. -/
def RunsLess (s t : ℚ) : Prop := s = 0 ∨ t ≠ 0 ∧ t ≤ s

theorem RunsLess.refl (s : ℚ) : RunsLess s s := by
  by_cases zero : s = 0
  · exact Or.inl zero
  · exact Or.inr ⟨zero, le_rfl⟩

theorem RunsLess.set {now s t : ℚ} {plain wide : Bool} (less : RunsLess s t) (past : t ≤ now)
    (implies : plain ≤ wide) : RunsLess (setClock now plain s) (setClock now wide t) := by
  cases plain with
  | false => exact Or.inl rfl
  | true =>
      have wide_true : wide = true := top_le_iff.mp implies
      subst wide_true
      simp only [setClock, Bool.not_true, Bool.false_eq_true, if_false]
      rcases less with rfl | ⟨running, earlier⟩
      · rw [if_pos rfl]
        split_ifs with stopped
        · exact .refl now
        · exact Or.inr ⟨stopped, past⟩
      · rw [if_neg running]
        split_ifs with stopped
        · exact Or.inr ⟨running, past⟩
        · exact Or.inr ⟨running, earlier⟩

theorem held_of_runsLess {now need s t : ℚ} {plain wide : Bool} (timed : 0 < need)
    (less : RunsLess s t) (past : t ≤ now) (implies : plain ≤ wide) :
    (plain && decide (need ≤ now - setClock now plain s)) ≤
      (wide && decide (need ≤ now - setClock now wide t)) := by
  cases plain with
  | false => exact bot_le
  | true =>
      have wide_true : wide = true := top_le_iff.mp implies
      subst wide_true
      intro held
      simp only [Bool.true_and, decide_eq_true_eq] at held ⊢
      rcases less.set past le_rfl with stopped | ⟨-, earlier⟩
      · have zero : now = 0 := by
          rw [setClock, Bool.not_true, if_neg Bool.false_ne_true] at stopped
          split_ifs at stopped
          · exact stopped
          · contradiction
        rw [stopped, zero, sub_zero] at held
        exact absurd timed held.not_gt
      · exact held.trans (sub_le_sub_left earlier now)

theorem turned_set {now need s t : ℚ} {plain wide denied : Bool} (past : s ≤ now ∧ t ≤ now)
    (timed : 0 < need) (less : Turned denied RunsLess s t)
    (turned : Turned denied (· ≤ ·) plain wide) :
    Turned denied (· ≤ ·) (plain && decide (need ≤ now - setClock now plain s))
        (wide && decide (need ≤ now - setClock now wide t)) ∧
      Turned denied RunsLess (setClock now plain s) (setClock now wide t) := by
  cases denied with
  | false => exact ⟨held_of_runsLess timed less past.2 turned, less.set past.2 turned⟩
  | true => exact ⟨held_of_runsLess timed less past.1 turned, less.set past.1 turned⟩

/-- The clocks of the two evaluations at one place: they are of the same node, and run no
longer on the side that must not be true more often. -/
structure Twin (marked : UInt32 → Bool) (now : ℚ) (plain wide : NodeTimer) : Prop where
  path : plain.path = wide.path
  past : plain.since ≤ now ∧ wide.since ≤ now
  less : plain.since = wide.since ∨
    plain.path ≠ 0 ∧ Turned (marked plain.path) RunsLess plain.since wide.since

/-- The clocks of the two evaluations. -/
def TwinClocks (marked : UInt32 → Bool) (now : ℚ) : Clocks → Clocks → Prop :=
  Option.Rel (List.Forall₂ (Twin marked now))

theorem findTimer_congr {plain wide : List NodeTimer}
    (paths : plain.map NodeTimer.path = wide.map NodeTimer.path) (path : UInt32) :
    findTimer plain path = findTimer wide path := by
  have same (p : UInt32) : plain.findIdx? (·.path = p) = wide.findIdx? (·.path = p) := by
    have mapped (timers : List NodeTimer) :
        timers.findIdx? (·.path = p) = (timers.map NodeTimer.path).findIdx? (· = p) := by
      rw [List.findIdx?_map]
      rfl
    rw [mapped, mapped, paths]
  rw [findTimer, findTimer, same, same]

theorem forall₂_set {α β : Type*} {r : α → β → Prop} {as : List α} {bs : List β} {a : α} {b : β}
    (all : List.Forall₂ r as bs) (i : ℕ) (one : r a b) :
    List.Forall₂ r (as.set i a) (bs.set i b) := by
  induction all generalizing i with
  | nil => exact .nil
  | cons first rest ih =>
      cases i with
      | zero => exact .cons one rest
      | succ i => exact .cons first (ih i)

theorem forall₂_getElem? {α β : Type*} {r : α → β → Prop} {as : List α} {bs : List β} {a : α}
    {i : ℕ} (all : List.Forall₂ r as bs) (here : as[i]? = some a) :
    ∃ b, bs[i]? = some b ∧ r a b := by
  induction all generalizing i with
  | nil => cases here
  | cons first rest ih =>
      cases i with
      | zero =>
          rw [List.getElem?_cons_zero, Option.some_inj] at here
          subst here
          exact ⟨_, rfl, first⟩
      | succ i => exact ih here

section Look

variable {marked : UInt32 → Bool} {now : ℚ} {path : UInt32} {node : Json} {denied : Bool}
  {plain wide : Bool} {plainClocks wideClocks : Clocks}

theorem heldLongEnough_turned (started : 0 ≤ now)
    (own : ∀ clock ∈ ownClock node path denied, clock.path ≠ 0 ∧ marked clock.path = clock.denied)
    (twins : TwinClocks marked now plainClocks wideClocks)
    (turned : Turned denied (· ≤ ·) plain wide) :
    Turned denied (· ≤ ·) (heldLongEnough now path node plain plainClocks).1
        (heldLongEnough now path node wide wideClocks).1 ∧
      TwinClocks marked now (heldLongEnough now path node plain plainClocks).2
        (heldLongEnough now path node wide wideClocks).2 := by
  by_cases timed : 0 < needOf node
  · cases twins with
    | none => exact ⟨turned, .none⟩
    | some twins =>
        rename_i plainTimers wideTimers
        have clock : path ≠ 0 ∧ marked path = denied :=
          own ⟨path, denied, node⟩ (by simp [ownClock, timed])
        have paths : plainTimers.map NodeTimer.path = wideTimers.map NodeTimer.path := by
          rw [← List.forall₂_eq_eq_eq, List.forall₂_map_left_iff, List.forall₂_map_right_iff]
          exact twins.imp fun _ _ twin => twin.path
        have same := findTimer_congr paths path
        cases found : findTimer plainTimers path with
        | none =>
            rw [heldLongEnough_full timed found, heldLongEnough_full timed (same ▸ found)]
            exact ⟨.refl le_refl denied false, .some twins⟩
        | some i =>
            obtain ⟨timer, here, kept⟩ := findTimer_path found
            obtain ⟨other, there, twin⟩ := forall₂_getElem? twins here
            rw [heldLongEnough_timed timed found here,
              heldLongEnough_timed timed (same ▸ found) there]
            have less : Turned denied RunsLess timer.since other.since := by
              rcases twin.less with equal | ⟨taken, less⟩
              · rw [equal]
                exact .refl RunsLess.refl denied other.since
              · rwa [kept.resolve_right taken, clock.2] at less
            have later := (turned_set twin.past timed less turned)
            refine ⟨later.1, .some (forall₂_set twins i ⟨rfl, ?_, Or.inr ⟨clock.1, ?_⟩⟩)⟩
            · exact ⟨setClock_le started twin.past.1, setClock_le started twin.past.2⟩
            · rw [clock.2]
              exact later.2
  · rw [heldLongEnough_untimed timed, heldLongEnough_untimed timed]
    exact ⟨turned, twins⟩

end Look

/-! ## Trees -/

/-- The clocks of a tree are marked by whether their nodes are denied. -/
def Marks (marked : UInt32 → Bool) (clocks : List TimedNode) : Prop :=
  ∀ clock ∈ clocks, clock.path ≠ 0 ∧ marked clock.path = clock.denied

/-- With the deadband a tree is turned the right way, and so are the clocks it leaves. -/
def Follows (marked : UInt32 → Bool) (cx : EvalCtx) (node : Json) : Prop :=
  ∀ (path : UInt32) (denied : Bool) (plainClocks wideClocks : Clocks),
    upright cx node denied = true → Marks marked (timedNodes node path denied) →
      TwinClocks marked cx.now plainClocks wideClocks →
        Turned denied (· ≤ ·) (evalPath cx.plain node path plainClocks).1
            (evalPath cx node path wideClocks).1 ∧
          TwinClocks marked cx.now (evalPath cx.plain node path plainClocks).2
            (evalPath cx node path wideClocks).2

section Trees

variable {marked : UInt32 → Bool} {cx : EvalCtx}

theorem evalKids_turned {items : List Json} (each : ∀ item ∈ items, Follows marked cx item)
    {path : UInt32} {denied : Bool} (i : ℕ) {plainClocks wideClocks : Clocks}
    (straight : items.all (fun item => upright cx item denied) = true)
    (marks : Marks marked (kidClocks path denied i (items.map timedNodes)))
    (twins : TwinClocks marked cx.now plainClocks wideClocks) :
    List.Forall₂ (Turned denied (· ≤ ·))
        (evalKids path i (items.map (evalPath cx.plain)) plainClocks).1
        (evalKids path i (items.map (evalPath cx)) wideClocks).1 ∧
      TwinClocks marked cx.now
        (evalKids path i (items.map (evalPath cx.plain)) plainClocks).2
        (evalKids path i (items.map (evalPath cx)) wideClocks).2 := by
  induction items generalizing i plainClocks wideClocks with
  | nil => exact ⟨.nil, twins⟩
  | cons item rest ih =>
      rw [List.all_cons, Bool.and_eq_true] at straight
      have first := each item List.mem_cons_self (kidPath path i) denied plainClocks wideClocks
        straight.1 (fun clock inside => marks clock (List.mem_append_left _ inside)) twins
      have later := ih
        (fun item inside => each item (List.mem_cons_of_mem _ inside)) (i + 1) straight.2
        (fun clock inside => marks clock (List.mem_append_right _ inside)) first.2
      exact ⟨.cons first.1 later.1, later.2⟩

theorem evalGroup_turned {node : Json} {items : List Json}
    (each : ∀ item ∈ items, Follows marked cx item) {path : UInt32} {denied : Bool}
    {plainClocks wideClocks : Clocks}
    (straight : items.all (fun item => upright cx item (denied ^^ denies node)) = true)
    (marks : Marks marked (kidClocks path (denied ^^ denies node) 0 (items.map timedNodes)))
    (twins : TwinClocks marked cx.now plainClocks wideClocks) :
    Turned denied (· ≤ ·) (evalGroup node (items.map (evalPath cx.plain)) path plainClocks).1
        (evalGroup node (items.map (evalPath cx)) path wideClocks).1 ∧
      TwinClocks marked cx.now
        (evalGroup node (items.map (evalPath cx.plain)) path plainClocks).2
        (evalGroup node (items.map (evalPath cx)) path wideClocks).2 := by
  have kids := evalKids_turned each 0 straight marks twins
  simp only [evalGroup, List.isEmpty_map]
  by_cases empty : items.isEmpty = true
  · rw [if_pos empty, if_pos empty]
    exact ⟨.refl le_refl denied false, twins⟩
  rw [if_neg empty, if_neg empty]
  simp only [denies] at kids
  split_ifs with anyOf notAll
  · simp only [anyOf, Bool.not_true, Bool.false_and, Bool.xor_false] at kids
    exact ⟨turned_any kids.1, kids.2⟩
  · simp only [anyOf, notAll, Bool.not_false, Bool.true_and, Bool.xor_true] at kids
    exact ⟨turned_not (turned_all kids.1), kids.2⟩
  · simp only [anyOf, notAll, Bool.not_false, Bool.true_and, Bool.xor_false] at kids
    exact ⟨turned_all kids.1, kids.2⟩

/-- With a deadband every tree that is upright is turned the right way. -/
theorem evalPath_turned (cx : EvalCtx) (started : 0 ≤ cx.now) (nonneg : 0 ≤ cx.db) (node : Json) :
    Follows marked cx node := by
  induction node using tree_induction with
  | leaf node plain =>
      intro path denied plainClocks wideClocks straight marks twins
      rw [evalPath_leaf _ plain, evalPath_leaf _ plain]
      rw [upright_leaf plain] at straight
      rw [timedNodes_leaf plain] at marks
      exact heldLongEnough_turned started marks twins ((evalComparison_turned nonneg).mpr straight)
  | group node items inside ih =>
      intro path denied plainClocks wideClocks straight marks twins
      rw [evalPath_group _ inside, evalPath_group _ inside]
      rw [upright_group inside] at straight
      rw [timedNodes_group inside] at marks
      have said := evalGroup_turned ih straight
        (fun clock among => marks clock (List.mem_append_left _ among)) twins
      exact heldLongEnough_turned started
        (fun clock among => marks clock (List.mem_append_right _ among)) said.2 said.1

end Trees

/-! ## Runs -/

/-- Whether no two timed nodes of a tree, one denied and one not, share a clock. -/
def Apart (clocks : List TimedNode) : Prop :=
  ∀ a ∈ clocks, a.path ≠ 0 ∧ ∀ b ∈ clocks, a.path = b.path → a.denied = b.denied

instance (clocks : List TimedNode) : Decidable (Apart clocks) := by
  unfold Apart
  infer_instance

/-- No clock is ahead of the time. -/
def Past (now : ℚ) (clocks : Clocks) : Prop :=
  ∀ timers ∈ clocks, ∀ timer ∈ timers, timer.since ≤ now

/-- Two evaluations of one tree, one without the deadband, and the time of the last. -/
structure Pair where
  plain : Clocks
  wide : Clocks
  time : ℚ

def Pair.step (tree : Json) (cx : EvalCtx) (s : Pair) : Pair :=
  { plain := (evalNodeAt cx.plain tree s.plain).2
    wide := (evalNodeAt cx tree s.wide).2
    time := cx.now }

/-- The condition of a look: time does not go back, and the tree is upright. -/
def Upright (tree : Json) (cx : EvalCtx) (s : Pair) : Prop :=
  s.time ≤ cx.now ∧ 0 ≤ cx.db ∧ upright cx tree false = true

instance (tree : Json) (cx : EvalCtx) (s : Pair) : Decidable (Upright tree cx s) :=
  inferInstanceAs (Decidable (_ ∧ _ ∧ _))

/-- What is true without the deadband is true with it. -/
def Prolongs (tree : Json) (cx : EvalCtx) (s : Pair) : Prop :=
  (evalNodeAt cx.plain tree s.plain).1 = true → (evalNodeAt cx tree s.wide).1 = true

theorem marks_of_apart {clocks : List TimedNode} (apart : Apart clocks) :
    Marks (fun path => clocks.any fun clock => clock.path = path && clock.denied) clocks := by
  intro clock inside
  refine ⟨(apart clock inside).1, ?_⟩
  cases deny : clock.denied with
  | true =>
      rw [List.any_eq_true]
      exact ⟨clock, inside, by simp [deny]⟩
  | false =>
      rw [List.any_eq_false]
      intro other among
      by_cases same : clock.path = other.path
      · simp [← (apart clock inside).2 other among same, deny]
      · simp [Ne.symm same]

theorem twinClocks_refl (marked : UInt32 → Bool) {now : ℚ} {clocks : Clocks}
    (past : Past now clocks) : TwinClocks marked now clocks clocks := by
  cases clocks with
  | none => exact .none
  | some timers =>
      refine .some (List.forall₂_same.mpr fun timer inside => ⟨rfl, ?_, Or.inl rfl⟩)
      exact ⟨past timers rfl timer inside, past timers rfl timer inside⟩

theorem TwinClocks.later {marked : UInt32 → Bool} {now later : ℚ} {plain wide : Clocks}
    (order : now ≤ later) (twins : TwinClocks marked now plain wide) :
    TwinClocks marked later plain wide := by
  cases twins with
  | none => exact .none
  | some twins =>
      exact .some (twins.imp fun _ _ twin =>
        ⟨twin.path, ⟨twin.past.1.trans order, twin.past.2.trans order⟩, twin.less⟩)

theorem along_prolongs {tree : Json} {clocks : Clocks} {start : ℚ} {looks : List EvalCtx}
    (apart : Apart (timedNodes tree 1 false)) (started : 0 ≤ start) (past : Past start clocks)
    (sound : Along (Pair.step tree) (Upright tree) looks ⟨clocks, clocks, start⟩) :
    Along (Pair.step tree) (Prolongs tree) looks ⟨clocks, clocks, start⟩ := by
  have marks := marks_of_apart apart
  generalize (fun path => (timedNodes tree 1 false).any
    fun clock => clock.path = path && clock.denied) = marked at marks
  have one (cx : EvalCtx) (s : Pair) (kept : 0 ≤ s.time ∧ TwinClocks marked s.time s.plain s.wide)
      (met : Upright tree cx s) :=
    evalPath_turned cx (kept.1.trans met.1) met.2.1 tree 1 false s.plain s.wide met.2.2 marks
      (kept.2.later met.1)
  refine Along.strengthen (fun s => 0 ≤ s.time ∧ TwinClocks marked s.time s.plain s.wide)
    (fun cx s kept met => ?_) (fun cx s kept met => ?_) ⟨started, twinClocks_refl _ past⟩ sound
  · exact ⟨kept.1.trans met.1, (one cx s kept met).2⟩
  · exact (one cx s kept met).1

/-! ## One comparison -/

/-- A comparison inside groups of one condition each. -/
def nest : List String → Json → Json
  | [], leaf => leaf
  | op :: rest, leaf => .obj [("op", .str op), ("conditions", .arr [nest rest leaf])]

theorem kidsOf_nest (op : String) (rest : List String) (leaf : Json) :
    kidsOf (nest (op :: rest) leaf) = some [nest rest leaf] := by
  simp [kidsOf, nest, jget, Json.member?, List.lookup_cons]

theorem needOf_nest (op : String) (rest : List String) (leaf : Json) :
    needOf (nest (op :: rest) leaf) = 0 := by
  simp [needOf, nest, jsonNum, jsonNum?, jsonPath, Json.enter?, Json.member?,
    List.lookup_cons]

theorem evalPath_nest (cx : EvalCtx) (op : String) (rest : List String) (leaf : Json)
    (path : UInt32) (clocks : Clocks) :
    (evalPath cx (nest (op :: rest) leaf) path clocks).1 =
      (denies (nest (op :: rest) leaf) ^^
        (evalPath cx (nest rest leaf) (kidPath path 0) clocks).1) := by
  have untimed : ¬0 < needOf (nest (op :: rest) leaf) := by simp [needOf_nest]
  rw [evalPath_group cx (kidsOf_nest op rest leaf)]
  simp only [evalTimedGroup, heldLongEnough_untimed untimed, evalGroup, denies, List.map_cons,
    List.map_nil, List.isEmpty_cons, Bool.false_eq_true, if_false, evalKids]
  split_ifs with anyOf notAll
  · simp [anyOf]
    rfl
  · simp [anyOf, notAll]
    rfl
  · simp [anyOf, notAll]
    rfl

/-- One comparison, however deep, is turned the right way exactly where it is upright. -/
theorem nest_turned {cx : EvalCtx} (nonneg : 0 ≤ cx.db) {leaf : Json} (plain : kidsOf leaf = none)
    (untimed : ¬0 < needOf leaf) (ops : List String) (denied : Bool) (path : UInt32)
    (clocks : Clocks) :
    Turned denied (· ≤ ·) (evalPath cx.plain (nest ops leaf) path clocks).1
        (evalPath cx (nest ops leaf) path clocks).1 ↔
      upright cx (nest ops leaf) denied = true := by
  induction ops generalizing denied path with
  | nil =>
      rw [nest, evalPath_leaf _ plain, evalPath_leaf _ plain, upright_leaf plain, evalLeaf,
        evalLeaf, heldLongEnough_untimed untimed, heldLongEnough_untimed untimed]
      exact evalComparison_turned nonneg
  | cons op rest ih =>
      rw [evalPath_nest, evalPath_nest, upright_group (kidsOf_nest op rest leaf), List.all_cons,
        List.all_nil, Bool.and_true, ← ih]
      generalize denies (nest (op :: rest) leaf) = deny
      generalize (evalPath cx.plain (nest rest leaf) (kidPath path 0) clocks).1 = a
      generalize (evalPath cx (nest rest leaf) (kidPath path 0) clocks).1 = b
      cases deny with
      | false => simp
      | true =>
          simp only [Bool.true_xor, Bool.xor_true]
          constructor
          · intro turned
            have back : Turned (!denied) (· ≤ ·) (!!a) (!!b) := turned_not (by simpa using turned)
            rwa [Bool.not_not, Bool.not_not] at back
          · exact turned_not

/-! ## The rule -/

theorem look_prolonged {t : Tick} {rule cond : Json} {i : Inst} {slots after : List Slot} {k : ℕ}
    {slot : Slot} (asked : jget (some rule) "when" = some cond)
    (place : stateFor (ruleId rule) i.label slots = (some k, after)) (here : after[k]? = some slot)
    (raised : slot.raised = true) (apart : Apart (timedNodes cond 1 false)) (started : 0 ≤ t.now)
    (past : Past t.now (some slot.timers)) (nonneg : 0 ≤ jsonNum rule ["deadband"] 0)
    (straight : upright ⟨t.status, i, jsonNum rule ["deadband"] 0, t.now⟩ cond false = true)
    (plain : (evalNodeAt ⟨t.status, i, 0, t.now⟩ cond (some slot.timers)).1 = true) :
    (look t rule i slots).1 = true := by
  have twins := twinClocks_refl (fun path =>
    (timedNodes cond 1 false).any fun clock => clock.path = path && clock.denied) past
  have turned := (evalPath_turned ⟨t.status, i, jsonNum rule ["deadband"] 0, t.now⟩
    started nonneg cond 1 false _ _ straight (marks_of_apart apart) twins).1 plain
  simp only [look, place, asked, Option.bind_some, here, Option.any_some, raised, if_true,
    Option.map_some]
  rw [evalNodeAt]
  generalize evalPath _ cond 1 (some slot.timers) = said at turned ⊢
  obtain ⟨ok, clocks⟩ := said
  cases clocks <;> exact turned

/-- A deadband only prolongs: over any run of looks that are upright, a tree true without
the deadband is true with it, and so is the rule that reports. For one comparison, however
deep, being upright is exactly what it takes. -/
theorem deadband_only_prolongs (tree : Json) (clocks : Clocks) :
    (∀ (start : ℚ) (looks : List EvalCtx),
      Apart (timedNodes tree 1 false) → 0 ≤ start → Past start clocks →
        Along (Pair.step tree) (Upright tree) looks ⟨clocks, clocks, start⟩ →
          Along (Pair.step tree) (Prolongs tree) looks ⟨clocks, clocks, start⟩) ∧
    (∀ (t : Tick) (rule cond : Json) (i : Inst) (slots after : List Slot) (k : ℕ) (slot : Slot),
      jget (some rule) "when" = some cond →
        stateFor (ruleId rule) i.label slots = (some k, after) → after[k]? = some slot →
          slot.raised = true → Apart (timedNodes cond 1 false) → 0 ≤ t.now →
            Past t.now (some slot.timers) → 0 ≤ jsonNum rule ["deadband"] 0 →
              upright ⟨t.status, i, jsonNum rule ["deadband"] 0, t.now⟩ cond false = true →
                (evalNodeAt ⟨t.status, i, 0, t.now⟩ cond (some slot.timers)).1 = true →
                  (look t rule i slots).1 = true) ∧
    ∀ (cx : EvalCtx) (ops : List String) (leaf : Json), 0 ≤ cx.db →
      kidsOf leaf = none → ¬0 < needOf leaf →
        (((evalNodeAt cx.plain (nest ops leaf) clocks).1 = true →
            (evalNodeAt cx (nest ops leaf) clocks).1 = true) ↔
          upright cx (nest ops leaf) false = true) := by
  refine ⟨?_, ?_, ?_⟩
  · intro start looks apart started past sound
    exact along_prolongs apart started past sound
  · intro t rule cond i slots after k slot asked place here raised apart started past nonneg
      straight plain
    exact look_prolonged asked place here raised apart started past nonneg straight plain
  · intro cx ops leaf nonneg plain untimed
    exact nest_turned nonneg plain untimed ops false 1 clocks

/-- A pit that is hot and not cold. -/
def hotNotCold : Json :=
  .obj [("op", .str "all"), ("conditions", .arr [hotMinute 200,
    .obj [("op", .str "not"), ("conditions", .arr
      [.obj [("trait", .str "temp"), ("op", .str "<"), ("value", .num 100)]])]])]

/-- A look at a pit at a temperature, with a deadband of ten degrees. -/
def pitLook (temp now : ℚ) : EvalCtx :=
  ⟨(Pit.tick [] "Hold" temp now).status, ⟨"grill", "grill", none⟩, 10, now⟩

theorem deadband_only_prolongs_on_bench :
    Along (Pair.step hotNotCold) (Prolongs hotNotCold)
      [pitLook 205 10, pitLook 195 40, pitLook 205 80, pitLook 195 150]
      ⟨some freshTimers, some freshTimers, 0⟩ :=
  (deadband_only_prolongs hotNotCold (some freshTimers)).1 0 _ (by decide) le_rfl
    (by
      intro timers inside timer among
      cases Option.mem_def.mp inside
      rw [List.eq_of_mem_replicate among])
    (by decide +kernel)

/-- A pit that is not cold. -/
def notCold : Json :=
  .obj [("op", .str "not"), ("conditions", .arr
    [.obj [("trait", .str "temp"), ("op", .str "<"), ("value", .num 200)]])]

/-- Inside a negated group a deadband ends what it should prolong. -/
theorem denied_deadband_ends :
    ¬∀ (tree : Json) (cx : EvalCtx) (clocks : Clocks), 0 ≤ cx.db →
      (evalNodeAt cx.plain tree clocks).1 = true → (evalNodeAt cx tree clocks).1 = true := by
  intro always
  have ended := always notCold (pitLook 205 10) none (by decide +kernel) (by decide +kernel)
  exact absurd ended (by decide +kernel)

end PiFire.Rules
