import PiFire.Rules.Reading
import Mathlib.Algebra.Order.Field.Basic

/-!
# What a converted rule says

A rule in the other unit says the same of the same grill where the numbers it
compares are rewritten the way the readings they are compared with move. This
file says when they are, one comparison at a time: the numbers on both sides,
the widths, the deadband, and the signs the traits are read by.
-/

namespace PiFire.Rules

variable {u : Units} {cx : EvalCtx} {scale : Option Bool}

/-! ## Numbers in the other unit -/

/-- The scale of a width between two numbers on a scale. -/
def widthOf (scale : Option Bool) : Option Bool := scale.map fun _ => true

theorem exists_ratio (u : Units) (scale : Option Bool) : ∃ r : ℚ, 0 < r ∧ 5 / 9 ≤ r ∧
    (∀ x y, onScale u scale x - onScale u scale y = r * (x - y)) ∧
      ∀ w, onScale u (widthOf scale) w = r * w := by
  cases scale with
  | none => exact ⟨1, by norm_num, by norm_num, by simp [onScale], by simp [onScale, widthOf]⟩
  | some delta =>
      cases u with
      | c =>
          refine ⟨5 / 9, by norm_num, by norm_num, ?_, ?_⟩
          · rintro x y
            cases delta <;> simp only [onScale, conv, if_true, Bool.false_eq_true, if_false] <;>
              ring
          · rintro w
            simp only [onScale, widthOf, Option.map_some, conv, if_true]
            ring
      | f =>
          refine ⟨9 / 5, by norm_num, by norm_num, ?_, ?_⟩
          · rintro x y
            cases delta <;> simp only [onScale, conv, if_true, Bool.false_eq_true, if_false] <;>
              ring
          · rintro w
            simp only [onScale, widthOf, Option.map_some, conv, if_true]
            ring

/-- The operators that widen their threshold by the deadband. -/
def widened (op : String) : Bool := op ∈ [">", ">=", "<", "<=", "==", "is", "between", "within"]

/-- Whether two numbers are equal by the same tolerance in both units. -/
def crisp (op : String) (x y db : ℚ) : Bool :=
  op ∉ ["==", "is", "!=", "is_not"] || (op ∈ ["==", "is"] && 0 < db) || x = y ||
    9 / 5 / 10 ^ 9 ≤ |x - y|

/-- Whether a comparison of two numbers on a scale is the same in the other
unit. -/
def numbersKept (scale : Option Bool) (op : String) (x y db : ℚ) : Bool :=
  if scale.isSome then crisp op x y db else db = 0 || !widened op

section Numbers

variable {r x y x' y' w w' : ℚ}

theorem lt_iff_scaled (pos : 0 < r) (apart : x' - y' = r * (x - y)) (width : w' = r * w) :
    y' - w' < x' ↔ y - w < x := by
  have scaled : x' - (y' - w') = r * (x - (y - w)) := by
    rw [width]
    linarith
  rw [← sub_pos, scaled, mul_pos_iff_of_pos_left pos, sub_pos]

theorem le_iff_scaled (pos : 0 < r) (apart : x' - y' = r * (x - y)) (width : w' = r * w) :
    y' - w' ≤ x' ↔ y - w ≤ x := by
  have scaled : x' - (y' - w') = r * (x - (y - w)) := by
    rw [width]
    linarith
  rw [← sub_nonneg, scaled, mul_nonneg_iff_of_pos_left pos, sub_nonneg]

theorem abs_scaled (pos : 0 < r) (apart : x' - y' = r * (x - y)) : |x' - y'| = r * |x - y| := by
  rw [apart, abs_mul, abs_of_pos pos]

theorem near_iff_scaled (pos : 0 < r) (low : 5 / 9 ≤ r)
    (apart : x' - y' = r * (x - y)) (crisply : x = y ∨ 9 / 5 / 10 ^ 9 ≤ |x - y|) :
    |x' - y'| < 1 / 10 ^ 9 ↔ |x - y| < 1 / 10 ^ 9 := by
  rw [abs_scaled pos apart]
  rcases crisply with rfl | far
  · simp
  · have here : ¬|x - y| < 1 / 10 ^ 9 := by
      rw [not_lt]
      exact le_trans (by norm_num) far
    have there : ¬r * |x - y| < 1 / 10 ^ 9 := by
      rw [not_lt]
      calc (1 : ℚ) / 10 ^ 9 = 5 / 9 * (9 / 5 / 10 ^ 9) := by norm_num
        _ ≤ r * |x - y| := mul_le_mul low far (by norm_num) pos.le
    exact iff_of_false there here

end Numbers

theorem deadband_onScale {op : String} {x y db : ℚ} (kept : numbersKept scale op x y db = true)
    (wide : widened op = true) : conv u true db = onScale u (widthOf scale) db := by
  cases scale with
  | some delta => rfl
  | none =>
      have none : db = 0 := by simpa [numbersKept, wide] using kept
      subst none
      cases u <;> simp [conv, onScale, widthOf]

theorem crisp_of_kept {op : String} {x y db : ℚ} (kept : numbersKept scale op x y db = true)
    (equality : op ∈ ["==", "is", "!=", "is_not"]) (open_ : op ∈ ["==", "is"] → ¬0 < db)
    (scaled : scale.isSome = true) : x = y ∨ 9 / 5 / 10 ^ 9 ≤ |x - y| := by
  rw [numbersKept, if_pos scaled, crisp] at kept
  simp only [Bool.or_eq_true, Bool.and_eq_true, decide_eq_true_eq] at kept
  rcases kept with ((other | ⟨among, db⟩) | same) | far
  · exact absurd equality other
  · exact absurd db (open_ among)
  · exact Or.inl same
  · exact Or.inr far

/-! ## What each operator asks -/

section Operators

variable {x y db : ℚ} {b2 : Val} {op : String}

theorem compareNum_between :
    compareNum x "between" y b2 db = true ↔ b2 ≠ .none ∧ y - db ≤ x ∧ x ≤ b2.asNum + db := by
  cases b2 <;> simp [compareNum]

theorem compareNum_within :
    compareNum x "within" y b2 db = true ↔ b2 ≠ .none ∧ |x - y| ≤ b2.asNum + db := by
  cases b2 <;> simp [compareNum]

theorem compareNum_equal (among : op ∈ ["==", "is"]) :
    compareNum x op y b2 db = true ↔ |x - y| < if 0 < db then db else 1 / 10 ^ 9 := by
  simp only [List.mem_cons, List.not_mem_nil, or_false] at among
  rcases among with rfl | rfl <;> simp [compareNum]

theorem compareNum_apart (among : op ∈ ["!=", "is_not"]) :
    compareNum x op y b2 db = true ↔ ¬|x - y| < 1 / 10 ^ 9 := by
  simp only [List.mem_cons, List.not_mem_nil, or_false] at among
  rcases among with rfl | rfl <;> simp [compareNum]

theorem compareNum_other
    (other : op ∉ [">", ">=", "<", "<=", "==", "is", "!=", "is_not", "between", "within"]) :
    compareNum x op y b2 db = false := by
  simp only [List.mem_cons, List.not_mem_nil, or_false, not_or] at other
  obtain ⟨gt, ge, lt, le, eq, same, ne, apart, between, within⟩ := other
  simp [compareNum, gt, ge, lt, le, eq, same, ne, apart, between, within]

end Operators

theorem compareNum_equality {op : String} {x y db : ℚ} {b2 b2' : Val}
    (kept : numbersKept scale op x y db = true) (among : op ∈ ["==", "is", "!=", "is_not"]) :
    compareNum (onScale u scale x) op (onScale u scale y) b2' (conv u true db) =
      compareNum x op y b2 db := by
  obtain ⟨r, pos, low, moved, widths⟩ := exists_ratio u scale
  have apart := moved x y
  have near : (op ∈ ["==", "is"] → ¬0 < db) →
      (|onScale u scale x - onScale u scale y| < 1 / 10 ^ 9 ↔ |x - y| < 1 / 10 ^ 9) := by
    rintro bare
    cases scale with
    | none => exact Iff.rfl
    | some delta => exact near_iff_scaled pos low apart (crisp_of_kept kept among bare rfl)
  rw [Bool.eq_iff_iff]
  by_cases equal : op ∈ ["==", "is"]
  · have all : ∀ op ∈ ["==", "is"], widened op = true := by decide
    have wide : conv u true db = r * db :=
      (deadband_onScale kept (all op equal)).trans (widths db)
    rw [compareNum_equal equal, compareNum_equal equal, wide]
    by_cases open_ : 0 < db
    · rw [if_pos open_, if_pos (mul_pos pos open_), abs_scaled pos apart,
        mul_lt_mul_iff_right₀ pos]
    · rw [if_neg open_, if_neg ((mul_pos_iff_of_pos_left pos).not.mpr open_)]
      exact near fun _ => open_
  · have all : ∀ op ∈ ["==", "is", "!=", "is_not"], op ∈ ["==", "is"] ∨ op ∈ ["!=", "is_not"] := by
      decide
    have unequal : op ∈ ["!=", "is_not"] := (all op among).resolve_left equal
    rw [compareNum_apart unequal, compareNum_apart unequal]
    exact not_congr (near fun among => absurd among equal)

theorem compareNum_onScale {op : String} {x y db : ℚ} {b2 b2' : Val}
    (kept : numbersKept scale op x y db = true) (given : b2' = .none ↔ b2 = .none)
    (between : op = "between" → b2 ≠ .none → b2'.asNum = onScale u scale b2.asNum)
    (within : op = "within" → b2 ≠ .none → b2'.asNum = onScale u (widthOf scale) b2.asNum) :
    compareNum (onScale u scale x) op (onScale u scale y) b2' (conv u true db) =
      compareNum x op y b2 db := by
  by_cases equality : op ∈ ["==", "is", "!=", "is_not"]
  · exact compareNum_equality kept equality
  by_cases known : op ∈ [">", ">=", "<", "<=", "between", "within"]
  · obtain ⟨r, pos, low, moved, widths⟩ := exists_ratio u scale
    have apart := moved x y
    have back := moved y x
    have all : ∀ op ∈ [">", ">=", "<", "<=", "between", "within"], widened op = true := by decide
    have wide : conv u true db = r * db :=
      (deadband_onScale kept (all op known)).trans (widths db)
    simp only [List.mem_cons, List.not_mem_nil, or_false] at known
    rw [Bool.eq_iff_iff]
    rcases known with rfl | rfl | rfl | rfl | rfl | rfl
    · simpa [compareNum] using lt_iff_scaled pos apart wide
    · simpa [compareNum] using le_iff_scaled pos apart wide
    · have less := lt_iff_scaled pos back wide
      rw [sub_lt_iff_lt_add, sub_lt_iff_lt_add] at less
      simpa [compareNum] using less
    · have less := le_iff_scaled pos back wide
      rw [sub_le_iff_le_add, sub_le_iff_le_add] at less
      simpa [compareNum] using less
    · rw [compareNum_between, compareNum_between, Ne, given]
      refine and_congr_right fun there => and_congr (le_iff_scaled pos apart wide) ?_
      have upper := moved b2.asNum x
      rw [between rfl there, ← sub_le_iff_le_add, ← sub_le_iff_le_add]
      exact le_iff_scaled pos upper wide
    · rw [compareNum_within, compareNum_within, Ne, given]
      refine and_congr_right fun there => ?_
      rw [within rfl there, widths, wide, abs_scaled pos apart, ← mul_add,
        mul_le_mul_iff_right₀ pos]
  · have all : ∀ op ∈ [">", ">=", "<", "<=", "==", "is", "!=", "is_not", "between", "within"],
        op ∈ ["==", "is", "!=", "is_not"] ∨ op ∈ [">", ">=", "<", "<=", "between", "within"] := by
      decide
    have other : op ∉ [">", ">=", "<", "<=", "==", "is", "!=", "is_not", "between", "within"] :=
      fun inside => (all op inside).elim equality known
    rw [compareNum_other other, compareNum_other other]

theorem compare_onScale {op : String} {a b b2 b2' : Val} {db : ℚ}
    (kept : ∀ x y, a = .num x → b = .num y → numbersKept scale op x y db = true ∧
      (b2' = .none ↔ b2 = .none) ∧
      (op = "between" → b2 ≠ .none → b2'.asNum = onScale u scale b2.asNum) ∧
      (op = "within" → b2 ≠ .none → b2'.asNum = onScale u (widthOf scale) b2.asNum)) :
    compare (a.onScale u scale) op (b.onScale u scale) b2' (conv u true db) =
      compare a op b b2 db := by
  by_cases unavailable : op = "unavailable"
  · subst unavailable
    cases a <;> rfl
  by_cases available : op = "available"
  · subst available
    cases a <;> rfl
  delta compare
  rw [if_neg unavailable, if_neg available, if_neg unavailable, if_neg available]
  cases a with
  | none => rfl
  | str s => cases b <;> rfl
  | bool p => cases b <;> rfl
  | num x =>
      cases b with
      | num y =>
          obtain ⟨numbers, given, between, within⟩ := kept x y rfl rfl
          exact compareNum_onScale numbers given between within
      | _ => rfl

/-! ## Operands -/

/-- What the conversion does to the other side of a comparison: its number, and
the offset on a trait. -/
def moveOperand (u : Units) (number : Option Bool) (offset : Bool) : Json → Json
  | .num x => .num (onScale u number x)
  | .obj members =>
      if offset then (Json.obj members).onMember "offset" (.onNumber (conv u true))
      else .obj members
  | node => node

theorem convertValue_eq (delta : Bool) :
    convertValue u delta = moveOperand u (some delta) true := by
  funext node
  cases node <;> rfl

theorem onNumber_eq (delta : Bool) :
    Json.onNumber (conv u delta) = moveOperand u (some delta) false := by
  funext node
  cases node <;> rfl

theorem moveOperand_none : moveOperand u none false = id := by
  funext node
  cases node <;> rfl

/-- Whether the other side of a comparison moves on a scale, when its number is
converted by one row and its offset or not. -/
def operandKept (u : Units) (cx : EvalCtx) (scale number : Option Bool) (offset : Bool) :
    Option Json → Bool
  | some (.num _) => number == scale
  | some (.obj members) =>
      let v := Json.obj members
      match jget (some v) "trait" with
      | some (.str trait) =>
          let entity := jsonStr v ["entity"] "this"
          steady u cx.status cx.inst entity trait &&
            match traitOf cx.status cx.inst entity trait with
            | .num _ =>
                scaleOf (domainOf cx.inst entity) trait == scale &&
                  match jget (some v) "offset" with
                  | some (.num w) => w = 0 || offset == scale.isSome
                  | _ => true
            | _ => true
      | _ => true
  | _ => true

theorem onScale_add (x w : ℚ) :
    onScale u scale (x + w) = onScale u scale x + onScale u (widthOf scale) w := by
  cases scale with
  | none => rfl
  | some delta =>
      cases u <;> cases delta <;>
        simp only [onScale, widthOf, Option.map_some, conv, if_true, Bool.false_eq_true,
          if_false] <;> ring

theorem conv_zero (u : Units) : conv u true 0 = 0 := by
  cases u <;> simp [conv]

theorem offset_onScale {offset : Bool} {x w : ℚ}
    (kept : (w = 0 || offset == scale.isSome) = true) :
    onScale u scale x + (if offset then conv u true w else w) = onScale u scale (x + w) := by
  rw [onScale_add]
  congr 1
  simp only [Bool.or_eq_true, decide_eq_true_eq, beq_iff_eq] at kept
  rcases kept with rfl | rfl
  · cases offset <;> cases scale <;> simp [onScale, widthOf, conv_zero]
  · cases scale <;> rfl

theorem resolveOperand_moved {number : Option Bool} {offset : Bool} {v : Option Json}
    (kept : operandKept u cx scale number offset v = true) :
    resolveOperand (expressed u cx.status) (cx.inst.expressed u)
        (v.map (moveOperand u number offset)) =
      (resolveOperand cx.status cx.inst v).onScale u scale := by
  cases v with
  | none => rfl
  | some node =>
      cases node with
      | num x =>
          have same : number = scale := by simpa [operandKept] using kept
          subst same
          rfl
      | obj members =>
          have entered : "entity".toList.all Char.isDigit = false := by decide
          have moved : ∃ after, moveOperand u number offset (.obj members) = .obj after ∧
              (Json.obj after).member? "trait" = (Json.obj members).member? "trait" ∧
              (Json.obj after).member? "entity" = (Json.obj members).member? "entity" ∧
              (Json.obj after).member? "offset" = ((Json.obj members).member? "offset").map
                (if offset then .onNumber (conv u true) else id) := by
            cases offset with
            | false => exact ⟨members, rfl, rfl, rfl, by simp⟩
            | true =>
                have names := fun name =>
                  Json.member?_onMember "offset" name (.onNumber (conv u true)) (.obj members)
                refine ⟨modifyMember "offset" (.onNumber (conv u true)) members, rfl, ?_, ?_, ?_⟩
                · exact (names "trait").trans (by simp)
                · exact (names "entity").trans (by simp)
                · exact (names "offset").trans (by simp)
          obtain ⟨after, same, trait, entity, offsets⟩ := moved
          rw [Option.map_some, same]
          have entities : jsonStr (.obj after) ["entity"] "this" =
              jsonStr (.obj members) ["entity"] "this" := by
            simp only [jsonStr, jsonPath, Json.enter?_name entered, entity]
          simp only [resolveOperand, jget, Option.bind_some, strAt, Option.map_some,
            Option.getD_some, trait, entities, offsets]
          simp only [operandKept, jget, Option.bind_some] at kept
          cases named : (Json.obj members).member? "trait" with
          | none => rfl
          | some node =>
              cases node with
              | str trait =>
                  simp only [named, Bool.and_eq_true] at kept
                  obtain ⟨signs, terms⟩ := kept
                  simp only [traitOf_expressed signs]
                  cases read : traitOf cx.status cx.inst
                      (jsonStr (.obj members) ["entity"] "this") trait with
                  | num x =>
                      simp only [read, Bool.and_eq_true, beq_iff_eq] at terms
                      obtain ⟨rfl, kept⟩ := terms
                      cases given : (Json.obj members).member? "offset" with
                      | none => rfl
                      | some w =>
                          rw [given] at kept
                          cases w with
                          | num w =>
                              have sum := offset_onScale (u := u) (x := x) kept
                              cases offset <;> exact congrArg Val.num sum
                          | _ => cases offset <;> rfl
                  | _ => rfl
              | _ => rfl
      | _ => rfl

/-! ## Comparisons -/

/-- The row the conversion finds for a comparison of a trait. -/
def doneBy (domain : String) (node : Json) (trait : String) : Option Bool :=
  let entity := jsonStr node ["entity"] "this"
  traitDef (if entity = "this" then domain else entity) trait

/-- Whether the width or the upper end of a comparison moves as it should. -/
def secondKept (u : Units) (cx : EvalCtx) (scale done : Option Bool) (width : Bool)
    (v2 : Option Json) : Bool :=
  let role := if width then widthOf scale else scale
  operandKept u cx role (done.map (· || width)) false v2 &&
    (role.isNone ||
      match resolveOperand cx.status cx.inst v2 with
      | .bool _ | .str _ => false
      | _ => true)

/-- Whether a comparison of two values is the same in the other unit. -/
def pairKept (u : Units) (cx : EvalCtx) (scale done : Option Bool) (op : String) (a b : Val)
    (v2 : Option Json) (db : ℚ) : Bool :=
  match a, b with
  | .num x, .num y =>
      numbersKept scale op x y db &&
        (op ∉ ["between", "within"] || secondKept u cx scale done (op == "within") v2)
  | _, _ => true

/-- Whether a comparison says the same in the other unit. -/
def comparisonKept (u : Units) (cx : EvalCtx) (node : Json) : Bool :=
  let o := some node
  match jget o "trait" with
  | some (.str trait) =>
      let entity := jsonStr node ["entity"] "this"
      let a := traitOf cx.status cx.inst entity trait
      let scale := scaleOf (domainOf cx.inst entity) trait
      let done := doneBy cx.inst.domain node trait
      let op := jsonStr node ["op"] "=="
      steady u cx.status cx.inst entity trait &&
        match a with
        | .none => true
        | a =>
            if op = "is_one_of" ∨ op = "is_none_of" then
              (elements (jget o "value")).all fun item =>
                operandKept u cx scale none false (some item) &&
                  pairKept u cx scale none "is" a
                    (resolveOperand cx.status cx.inst (some item)) none 0
            else
              operandKept u cx scale done done.isSome (jget o "value") &&
                pairKept u cx scale done op a
                  (resolveOperand cx.status cx.inst (jget o "value")) (jget o "value2") cx.db
  | _ => true

theorem scaleOf_of_doneBy {node : Json} {trait : String} {delta : Bool}
    (known : doneBy cx.inst.domain node trait = some delta) :
    scaleOf (domainOf cx.inst (jsonStr node ["entity"] "this")) trait = some delta := by
  have published : ∀ domain, traitDef domain trait = some delta →
      scaleOf domain trait = some delta := by
    rintro domain row
    simp only [traitDef, traitRow, Option.map_eq_some_iff] at row
    obtain ⟨found, here, rfl⟩ := row
    rw [scaleOf, traitRow, publishedTraits, List.find?_append, here, Option.some_or,
      Option.map_some]
  simp only [doneBy] at known
  by_cases unnamed : jsonStr node ["entity"] "this" = ""
  · rw [unnamed, if_neg (by decide)] at known
    simp [traitDef, traitRow, temperatureTraits] at known
  · have same : domainOf cx.inst (jsonStr node ["entity"] "this") =
        if jsonStr node ["entity"] "this" = "this" then cx.inst.domain
        else jsonStr node ["entity"] "this" := by
      by_cases this : jsonStr node ["entity"] "this" = "this"
      · rw [domainOf, if_neg (fun both => both.2 this), if_pos this]
      · rw [domainOf, if_pos ⟨unnamed, this⟩, if_neg this]
    rw [same]
    exact published _ known

section Converted

variable {domain trait : String} {node : Json}

theorem member?_convertComparison {name : String}
    (aside : name ∉ ["value", "value2", "deadband"]) :
    (convertComparison u domain node).member? name = node.member? name := by
  simp only [List.mem_cons, List.not_mem_nil, or_false, not_or] at aside
  obtain ⟨value, value2, deadband⟩ := aside
  simp only [convertComparison]
  split
  · split
    · rfl
    · simp [value, value2, deadband]
  · rfl

theorem jget_convertComparison_value (named : jget (some node) "trait" = some (.str trait)) :
    jget (some (convertComparison u domain node)) "value" =
      (jget (some node) "value").map
        (moveOperand u (doneBy domain node trait) (doneBy domain node trait).isSome) := by
  simp only [convertComparison, named]
  cases row : doneBy domain node trait with
  | none =>
      simp only [doneBy] at row
      simp [row, moveOperand_none]
  | some delta =>
      simp only [doneBy] at row
      simp [row, jget, convertValue_eq]

theorem jget_convertComparison_value2 (named : jget (some node) "trait" = some (.str trait)) :
    jget (some (convertComparison u domain node)) "value2" =
      (jget (some node) "value2").map
        (moveOperand u
          ((doneBy domain node trait).map (· || jsonStr node ["op"] "==" == "within")) false) := by
  have op : (jsonStr node ["op"] "" == "within") = (jsonStr node ["op"] "==" == "within") := by
    have neither : ("" == "within") = ("==" == "within") := by decide
    simp only [jsonStr]
    cases jsonPath node ["op"] with
    | none => exact neither
    | some v =>
        cases v with
        | str s => rfl
        | _ => exact neither
  simp only [convertComparison, named, op]
  cases row : doneBy domain node trait with
  | none =>
      simp only [doneBy] at row
      simp [row, moveOperand_none]
  | some delta =>
      simp only [doneBy] at row
      simp [row, jget, onNumber_eq]

theorem jsonStr_convertComparison {name dflt : String}
    (named : name.toList.all Char.isDigit = false)
    (aside : name ∉ ["value", "value2", "deadband"]) :
    jsonStr (convertComparison u domain node) [name] dflt = jsonStr node [name] dflt := by
  simp only [jsonStr, jsonPath, Json.enter?_name named, member?_convertComparison aside]

end Converted

theorem modifyMember_eq_self {name : String} {f : Json → Json} {members : List (String × Json)}
    (still : ∀ value ∈ members.map Prod.snd, f value = value) :
    modifyMember name f members = members := by
  induction members with
  | nil => rfl
  | cons entry rest ih =>
      obtain ⟨key, value⟩ := entry
      rw [modifyMember, still value (by simp), ih fun v inside => still v (by simp [inside])]
      split_ifs <;> rfl

theorem elements_moved {done : Option Bool} {v : Option Json}
    (same : ∀ delta, done = some delta → scale = some delta)
    (kept : (elements v).all (fun item => operandKept u cx scale none false (some item)) = true) :
    elements (v.map (moveOperand u done done.isSome)) = elements v := by
  cases done with
  | none => simp [moveOperand_none]
  | some delta =>
      have scaled := same delta rfl
      subst scaled
      cases v with
      | none => rfl
      | some node =>
          cases node with
          | obj members =>
              rw [List.all_eq_true] at kept
              have plain : ∀ item ∈ members.map Prod.snd,
                  item.onNumber (conv u true) = item := by
                rintro item inside
                have spared := kept item inside
                cases item with
                | num x => simp [operandKept] at spared
                | _ => rfl
              simp [elements, moveOperand, Json.onMember, modifyMember_eq_self plain]
          | _ => rfl

theorem compare_second {op : String} {a b : Val} {db : ℚ} (single : op ∉ ["between", "within"])
    (b2 b2' : Val) : compare a op b b2 db = compare a op b b2' db := by
  simp only [List.mem_cons, List.not_mem_nil, or_false, not_or] at single
  delta compare
  split_ifs
  · rfl
  · rfl
  · cases a with
    | num x =>
        cases b with
        | num y => simp only [compareNum, single, if_false]
        | _ => rfl
    | _ => cases b <;> rfl

/-- What a comparison of two values says in the other unit, when the second moves
with the first. -/
theorem compare_moved {op : String} {a b : Val} {done : Option Bool} {v2 : Option Json} {db : ℚ}
    (kept : pairKept u cx scale done op a b v2 db = true) :
    compare (a.onScale u scale) op (b.onScale u scale)
        (resolveOperand (expressed u cx.status) (cx.inst.expressed u)
          (v2.map (moveOperand u (done.map (· || op == "within")) false))) (conv u true db) =
      compare a op b (resolveOperand cx.status cx.inst v2) db := by
  by_cases second : op ∈ ["between", "within"]
  · refine compare_onScale ?_
    rintro x y rfl rfl
    simp only [pairKept, second, not_true, decide_false, Bool.false_or, secondKept,
      Bool.and_eq_true, Bool.or_eq_true] at kept
    obtain ⟨numbers, operand, bare⟩ := kept
    have moved := resolveOperand_moved operand
    rw [moved]
    have kind : ∀ role, (Val.onScale u role (resolveOperand cx.status cx.inst v2) = .none ↔
        resolveOperand cx.status cx.inst v2 = .none) := by
      rintro role
      cases resolveOperand cx.status cx.inst v2 <;> simp [Val.onScale]
    have number : ∀ role : Option Bool, (role.isNone = true ∨
        (match resolveOperand cx.status cx.inst v2 with
          | .bool _ | .str _ => false
          | _ => true) = true) → resolveOperand cx.status cx.inst v2 ≠ .none →
        (Val.onScale u role (resolveOperand cx.status cx.inst v2)).asNum =
          onScale u role (resolveOperand cx.status cx.inst v2).asNum := by
      rintro role bare there
      cases role with
      | none => rw [onScale_none]; rfl
      | some delta =>
          cases read : resolveOperand cx.status cx.inst v2 with
          | num x => rfl
          | none => exact absurd read there
          | _ => simp [read] at bare
    refine ⟨numbers, kind _, ?_, ?_⟩
    · rintro rfl there
      exact number _ bare there
    · rintro rfl there
      exact number _ bare there
  · rw [compare_second second _ .none,
      compare_second second (resolveOperand cx.status cx.inst v2) .none]
    refine compare_onScale ?_
    rintro x y rfl rfl
    simp only [pairKept, Bool.and_eq_true] at kept
    refine ⟨kept.1, iff_of_true rfl rfl, ?_, ?_⟩
    · rintro rfl
      exact absurd (by decide) second
    · rintro rfl
      exact absurd (by decide) second

theorem compare_item {a : Val} {item : Json}
    (kept : operandKept u cx scale none false (some item) = true)
    (pair : pairKept u cx scale none "is" a (resolveOperand cx.status cx.inst (some item)) none 0 =
      true) :
    compare (a.onScale u scale) "is"
        (resolveOperand (expressed u cx.status) (cx.inst.expressed u) (some item)) .none 0 =
      compare a "is" (resolveOperand cx.status cx.inst (some item)) .none 0 := by
  have moved := resolveOperand_moved kept
  rw [Option.map_some, moveOperand_none, id] at moved
  rw [moved]
  have same := compare_moved pair
  rwa [conv_zero] at same

section Shapes

variable {node : Json} {trait : String}

theorem evalComparison_single (named : jget (some node) "trait" = some (.str trait))
    (single : ¬(jsonStr node ["op"] "==" = "is_one_of" ∨ jsonStr node ["op"] "==" = "is_none_of")) :
    evalComparison cx node =
      compare (traitOf cx.status cx.inst (jsonStr node ["entity"] "this") trait)
        (jsonStr node ["op"] "==") (resolveOperand cx.status cx.inst (jget (some node) "value"))
        (resolveOperand cx.status cx.inst (jget (some node) "value2")) cx.db := by
  simp only [evalComparison, named]
  exact if_neg single

theorem evalComparison_absent (named : jget (some node) "trait" = some (.str trait))
    (list : jsonStr node ["op"] "==" = "is_one_of" ∨ jsonStr node ["op"] "==" = "is_none_of")
    (absent : traitOf cx.status cx.inst (jsonStr node ["entity"] "this") trait = .none) :
    evalComparison cx node = false := by
  have read : traitOf cx.status cx.inst (strAt (some node) ["entity"] "this") trait = .none :=
    absent
  simp only [evalComparison, named, read]
  exact if_pos list

theorem evalComparison_list (named : jget (some node) "trait" = some (.str trait))
    (list : jsonStr node ["op"] "==" = "is_one_of" ∨ jsonStr node ["op"] "==" = "is_none_of")
    (there : traitOf cx.status cx.inst (jsonStr node ["entity"] "this") trait ≠ .none) :
    evalComparison cx node =
      if jsonStr node ["op"] "==" = "is_one_of" then
        (elements (jget (some node) "value")).any fun item =>
          compare (traitOf cx.status cx.inst (jsonStr node ["entity"] "this") trait) "is"
            (resolveOperand cx.status cx.inst (some item)) .none 0
      else
        !(elements (jget (some node) "value")).any fun item =>
          compare (traitOf cx.status cx.inst (jsonStr node ["entity"] "this") trait) "is"
            (resolveOperand cx.status cx.inst (some item)) .none 0 := by
  simp only [evalComparison, named]
  refine (if_pos list).trans ?_
  split
  case h_1 absent => exact absurd absent there
  case h_2 => rfl

end Shapes

theorem compare_none (op : String) (b b' b2 b2' : Val) (db db' : ℚ) :
    compare .none op b b2 db = compare .none op b' b2' db' := by
  delta compare
  split_ifs <;> rfl

theorem evalComparison_convert {node : Json} (kept : comparisonKept u cx node = true) :
    evalComparison (cx.expressed u) (convertComparison u cx.inst.domain node) =
      evalComparison cx node := by
  have trait : jget (some (convertComparison u cx.inst.domain node)) "trait" =
      jget (some node) "trait" := member?_convertComparison (by decide)
  have entity : jsonStr (convertComparison u cx.inst.domain node) ["entity"] "this" =
      jsonStr node ["entity"] "this" := jsonStr_convertComparison (by decide) (by decide)
  have op : jsonStr (convertComparison u cx.inst.domain node) ["op"] "==" =
      jsonStr node ["op"] "==" := jsonStr_convertComparison (by decide) (by decide)
  rcases found : jget (some node) "trait" with _ | v
  · simp only [evalComparison, trait, found]
  cases v with
  | str name =>
      rw [found] at trait
      simp only [comparisonKept, found, Bool.and_eq_true] at kept
      obtain ⟨signs, kept⟩ := kept
      have moved : traitOf (cx.expressed u).status (cx.expressed u).inst
          (jsonStr (convertComparison u cx.inst.domain node) ["entity"] "this") name =
            (traitOf cx.status cx.inst (jsonStr node ["entity"] "this") name).onScale u
              (scaleOf (domainOf cx.inst (jsonStr node ["entity"] "this")) name) := by
        rw [entity]
        exact traitOf_expressed signs
      by_cases list : jsonStr node ["op"] "==" = "is_one_of" ∨
          jsonStr node ["op"] "==" = "is_none_of"
      · by_cases absent : traitOf cx.status cx.inst (jsonStr node ["entity"] "this") name = .none
        · rw [evalComparison_absent found list absent]
          refine evalComparison_absent trait (op ▸ list) ?_
          rw [moved, absent]
          rfl
        · have there : (traitOf cx.status cx.inst (jsonStr node ["entity"] "this") name).onScale u
              (scaleOf (domainOf cx.inst (jsonStr node ["entity"] "this")) name) ≠ .none := by
            rintro gone
            cases read : traitOf cx.status cx.inst (jsonStr node ["entity"] "this") name with
            | none => exact absent read
            | _ => simp [read, Val.onScale] at gone
          split at kept
          case h_1 none => exact absurd none absent
          case h_2 =>
            rw [if_pos list] at kept
            have operands : (elements (jget (some node) "value")).all (fun item =>
                operandKept u cx
                  (scaleOf (domainOf cx.inst (jsonStr node ["entity"] "this")) name) none false
                  (some item)) = true := by
              rw [List.all_eq_true] at kept ⊢
              exact fun item inside => ((Bool.and_eq_true _ _).mp (kept item inside)).1
            have same := elements_moved (fun delta known => scaleOf_of_doneBy known) operands
            rw [evalComparison_list found list absent,
              evalComparison_list trait (op ▸ list) (moved ▸ there), op, moved,
              jget_convertComparison_value found, same]
            have items : ∀ item ∈ elements (jget (some node) "value"),
                compare ((traitOf cx.status cx.inst (jsonStr node ["entity"] "this") name).onScale u
                    (scaleOf (domainOf cx.inst (jsonStr node ["entity"] "this")) name)) "is"
                  (resolveOperand (cx.expressed u).status (cx.expressed u).inst (some item)) .none
                  0 =
                compare (traitOf cx.status cx.inst (jsonStr node ["entity"] "this") name) "is"
                  (resolveOperand cx.status cx.inst (some item)) .none 0 := by
              rintro item inside
              rw [List.all_eq_true] at kept
              obtain ⟨operand, pair⟩ := (Bool.and_eq_true _ _).mp (kept item inside)
              exact compare_item operand pair
            have anyone : ((elements (jget (some node) "value")).any fun item =>
                compare ((traitOf cx.status cx.inst (jsonStr node ["entity"] "this") name).onScale u
                    (scaleOf (domainOf cx.inst (jsonStr node ["entity"] "this")) name)) "is"
                  (resolveOperand (cx.expressed u).status (cx.expressed u).inst (some item)) .none
                  0) =
                (elements (jget (some node) "value")).any fun item =>
                  compare (traitOf cx.status cx.inst (jsonStr node ["entity"] "this") name) "is"
                    (resolveOperand cx.status cx.inst (some item)) .none 0 := by
              rw [Bool.eq_iff_iff, List.any_eq_true, List.any_eq_true]
              exact exists_congr fun item => and_congr_right fun inside => by
                rw [items item inside]
            rw [anyone]
      · split at kept
        case h_1 none =>
          rw [evalComparison_single found list, evalComparison_single trait (op ▸ list), moved, op,
            none]
          exact compare_none _ _ _ _ _ _ _
        case h_2 =>
          rw [if_neg list, Bool.and_eq_true] at kept
          obtain ⟨operand, pair⟩ := kept
          rw [evalComparison_single found list, evalComparison_single trait (op ▸ list), moved, op,
            jget_convertComparison_value found, jget_convertComparison_value2 found]
          have value := resolveOperand_moved operand
          have both := compare_moved pair
          rw [← value] at both
          exact both
  | _ => simp only [evalComparison, trait, found]

/-! ## Trees -/

mutual

/-- Whether every comparison of a condition says the same in the other unit. -/
def kept (u : Units) (cx : EvalCtx) : Json → Bool
  | .obj members =>
      match conditionsKept u cx members with
      | some all => all
      | none => comparisonKept u cx (.obj members)
  | _ => true

def conditionsKept (u : Units) (cx : EvalCtx) : List (String × Json) → Option Bool
  | [] => none
  | (name, .arr items) :: rest =>
      if name = "conditions" then some (itemsKept u cx items) else conditionsKept u cx rest
  | (name, _) :: rest => if name = "conditions" then none else conditionsKept u cx rest

def itemsKept (u : Units) (cx : EvalCtx) : List Json → Bool
  | [] => true
  | item :: rest => kept u cx item && itemsKept u cx rest

end

theorem evalConditions_none {members : List (String × Json)} :
    evalConditions cx members = none ↔ isArray (members.lookup "conditions") = false := by
  induction members with
  | nil => simp [evalConditions, isArray]
  | cons entry rest ih =>
      obtain ⟨key, value⟩ := entry
      by_cases here : key = "conditions"
      · subst here
        cases value <;> simp [evalConditions, isArray]
      · have apart : ("conditions" == key) = false := by simpa using Ne.symm here
        cases value <;> simp [evalConditions, here, apart, List.lookup_cons, ih]

theorem convertConditions_none {domain : String} {members : List (String × Json)} :
    convertConditions u domain members = none ↔ isArray (members.lookup "conditions") = false := by
  induction members with
  | nil => simp [convertConditions, isArray]
  | cons entry rest ih =>
      obtain ⟨key, value⟩ := entry
      by_cases here : key = "conditions"
      · subst here
        cases value <;> simp [convertConditions, isArray]
      · have apart : ("conditions" == key) = false := by simpa using Ne.symm here
        cases value <;> simp [convertConditions, here, apart, List.lookup_cons, ih]

theorem conditionsKept_none {members : List (String × Json)} :
    conditionsKept u cx members = none ↔ isArray (members.lookup "conditions") = false := by
  induction members with
  | nil => simp [conditionsKept, isArray]
  | cons entry rest ih =>
      obtain ⟨key, value⟩ := entry
      by_cases here : key = "conditions"
      · subst here
        cases value <;> simp [conditionsKept, isArray]
      · have apart : ("conditions" == key) = false := by simpa using Ne.symm here
        cases value <;> simp [conditionsKept, here, apart, List.lookup_cons, ih]

theorem lookup_convertConditions {domain name : String} (aside : name ≠ "conditions")
    {members converted : List (String × Json)}
    (group : convertConditions u domain members = some converted) :
    converted.lookup name = members.lookup name := by
  induction members generalizing converted with
  | nil => simp [convertConditions] at group
  | cons entry rest ih =>
      obtain ⟨key, value⟩ := entry
      by_cases here : key = "conditions"
      · subst here
        have apart : (name == "conditions") = false := by simpa using aside
        cases value with
        | arr items =>
            rw [convertConditions, if_pos rfl, Option.some_inj] at group
            subst group
            simp [List.lookup_cons, apart]
        | _ => simp [convertConditions] at group
      · have later : ∃ after, convertConditions u domain rest = some after ∧
            converted = (key, value) :: after := by
          cases value <;>
            simpa [convertConditions, here, Option.map_eq_some_iff, eq_comm] using group
        obtain ⟨after, found, rfl⟩ := later
        rw [List.lookup_cons, List.lookup_cons, ih found]

theorem convertComparison_obj (u : Units) (domain : String) (members : List (String × Json)) :
    ∃ after, convertComparison u domain (.obj members) = .obj after ∧
      ∀ name ∉ ["value", "value2", "deadband"], after.lookup name = members.lookup name := by
  have shape : ∃ after, convertComparison u domain (.obj members) = .obj after := by
    simp only [convertComparison]
    split
    · split
      · exact ⟨members, rfl⟩
      · exact ⟨_, rfl⟩
    · exact ⟨members, rfl⟩
  obtain ⟨after, same⟩ := shape
  refine ⟨after, same, fun name aside => ?_⟩
  have kept : (convertComparison u domain (.obj members)).member? name =
      (Json.obj members).member? name := member?_convertComparison aside
  rwa [same] at kept

theorem jsonPath_lookup {name : String} {members after : List (String × Json)}
    (named : name.toList.all Char.isDigit = false)
    (same : after.lookup name = members.lookup name) :
    jsonPath (.obj after) [name] = jsonPath (.obj members) [name] := by
  simp only [jsonPath, Json.enter?_name named, Json.member?, same]

theorem heldLongEnough_congr {now : ℚ} {path : UInt32} {members after : List (String × Json)}
    (same : after.lookup "for_s" = members.lookup "for_s") :
    heldLongEnough now path (.obj after) = heldLongEnough now path (.obj members) := by
  have need : jsonNum (.obj after) ["for_s"] 0 = jsonNum (.obj members) ["for_s"] 0 := by
    rw [jsonNum, jsonNum, jsonNum?, jsonNum?, jsonPath_lookup (by decide) same]
  funext r clocks
  simp only [heldLongEnough, need]

theorem evalGroup_congr {members after : List (String × Json)} (kids : List Evaluation)
    (same : after.lookup "op" = members.lookup "op") :
    evalGroup (.obj after) kids = evalGroup (.obj members) kids := by
  have op : jsonStr (.obj after) ["op"] "all" = jsonStr (.obj members) ["op"] "all" := by
    rw [jsonStr, jsonStr, jsonPath_lookup (by decide) same]
  funext path clocks
  simp only [evalGroup, op]

mutual

theorem evalPath_convert : ∀ node : Json, kept u cx node = true →
    evalPath (cx.expressed u) (convertNode u cx.inst.domain node) = evalPath cx node
  | .obj members, same => by
      have group := evalConditions_convert members fun all found => by
        simpa only [kept, found] using same
      cases inside : convertConditions u cx.inst.domain members with
      | some converted =>
          have others := fun name (aside : name ≠ "conditions") =>
            lookup_convertConditions aside inside
          rw [inside, Option.map_some] at group
          obtain ⟨kids, found, there⟩ := Option.map_eq_some_iff.mp group.symm
          funext path clocks
          simp only [convertNode, inside, evalPath, found, ← there,
            evalGroup_congr kids (others "op" (by decide)),
            heldLongEnough_congr (others "for_s" (by decide))]
          rfl
      | none =>
          have plain := convertConditions_none.mp inside
          obtain ⟨after, moved, others⟩ := convertComparison_obj u cx.inst.domain members
          have single : evalConditions cx members = none := evalConditions_none.mpr plain
          have still : evalConditions (cx.expressed u) after = none := by
            rw [evalConditions_none, others "conditions" (by decide)]
            exact plain
          have comparison : comparisonKept u cx (.obj members) = true := by
            simpa only [kept, conditionsKept_none.mpr plain] using same
          have said := evalComparison_convert comparison
          rw [moved] at said
          funext path clocks
          simp only [convertNode, inside, moved, evalPath, single, still, said,
            heldLongEnough_congr (others "for_s" (by decide))]
          rfl
  | .null, _ => rfl
  | .bool _, _ => rfl
  | .num _, _ => rfl
  | .str _, _ => rfl
  | .arr _, _ => rfl

theorem evalConditions_convert : ∀ members : List (String × Json),
    (∀ all, conditionsKept u cx members = some all → all = true) →
      (convertConditions u cx.inst.domain members).map (evalConditions (cx.expressed u)) =
        (evalConditions cx members).map some
  | [], _ => rfl
  | (name, value) :: rest, same => by
      by_cases here : name = "conditions"
      · subst here
        cases value with
        | arr items =>
            have inside : itemsKept u cx items = true := same _ (by simp [conditionsKept])
            simp [convertConditions, evalConditions, evalItems_convert items inside]
        | _ => simp [convertConditions, evalConditions]
      · have later := evalConditions_convert rest fun all found =>
          same all (by cases value <;> simpa [conditionsKept, here] using found)
        have front : (convertConditions u cx.inst.domain ((name, value) :: rest)).map
            (evalConditions (cx.expressed u)) =
              (convertConditions u cx.inst.domain rest).map (evalConditions (cx.expressed u)) := by
          cases value <;>
            simp [convertConditions, here, Option.map_map, Function.comp_def, evalConditions]
        have back : evalConditions cx ((name, value) :: rest) = evalConditions cx rest := by
          cases value <;> simp [evalConditions, here]
        rw [front, back, later]

theorem evalItems_convert : ∀ items : List Json, itemsKept u cx items = true →
    evalItems (cx.expressed u) (convertItems u cx.inst.domain items) = evalItems cx items
  | [], _ => rfl
  | item :: rest, same => by
      rw [itemsKept, Bool.and_eq_true] at same
      rw [convertItems, evalItems, evalItems, evalPath_convert item same.1,
        evalItems_convert rest same.2]

end

/-! ## Rules -/

/-- Whether the deadband in force moves with the rule. -/
def deadbandKept (rule : Json) (db : ℚ) : Bool :=
  db = 0 ||
    match jget (some rule) "deadband" with
    | some (.num _) => true
    | _ => false

/-- Whether a rule says the same for an instance in the other unit. -/
def ruleKept (u : Units) (t : Tick) (rule : Json) (i : Inst) (slots : List Slot) : Bool :=
  match jget (some rule) "when" with
  | none => true
  | some cond =>
      let (place, slots) := stateFor (ruleId rule) i.label slots
      let pre := place.bind fun k => slots[k]?
      let db := if pre.any (·.raised) then jsonNum rule ["deadband"] 0 else 0
      deadbandKept rule db && kept u ⟨t.status, i, db, t.now⟩ cond

section Converted

variable {rule : Json}

theorem member?_convertRule {name : String} (aside : name ∉ ["when", "deadband"]) :
    (convertRule u rule).member? name = rule.member? name := by
  simp only [List.mem_cons, List.not_mem_nil, or_false, not_or] at aside
  simp [convertRule, aside]

theorem jget_convertRule_when :
    jget (some (convertRule u rule)) "when" =
      (jget (some rule) "when").map (convertNode u (jsonStr rule ["select", "domain"] "grill")) := by
  simp [convertRule, jget]

theorem domain_of_selected {status : Json} {i : Inst}
    (chosen : i ∈ selectInstances status rule) :
    i.domain = jsonStr rule ["select", "domain"] "grill" := by
  have select : "select".toList.all Char.isDigit = false := by decide
  have domain : strAt (jget (some rule) "select") ["domain"] "grill" =
      jsonStr rule ["select", "domain"] "grill" := by
    simp only [strAt, jsonStr, jsonPath, Json.enter?_name select, jget, Option.bind_some]
    cases rule.member? "select" <;> rfl
  simp only [selectInstances, domain] at chosen
  split_ifs at chosen with probe output
  · obtain ⟨p, _, rfl⟩ := List.mem_map.mp chosen
    exact probe.symm
  · obtain ⟨name, _, rfl⟩ := List.mem_map.mp chosen
    exact output.symm
  · rw [List.mem_singleton.mp chosen]

theorem selectInstances_convertRule (status : Json) :
    selectInstances (expressed u status) (convertRule u rule) =
      (selectInstances status rule).map (Inst.expressed u) := by
  have select : jget (some (convertRule u rule)) "select" = jget (some rule) "select" :=
    member?_convertRule (by decide)
  rw [← selectInstances_expressed]
  simp only [selectInstances, select]

theorem deadband_convertRule {raised : Bool}
    (kept : deadbandKept rule (if raised then jsonNum rule ["deadband"] 0 else 0) = true) :
    (if raised then jsonNum (convertRule u rule) ["deadband"] 0 else 0) =
      conv u true (if raised then jsonNum rule ["deadband"] 0 else 0) := by
  cases raised with
  | false => exact (conv_zero u).symm
  | true =>
      have named : "deadband".toList.all Char.isDigit = false := by decide
      have moved : (convertRule u rule).member? "deadband" =
          (rule.member? "deadband").map (.onNumber (conv u true)) := by
        simp [convertRule]
      simp only [if_true, deadbandKept, Bool.or_eq_true, decide_eq_true_eq] at kept ⊢
      rcases kept with none | number
      · rw [none, conv_zero]
        simp only [jsonNum, jsonNum?, jsonPath, Json.enter?_name named, moved] at none ⊢
        cases found : rule.member? "deadband" with
        | none => rfl
        | some v =>
            rw [found] at none
            cases v with
            | num x =>
                have zero : x = 0 := none
                subst zero
                exact conv_zero u
            | _ => exact none
      · simp only [jsonNum, jsonNum?, jsonPath, Json.enter?_name named, moved]
        cases found : rule.member? "deadband" with
        | none => simp [jget, found] at number
        | some v =>
            cases v with
            | num x => rfl
            | _ => simp [jget, found] at number

end Converted

/-- A converted rule watches the same instances of the same grill in the other unit
and says the same of each: its condition is true or false as before, and leaves
the same clocks. -/
theorem rule_means_the_same {t : Tick} {rule : Json} {i : Inst} {slots : List Slot}
    (chosen : i ∈ selectInstances t.status rule) (same : ruleKept u t rule i slots = true) :
    i.expressed u ∈ selectInstances (t.expressed u).status (convertRule u rule) ∧
      look (t.expressed u) (convertRule u rule) (i.expressed u) slots = look t rule i slots := by
  have watched : i.expressed u ∈ selectInstances (t.expressed u).status (convertRule u rule) := by
    rw [Tick.expressed, selectInstances_convertRule]
    exact List.mem_map_of_mem chosen
  refine ⟨watched, ?_⟩
  have id : ruleId (convertRule u rule) = ruleId rule := by
    have named : "id".toList.all Char.isDigit = false := by decide
    have aside : "id" ∉ ["when", "deadband"] := by decide
    simp only [ruleId, jsonStr, jsonPath, Json.enter?_name named, member?_convertRule aside]
  simp only [look, id, jget_convertRule_when]
  rw [ruleKept] at same
  cases found : jget (some rule) "when" with
  | none => rfl
  | some cond =>
      simp only [found, Bool.and_eq_true] at same
      obtain ⟨deadband, tree⟩ := same
      have said := evalPath_convert cond tree
      simp only [domain_of_selected chosen] at said
      have label : (i.expressed u).label = i.label := rfl
      simp only [Option.map_some, label]
      generalize stateFor (ruleId rule) i.label slots = state at *
      simp only [EvalCtx.expressed] at said
      rw [← deadband_convertRule deadband] at said
      simp only [evalNodeAt, Tick.expressed, said]

/-- A rule that compares a food probe with its target, and the pit with a
range. -/
def nearTarget : Json :=
  .obj [("id", .str "near"), ("select", .obj [("domain", .str "probe"), ("role", .str "Food")]),
    ("when", .obj [("op", .str "all"), ("conditions", .arr
      [.obj [("trait", .str "temp"), ("op", .str ">="),
          ("value", .obj [("trait", .str "target"), ("offset", .num (-5))])],
        .obj [("entity", .str "grill"), ("trait", .str "temp"), ("op", .str "between"),
          ("value", .num 200), ("value2", .num 250)]])]),
    ("deadband", .num 3)]

/-- A grill at its set point, with a probe close to its target. -/
def cookingStatus : Json :=
  .obj [("setpoint", .num 225), ("hopper_pct", .num 24), ("probes", .arr
    [.obj [("label", .str "Pit"), ("role", .str "Primary"), ("enabled", .bool true),
        ("temp", .num 226)],
      .obj [("label", .str "Meat"), ("role", .str "Food"), ("enabled", .bool true),
        ("temp", .num 161), ("target", .num 165)]])]

/-- The probe the rule watches. -/
def meat : Inst :=
  ⟨"probe", "Meat", some (.obj [("label", .str "Meat"), ("role", .str "Food"),
    ("enabled", .bool true), ("temp", .num 161), ("target", .num 165)])⟩

theorem rule_means_the_same_near :
    look (Tick.expressed .c ⟨.arr [nearTarget], cookingStatus, 10, 10⟩) (convertRule .c nearTarget)
        (meat.expressed .c) [] =
      look ⟨.arr [nearTarget], cookingStatus, 10, 10⟩ nearTarget meat [] :=
  (rule_means_the_same (show meat ∈ [meat] from List.mem_singleton_self meat)
    (by decide +kernel)).2

/-- A shipped rule, about the hopper's level in percent. -/
def hopperLow : Json :=
  .obj [("id", .str "hopper-low"), ("select", .obj [("domain", .str "hopper")]),
    ("when", .obj [("op", .str "all"), ("conditions", .arr
      [.obj [("trait", .str "level"), ("op", .str "<"), ("value", .num 20)]])]),
    ("deadband", .num 5)]

/-- The state of a rule that is reporting. -/
def reporting (rule inst : String) : Slot := { Slot.fresh rule inst with raised := true }

/-- A converted rule does not always say the same: the deadband of a percentage is
converted as if it were degrees, and a report about the hopper ends at once. -/
theorem hopper_report_ends :
    ¬∀ (u : Units) (t : Tick) (rule : Json) (i : Inst) (slots : List Slot),
      i ∈ selectInstances t.status rule →
        (look (t.expressed u) (convertRule u rule) (i.expressed u) slots).1 =
          (look t rule i slots).1 := by
  rintro holds
  have same := holds .c ⟨.arr [hopperLow], cookingStatus, 10, 10⟩ hopperLow
    ⟨"hopper", "hopper", none⟩ [reporting "hopper-low" "hopper"] (List.mem_singleton_self _)
  revert same
  decide +kernel

end PiFire.Rules
