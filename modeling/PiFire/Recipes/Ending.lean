import PiFire.Recipes.Store
import PiFire.Text.RoundTrip

/-!
# The ending of a stored step

The tree a step was saved with goes through two texts before the runner has it.
What the runner has is the same tree, with its numbers as the texts keep them, or
nothing where the second text has no room for it.
-/

namespace PiFire

open Rules

namespace Json

section Reading

variable (f : ℚ → ℚ) (node : Json) (name : String)

theorem member?_mapNumbers :
    (node.mapNumbers f).member? name = (node.member? name).map (mapNumbers f) := by
  cases node with
  | obj members =>
      rw [mapNumbers, member?, member?, mapNumbersMembers_eq]
      induction members with
      | nil => rfl
      | cons entry rest ih =>
          obtain ⟨key, value⟩ := entry
          rw [List.map_cons, List.lookup_cons, List.lookup_cons]
          by_cases same : name == key
          · simp [same]
          · simpa [same] using ih
  | _ => rfl

theorem memberAnyCase?_mapNumbers :
    (node.mapNumbers f).memberAnyCase? name = (node.memberAnyCase? name).map (mapNumbers f) := by
  cases node with
  | obj members =>
      rw [mapNumbers, memberAnyCase?, memberAnyCase?, mapNumbersMembers_eq, List.find?_map,
        Option.map_map, Option.map_map]
      rfl
  | _ => rfl

variable {name} (named : name.toList.all Char.isDigit = false)

include named

theorem jsonPath_mapNumbers :
    jsonPath (node.mapNumbers f) [name] = (jsonPath node [name]).map (mapNumbers f) := by
  have single (node : Json) : jsonPath node [name] = node.member? name := by
    rw [jsonPath, enter?_name named]
    cases node.member? name <;> rfl
  rw [single, single, member?_mapNumbers]

theorem jsonStr_mapNumbers (dflt : String) :
    jsonStr (node.mapNumbers f) [name] dflt = jsonStr node [name] dflt := by
  rw [jsonStr, jsonStr, jsonPath_mapNumbers f node named]
  cases jsonPath node [name] with
  | none => rfl
  | some value => cases value <;> rfl

theorem jsonBool_mapNumbers (zero : ∀ x, f x = 0 ↔ x = 0) (dflt : Bool) :
    jsonBool (node.mapNumbers f) [name] dflt = jsonBool node [name] dflt := by
  rw [jsonBool, jsonBool, jsonPath_mapNumbers f node named]
  cases jsonPath node [name] with
  | none => rfl
  | some value =>
      cases value with
      | num x => simp [mapNumbers, zero]
      | _ => rfl

theorem jsonNum_mapNumbers_pos (positive : ∀ x, 0 < f x ↔ 0 < x) :
    0 < jsonNum (node.mapNumbers f) [name] 0 ↔ 0 < jsonNum node [name] 0 := by
  rw [jsonNum, jsonNum, jsonNum?, jsonNum?, jsonPath_mapNumbers f node named]
  cases jsonPath node [name] with
  | none => rfl
  | some value =>
      cases value with
      | num x => exact positive x
      | _ => rfl

end Reading

theorem fits_mono {node : Json} {limit more : ℕ} (within : limit ≤ more)
    (fits : node.fits limit = true) : node.fits more = true := by
  induction limit generalizing node more with
  | zero => cases node <;> first | (cases fits; done) | exact fits
  | succ limit ih =>
      obtain ⟨more, rfl⟩ : ∃ less, more = less + 1 := ⟨more - 1, by omega⟩
      have below : limit ≤ more := by omega
      cases node with
      | arr items =>
          refine fitsItems_iff.mpr fun item inside => ?_
          exact ih below (fitsItems_iff.mp fits item inside)
      | obj members =>
          refine fitsMembers_iff.mpr fun entry inside => ?_
          obtain ⟨name, value⟩ := fitsMembers_iff.mp fits entry inside
          exact ⟨name, ih below value⟩
      | _ => exact fits

theorem fits_memberAnyCase? {node found : Json} {name : String} {limit : ℕ}
    (fits : node.fits limit = true) (member : node.memberAnyCase? name = some found) :
    found.fits limit = true := by
  cases node with
  | obj members =>
      cases limit with
      | zero => cases fits
      | succ limit =>
          obtain ⟨entry, picked, rfl⟩ := Option.map_eq_some_iff.mp member
          have inside := List.mem_of_find?_eq_some picked
          exact fits_mono (Nat.le_succ limit) (fitsMembers_iff.mp fits entry inside).2
  | _ => cases member

theorem fits_item {items : List Json} {item : Json} {limit : ℕ}
    (fits : (Json.arr items).fits limit = true) (inside : item ∈ items) :
    item.fits limit = true := by
  cases limit with
  | zero => cases fits
  | succ limit => exact fits_mono (Nat.le_succ limit) (fitsItems_iff.mp fits item inside)

end Json

open Json

theorem shape_onMember {f : Json → Json} (same : ∀ value, (f value).shape = value.shape)
    (name : String) (node : Json) : (node.onMember name f).shape = node.shape := by
  cases node with
  | obj members =>
      change Json.obj (mapNumbersMembers _ (modifyMember name f members)) =
        Json.obj (mapNumbersMembers _ members)
      congr 1
      induction members with
      | nil => rfl
      | cons entry rest ih =>
          obtain ⟨key, value⟩ := entry
          rw [modifyMember]
          split
          · simp only [mapNumbersMembers]
            rw [show mapNumbers (fun _ => 0) (f value) = mapNumbers (fun _ => 0) value from
              same value]
          · simp only [mapNumbersMembers, ih]
  | _ => rfl

theorem shape_onNumber (f : ℚ → ℚ) (node : Json) : (node.onNumber f).shape = node.shape := by
  cases node <;> rfl

theorem shape_convertValue (u : Units) (delta : Bool) (node : Json) :
    (convertValue u delta node).shape = node.shape := by
  cases node with
  | obj members => exact shape_onMember (shape_onNumber (conv u true)) "offset" (.obj members)
  | _ => rfl

theorem shape_convertComparison (u : Units) (domain : String) (node : Json) :
    (convertComparison u domain node).shape = node.shape := by
  unfold convertComparison
  split
  · extract_lets entity
    split
    · rfl
    · rw [shape_onMember (shape_onNumber _), shape_onMember (shape_onNumber _),
        shape_onMember (shape_convertValue _ _)]
  · rfl

mutual

theorem shape_convertNode (u : Units) (domain : String) (node : Json) :
    (convertNode u domain node).shape = node.shape := by
  cases node with
  | obj members =>
      rw [convertNode]
      split
      · next converted found =>
          exact congrArg Json.obj (shape_convertConditions u domain members converted found)
      · exact shape_convertComparison u domain _
  | _ =>
      simp only [convertNode]
      exact shape_convertComparison u domain _

theorem shape_convertConditions (u : Units) (domain : String) (members : List (String × Json)) :
    ∀ converted, convertConditions u domain members = some converted →
      mapNumbersMembers (fun _ => 0) converted = mapNumbersMembers (fun _ => 0) members := by
  intro converted found
  cases members with
  | nil => cases found
  | cons entry rest =>
      obtain ⟨name, value⟩ := entry
      have later (tail) (found : (convertConditions u domain rest).map tail = some converted)
          (same : tail = ((name, value) :: ·)) :
          mapNumbersMembers (fun _ => 0) converted =
            mapNumbersMembers (fun _ => 0) ((name, value) :: rest) := by
        obtain ⟨others, inner, rfl⟩ := Option.map_eq_some_iff.mp found
        rw [same]
        simp only [mapNumbersMembers, shape_convertConditions u domain rest others inner]
      cases value with
      | arr items =>
          rw [convertConditions] at found
          split at found
          · obtain rfl := Option.some_inj.mp found
            simp only [mapNumbersMembers, mapNumbers, shape_convertItems u domain items]
          · exact later _ found rfl
      | _ =>
          rw [convertConditions] at found
          · split at found
            · cases found
            · exact later _ found rfl
          · intro _ same
            cases same

theorem shape_convertItems (u : Units) (domain : String) (items : List Json) :
    mapNumbersItems (fun _ => 0) (convertItems u domain items) =
      mapNumbersItems (fun _ => 0) items := by
  cases items with
  | nil => rfl
  | cons item rest =>
      simp only [convertItems, mapNumbersItems, shape_convertItems u domain rest]
      rw [show mapNumbers (fun _ => 0) (convertNode u domain item) = mapNumbers (fun _ => 0) item
        from shape_convertNode u domain item]

end

theorem shape_convertTree (domain : String) (source target : Units) (tree : Json) :
    (convertTree domain source target tree).shape = tree.shape := by
  unfold convertTree
  split
  · rfl
  · exact shape_convertNode _ _ _

theorem mapNumbersItems_append (f : ℚ → ℚ) (items others : List Json) :
    mapNumbersItems f (items ++ others) = mapNumbersItems f items ++ mapNumbersItems f others := by
  simp only [mapNumbersItems_eq, List.map_append]

/-- How a library that keeps the sign of every number keeps numbers. -/
structure KeepsSign (f : ℚ → ℚ) : Prop where
  positive : ∀ x, 0 < f x ↔ 0 < x
  zero : ∀ x, f x = 0 ↔ x = 0

theorem NumberFormat.Lawful.keepsSign {format : NumberFormat} (lawful : format.Lawful) :
    KeepsSign format.kept where
  positive x := (lawful.signed x _ _ (kept_read lawful x)).1
  zero x := (lawful.signed x _ _ (kept_read lawful x)).2

section Saved

variable {f : ℚ → ℚ} (signs : KeepsSign f)

include signs

theorem shape_endsFromOldFields (s : Json) :
    (endsFromOldFields (s.mapNumbers f)).shape = (endsFromOldFields s).shape := by
  have timed := jsonNum_mapNumbers_pos f s (by decide : "timer_min".toList.all _ = _) signs.positive
  have aimed := jsonNum_mapNumbers_pos f s (by decide : "probe_temp".toList.all _ = _)
    signs.positive
  have match_ := jsonStr_mapNumbers f s (by decide : "probe_match".toList.all _ = _) "any"
  have carry := jsonBool_mapNumbers f s (by decide : "carryover".toList.all _ = _) signs.zero false
  have pause := jsonBool_mapNumbers f s (by decide : "pause".toList.all _ = _) signs.zero false
  have wait (dflt : String) := jsonStr_mapNumbers f s (by decide : "wait".toList.all _ = _) dflt
  simp only [endsFromOldFields, match_, carry, pause, wait, shape, mapNumbers, mapNumbersMembers,
    mapNumbersItems_append]
  by_cases mins : 0 < jsonNum s ["timer_min"] 0
  · by_cases pt : 0 < jsonNum s ["probe_temp"] 0
    · simp only [gt_iff_lt, timed.mpr mins, mins, aimed.mpr pt, pt, if_true]
      rfl
    · simp only [gt_iff_lt, timed.mpr mins, mins, aimed, pt, if_true, if_false]
      rfl
  · by_cases pt : 0 < jsonNum s ["probe_temp"] 0
    · simp only [gt_iff_lt, timed, mins, aimed.mpr pt, pt, if_true, if_false]
      rfl
    · simp only [gt_iff_lt, timed, mins, aimed, pt, if_false]

theorem shape_savedTree (s : Json) :
    (savedTree (s.mapNumbers f)).shape = (savedTree s).shape := by
  rw [savedTree, savedTree, memberAnyCase?_mapNumbers]
  cases s.memberAnyCase? "ends" with
  | none => exact shape_endsFromOldFields signs s
  | some tree => exact shape_mapNumbers f tree

theorem shape_endingTree (u : Units) (s : Json) :
    (endingTree u (s.mapNumbers f)).shape = (savedTree s).shape := by
  rw [endingTree, shape_convertTree, shape_savedTree signs]

end Saved

theorem treeEmpty_of_shape {j k : Json} (same : j.shape = k.shape) :
    treeEmpty (some j) = treeEmpty (some k) := by
  have shaped (node : Json) : treeEmpty (some node.shape) = treeEmpty (some node) := by
    simp only [treeEmpty, shape, memberAnyCase?_mapNumbers, Option.isSome_map]
    split
    · rfl
    · cases node.memberAnyCase? "conditions" with
      | none => rfl
      | some kids =>
          cases kids with
          | arr items => cases items <;> rfl
          | _ => rfl
  rw [← shaped j, same, shaped k]

theorem treeEmpty_of_not_obj {node : Json} (plain : ∀ members, node ≠ .obj members) :
    treeEmpty (some node) = true := by
  cases node with
  | obj members => exact absurd rfl (plain members)
  | _ => rfl

theorem group_fits {op : String} (whole : unbroken op = true) {terms : List Json} {limit : ℕ}
    (fits : ∀ term ∈ terms, term.fits limit = true) :
    ∀ term ∈ group op terms, term.fits (limit + 2) = true := by
  intro term inside
  match terms, inside with
  | [one], inside =>
      obtain rfl := List.mem_singleton.mp inside
      exact fits_mono (by omega) (fits _ (List.mem_singleton_self _))
  | first :: second :: rest, inside =>
      obtain rfl := List.mem_singleton.mp inside
      have all : fitsItems (first :: second :: rest) limit = true := fitsItems_iff.mpr fits
      simp only [Json.fits, fitsMembers, whole, all, Bool.and_true]
      decide

theorem endsFromOldFields_fits (s : Json) : (endsFromOldFields s).fits nestingLimit = true := by
  unfold endsFromOldFields
  extract_lets mins pt all carry trait reached w asked parts
  have named : trait ∈ ["food_rested", "food_min", "food_max"] := by
    unfold trait
    split_ifs <;> decide
  have reaching (name : String) (whole : unbroken name = true) (value : ℚ) :
      (reaches name value).fits 996 = true := by
    simp only [reaches, Json.fits, fitsMembers, whole]
    decide
  have signalling (name : String) (whole : unbroken name = true) :
      (signalled name).fits 996 = true := by
    simp only [signalled, Json.fits, fitsMembers, whole]
    decide
  have reachedFits : ∀ term ∈ reached, term.fits 996 = true := by
    refine List.forall_mem_append.mpr ⟨?_, ?_⟩
    · split_ifs
      · exact List.forall_mem_singleton.mpr (reaching _ (by decide) _)
      · exact List.forall_mem_nil _
    · split_ifs
      · refine List.forall_mem_singleton.mpr (reaching _ ?_ _)
        exact (by decide : ∀ name ∈ ["food_rested", "food_min", "food_max"],
          unbroken name = true) trait named
      · exact List.forall_mem_nil _
  have askedFits : ∀ term ∈ asked, term.fits 996 = true := by
    unfold asked
    split_ifs
    · exact List.forall_mem_cons.mpr ⟨signalling _ (by decide),
        List.forall_mem_singleton.mpr (signalling _ (by decide))⟩
    · exact List.forall_mem_singleton.mpr (signalling _ (by decide))
    · exact List.forall_mem_nil _
  have listed : fitsItems parts 998 = true := by
    refine fitsItems_iff.mpr fun term inside => ?_
    rcases List.mem_append.mp inside with reachedPart | askedPart
    · exact group_fits (by decide) reachedFits term reachedPart
    · refine group_fits ?_ askedFits term askedPart
      split_ifs <;> decide
  change (unbroken "op" && unbroken "all" &&
    (unbroken "conditions" && fitsItems parts 998 && true)) = true
  rw [listed]
  decide

theorem savedTree_fits {s : Json} (fits : s.fits nestingLimit = true) :
    (savedTree s).fits nestingLimit = true := by
  rw [savedTree]
  cases own : s.memberAnyCase? "ends" with
  | none => exact endsFromOldFields_fits s
  | some tree => exact fits_memberAnyCase? fits own

/-- Whether the step has room for the text of its ending. -/
def EndsRoom (format : NumberFormat) (s : Json) (u : Units) : Prop :=
  (printUnformatted format (endingTree u s)).length < recipeEndsLen

/-- Whether the numbers of the converted tree are the same after the step has been
written and read, and its ending once more. -/
def NumbersReturn (format : NumberFormat) (s : Json) (u : Units) : Prop :=
  (endingTree u (s.mapNumbers format.kept)).numbers.map format.kept = (endingTree u s).numbers

section Stored

variable {format : NumberFormat} (lawful : format.Lawful) {u : Units} {s : Json}

include lawful

/-- The runner has the tree with its numbers as they are kept, or nothing. -/
theorem storedEnds_eq (fits : s.fits nestingLimit = true)
    (speaks : treeEmpty (some (savedTree s)) = false) :
    storedEnds format s u =
      if (printUnformatted format (endingTree u s)).length < recipeEndsLen then
        some ((endingTree u s).mapNumbers format.kept)
      else none := by
  have shaped : (endingTree u s).shape = (savedTree s).shape := shape_convertTree _ _ _ _
  have fitting : (endingTree u s).fits nestingLimit = true := by
    rw [fits_of_shape shaped]
    exact savedTree_fits fits
  rw [storedEnds, endsText]
  split
  · next room =>
      rw [List.take_of_length_le (Nat.le_sub_one_of_lt room)]
      exact parse_print lawful fitting
  · next isOver =>
      cases tree : endingTree u s with
      | obj members =>
          rw [tree] at fitting isOver
          have cut : recipeEndsLen - 1 < (printUnformatted format (.obj members)).length := by
            unfold recipeEndsLen at isOver ⊢
            omega
          exact parse_take_object lawful fitting cut
      | _ =>
          rw [← treeEmpty_of_shape shaped, tree, treeEmpty_of_not_obj (fun _ same => by cases same)]
            at speaks
          cases speaks

theorem storedEnds_iff (fits : s.fits nestingLimit = true)
    (speaks : treeEmpty (some (savedTree s)) = false) :
    storedEnds format (s.mapNumbers format.kept) u = some (endingTree u s) ↔
      EndsRoom format (s.mapNumbers format.kept) u ∧ NumbersReturn format s u := by
  have stored : treeEmpty (some (savedTree (s.mapNumbers format.kept))) = false := by
    rw [treeEmpty_of_shape (shape_savedTree lawful.keepsSign s), speaks]
  rw [storedEnds_eq lawful (by rw [fits_mapNumbers, fits]) stored, EndsRoom]
  split
  · next room =>
      have shaped : ((endingTree u (s.mapNumbers format.kept)).mapNumbers format.kept).shape =
          (endingTree u s).shape := by
        rw [shape_mapNumbers, shape_endingTree lawful.keepsSign]
        exact (shape_convertTree _ _ _ _).symm
      rw [Option.some_inj, eq_iff_numbers shaped, numbers_mapNumbers, NumbersReturn]
      simp only [room, true_and]
  · next isOver => simp only [isOver, false_and, reduceCtorEq]

theorem storedEnds_over (fits : s.fits nestingLimit = true)
    (speaks : treeEmpty (some (savedTree s)) = false)
    (isOver : ¬EndsRoom format (s.mapNumbers format.kept) u) :
    storedEnds format (s.mapNumbers format.kept) u = none := by
  have stored : treeEmpty (some (savedTree (s.mapNumbers format.kept))) = false := by
    rw [treeEmpty_of_shape (shape_savedTree lawful.keepsSign s), speaks]
  rw [storedEnds_eq lawful (by rw [fits_mapNumbers, fits]) stored]
  exact if_neg isOver

end Stored

end PiFire
