import PiFire.Control.Json

/-!
# Recipes

A recipe is a list of at most sixteen steps, decoded from the database row it
is stored in. The condition tree that ends a step is read back from the text
kept in the step; how an old step's fields become a tree, and the conversion of
its temperatures, are the store's own.
-/

namespace PiFire

/-- How many steps a recipe may have. -/
def recipeMaxSteps : ℕ := 16

/-- One step, with its temperatures in Celsius. -/
structure RecipeStep where
  mode : Mode
  setpointC : ℚ
  sPlus : Bool
  /-- The condition tree that ends the step; `none` when it says nothing. -/
  ends : Option Json
  /-- How long before its end the step is announced; zero for no warning. -/
  leadS : ℚ

/-- The step the runner's array holds past the last one. -/
def RecipeStep.zero : RecipeStep :=
  { mode := .stop, setpointC := 0, sPlus := false, ends := none, leadS := 0 }

/-- A recipe as the runner holds it. -/
structure Recipe where
  id : ℤ
  steps : List RecipeStep

/-- The empty recipe, which a load starts from. -/
def Recipe.zero : Recipe :=
  { id := 0, steps := [] }

/-- How many steps the recipe has. -/
def Recipe.nsteps (r : Recipe) : ℕ := r.steps.length

/-- The step at an index. -/
def Recipe.stepAt (r : Recipe) (i : ℕ) : RecipeStep :=
  r.steps.getD i .zero

/-- A row of the recipes table; `steps` is `none` when its text is not JSON. -/
structure RecipeRow where
  steps : Option Json
  units : Option String

/-- The recipes table, and the condition tree a stored step runs with: its own
tree, or the one its older fields amount to, converted to Celsius and read back
from the step's text. -/
structure RecipeStore where
  row : ℤ → Option RecipeRow
  ends : Json → Units → Option Json

/-- The unit a recipe was written in: the grill's own when the row has none. -/
def recipeUnits (units : Option String) (grill : Units) : Units :=
  match units.bind fun text => text.toList.head? with
  | some first => if first = 'C' ∨ first = 'c' then .c else .f
  | none => grill

/-- Decode one stored step. -/
def decodeStep (store : RecipeStore) (u : Units) (s : Json) : RecipeStep :=
  let sp := jsonNum s ["setpoint"] 0
  { mode := (modeFromName (jsonStr s ["mode"] "Hold")).getD .hold
    setpointC := if sp > 0 then toC sp u else 0
    sPlus := jsonBool s ["s_plus"] false
    ends := store.ends s u
    leadS := jsonNum s ["lead_min"] 0 * 60 }

/-- Load a recipe. The destination is cleared first, so a load that fails
leaves an empty recipe behind; the flag says whether it succeeded. -/
def recipeLoad (store : RecipeStore) (grill : Units) (id : ℤ) : Recipe × Bool :=
  match store.row id with
  | none => (.zero, false)
  | some row =>
      match row.steps with
      | none => ({ id := id, steps := [] }, false)
      | some steps =>
          let decoded := (steps.children.take recipeMaxSteps).map
            (decodeStep store (recipeUnits row.units grill))
          ({ id := id, steps := decoded }, !decoded.isEmpty)

theorem recipeLoad_nsteps_le (store : RecipeStore) (grill : Units) (id : ℤ) :
    (recipeLoad store grill id).1.nsteps ≤ recipeMaxSteps := by
  unfold recipeLoad
  split
  · simp [Recipe.nsteps, Recipe.zero]
  · split
    · simp [Recipe.nsteps]
    · simp [Recipe.nsteps]

theorem recipeLoad_nsteps_pos {store : RecipeStore} {grill : Units} {id : ℤ}
    (loaded : (recipeLoad store grill id).2 = true) :
    0 < (recipeLoad store grill id).1.nsteps := by
  unfold recipeLoad at loaded ⊢
  split at loaded
  · simp at loaded
  · split at loaded
    · simp at loaded
    · simp only [Recipe.nsteps, List.length_pos_iff]
      intro empty
      simp [empty] at loaded

theorem recipeLoad_id {store : RecipeStore} {grill : Units} {id : ℤ}
    (loaded : (recipeLoad store grill id).2 = true) :
    (recipeLoad store grill id).1.id = id := by
  unfold recipeLoad at loaded ⊢
  split at loaded
  · simp at loaded
  · split at loaded
    · simp at loaded
    · rfl

theorem sizeOf_memberAnyCase {name : String} {node found : Json}
    (member : node.memberAnyCase? name = some found) : sizeOf found < sizeOf node := by
  cases node with
  | obj members =>
      simp only [Json.memberAnyCase?, Option.map_eq_some_iff] at member
      obtain ⟨entry, picked, rfl⟩ := member
      have inside := List.mem_of_find?_eq_some picked
      have smaller := List.sizeOf_lt_of_mem inside
      obtain ⟨key, value⟩ := entry
      simp only [Json.obj.sizeOf_spec, Prod.mk.sizeOf_spec] at *
      omega
  | _ => simp [Json.memberAnyCase?] at member

/-- Whether a condition tree mentions a trait. -/
def treeMentions (trait : String) (node : Json) : Bool :=
  match _kids : node.memberAnyCase? "conditions" with
  | some (.arr conditions) => conditions.attach.any fun k => treeMentions trait k.val
  | _ => jsonStr node ["trait"] "" == trait
termination_by sizeOf node
decreasing_by
  have inside := List.sizeOf_lt_of_mem k.property
  have smaller := sizeOf_memberAnyCase _kids
  simp only [Json.arr.sizeOf_spec] at smaller
  omega

/-- Whether a step's ending mentions a trait. -/
def endsMention (trait : String) : Option Json → Bool
  | none => false
  | some node => treeMentions trait node

/-- A step that says nothing about when it ends: it ends once it is applied. -/
def treeEmpty : Option Json → Bool
  | none => true
  | some node =>
      if (node.memberAnyCase? "trait").isSome then false
      else match node.memberAnyCase? "conditions" with
        | some (.arr conditions) => conditions.isEmpty
        | _ => true

/-- The override the cook sets on a step: none, pause at its end, skip it, or
continue on its own. -/
abbrev StepFlag := UInt8

/-- The recipe being run. -/
structure RecipeRun where
  active : Bool
  triggered : Bool
  /-- Held at the end of the step for the cook. -/
  waiting : Bool
  leadFired : Bool
  promptGiven : Bool
  lidSeen : Bool
  flags : List StepFlag
  wantsPrompt : Bool
  said : Bool
  ends : Option Json
  lastEval : ℚ
  /-- The recipe ended and left a fire burning. -/
  leftRunning : Bool
  step : ℕ
  stepStart : ℚ
  /-- When a Hold step's pit first reached its set point; zero before. -/
  atTempSince : ℚ
  /-- Seconds until the step is due to end; negative when unknown. -/
  etaS : ℚ
  r : Recipe

/-- No flags set. -/
def clearFlags : List StepFlag := List.replicate recipeMaxSteps 0

/-- No recipe has run. -/
def RecipeRun.init : RecipeRun :=
  { active := false, triggered := false, waiting := false, leadFired := false
    promptGiven := false, lidSeen := false, flags := clearFlags, wantsPrompt := false
    said := false, ends := none, lastEval := 0, leftRunning := false, step := 0
    stepStart := 0, atTempSince := 0, etaS := 0, r := .zero }

/-- The step the run is at. -/
def RecipeRun.current (run : RecipeRun) : RecipeStep :=
  run.r.stepAt run.step

/-- The flag of a step; steps past the sixteenth have none. -/
def RecipeRun.flagAt (run : RecipeRun) (i : ℕ) : StepFlag :=
  run.flags.getD i 0

/-- Set the flag of a step. -/
def RecipeRun.setFlag (i : ℕ) (flag : StepFlag) (run : RecipeRun) : RecipeRun :=
  { run with flags := run.flags.set i flag }

end PiFire
