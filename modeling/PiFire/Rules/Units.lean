import PiFire.Rules.Tick
import Mathlib.Tactic.Linarith
import Mathlib.Tactic.Ring

/-!
# Rules in another unit

A rule says "above 250" and means 250 of whatever the grill was showing when it
was written. When the units change the numbers in the rules are rewritten, and
so are the temperatures in the status they are judged for. This file models
both: the conversion of a rule, from the table of traits, and the status of the
same grill in the other unit.
-/

namespace PiFire

/-- The first member with exactly this name, changed. -/
def modifyMember (name : String) (f : Json → Json) : List (String × Json) → List (String × Json)
  | [] => []
  | (key, value) :: rest =>
      if key = name then (key, f value) :: rest else (key, value) :: modifyMember name f rest

theorem lookup_modifyMember (name other : String) (f : Json → Json)
    (members : List (String × Json)) :
    (modifyMember name f members).lookup other =
      (members.lookup other).map (if other = name then f else id) := by
  induction members with
  | nil => rfl
  | cons entry rest ih =>
      obtain ⟨key, value⟩ := entry
      by_cases here : key = name
      · subst here
        by_cases same : other = key
        · subst same
          simp [modifyMember]
        · have apart : (other == key) = false := by simpa using same
          simp [modifyMember, List.lookup_cons, apart, same]
      · rw [modifyMember, if_neg here, List.lookup_cons, List.lookup_cons]
        by_cases same : other = key
        · subst same
          simp [here]
        · have apart : (other == key) = false := by simpa using same
          simpa only [apart] using ih

namespace Json

/-- The member of an object with exactly this name, changed. -/
def onMember (name : String) (f : Json → Json) : Json → Json
  | .obj members => .obj (modifyMember name f members)
  | node => node

/-- Every member of an object, changed by its name. -/
def mapMembers (f : String → Json → Json) : Json → Json
  | .obj members => .obj (members.map fun entry => (entry.1, f entry.1 entry.2))
  | node => node

/-- Every value directly inside an array or an object, changed. -/
def mapChildren (f : Json → Json) : Json → Json
  | .arr items => .arr (items.map f)
  | .obj members => .obj (members.map fun entry => (entry.1, f entry.2))
  | node => node

/-- The number a value is, changed. -/
def onNumber (f : ℚ → ℚ) : Json → Json
  | .num x => .num (f x)
  | node => node

@[simp] theorem member?_onMember (name other : String) (f : Json → Json) (node : Json) :
    (node.onMember name f).member? other =
      (node.member? other).map (if other = name then f else id) := by
  cases node with
  | obj members => exact lookup_modifyMember name other f members
  | _ => rfl

@[simp] theorem member?_mapMembers (f : String → Json → Json) (node : Json) (name : String) :
    (node.mapMembers f).member? name = (node.member? name).map (f name) := by
  cases node with
  | obj members =>
      simp only [mapMembers, member?]
      induction members with
      | nil => rfl
      | cons entry rest ih =>
          obtain ⟨key, value⟩ := entry
          rw [List.map_cons, List.lookup_cons, List.lookup_cons]
          by_cases same : name = key
          · subst same
            simp
          · have apart : (name == key) = false := by simpa using same
            simpa only [apart] using ih
  | _ => rfl

@[simp] theorem children_mapChildren (f : Json → Json) (node : Json) :
    (node.mapChildren f).children = node.children.map f := by
  cases node <;> simp [mapChildren, children]

theorem enter?_name {token : String} (named : token.toList.all Char.isDigit = false)
    (node : Json) : node.enter? token = node.member? token := by
  cases node with
  | arr items => simp [enter?, member?, named]
  | _ => rfl

end Json

namespace Rules

/-- A number moved to the other unit: a difference converts by the ratio alone,
a reading also moves by the freezing point. -/
def conv (u : Units) (delta : Bool) (x : ℚ) : ℚ :=
  match u with
  | .c => if delta then x / (9 / 5) else (x - 32) / (9 / 5)
  | .f => if delta then x * (9 / 5) else x * (9 / 5) + 32

/-- The table's rows that are temperatures, and whether each is a difference.
The other rows of the table carry no unit that changes. -/
def temperatureTraits : List (String × String × Bool) :=
  [("probe", "temp", false), ("probe", "target", false), ("probe", "over", true),
    ("grill", "temp", false), ("grill", "over", true), ("grill", "setpoint", false),
    ("weather", "temp", false), ("step", "food_max", false), ("step", "food_min", false),
    ("step", "food_rested", false), ("step", "food_avg", false)]

/-- A trait's row in a list of them. -/
def traitRow (rows : List (String × String × Bool)) (domain trait : String) : Option Bool :=
  (rows.find? fun row => row.1 == domain && row.2.1 == trait).map fun row => row.2.2

/-- The temperature the table says a trait is. -/
def traitDef (domain trait : String) : Option Bool := traitRow temperatureTraits domain trait

/-- The number or the offset a trait is compared with. -/
def convertValue (u : Units) (delta : Bool) : Json → Json
  | .num x => .num (conv u delta x)
  | .obj members => (Json.obj members).onMember "offset" (.onNumber (conv u true))
  | node => node

/-- Every temperature written into one comparison. -/
def convertComparison (u : Units) (domain : String) (node : Json) : Json :=
  match jget (some node) "trait" with
  | some (.str trait) =>
      let entity := jsonStr node ["entity"] "this"
      match traitDef (if entity = "this" then domain else entity) trait with
      | none => node
      | some delta =>
          let width := jsonStr node ["op"] "" == "within"
          ((node.onMember "value" (convertValue u delta)).onMember "value2"
            (.onNumber (conv u (delta || width)))).onMember "deadband" (.onNumber (conv u true))
  | _ => node

mutual

/-- A condition in the other unit. -/
def convertNode (u : Units) (domain : String) : Json → Json
  | .obj members =>
      match convertConditions u domain members with
      | some converted => .obj converted
      | none => convertComparison u domain (.obj members)
  | node => convertComparison u domain node

/-- The members of a group with its conditions converted, if they are those of
a group. -/
def convertConditions (u : Units) (domain : String) :
    List (String × Json) → Option (List (String × Json))
  | [] => none
  | (name, .arr items) :: rest =>
      if name = "conditions" then some ((name, .arr (convertItems u domain items)) :: rest)
      else (convertConditions u domain rest).map ((name, .arr items) :: ·)
  | (name, value) :: rest =>
      if name = "conditions" then none
      else (convertConditions u domain rest).map ((name, value) :: ·)

def convertItems (u : Units) (domain : String) : List Json → List Json
  | [] => []
  | item :: rest => convertNode u domain item :: convertItems u domain rest

end

/-- A tree written in one unit, in another. -/
def convertTree (domain : String) (source target : Units) (tree : Json) : Json :=
  if source = target then tree
  else convertNode target (if domain = "" then "grill" else domain) tree

/-- A rule in the other unit: its condition, and the deadband it has beside
it. -/
def convertRule (u : Units) (rule : Json) : Json :=
  (rule.onMember "when" (convertNode u (jsonStr rule ["select", "domain"] "grill"))).onMember
    "deadband" (.onNumber (conv u true))

/-- The unit a text names by its first letter. -/
def unitNamed (name : String) : Units := if name.toList.head? == some 'C' then .c else .f

/-- The rules and the unit they are noted to be in, after the first load with the
units of the settings. -/
def convertRulesUnits (units was : String) (rules : Json) : Json × String :=
  let now := if unitNamed units = .c then "C" else "F"
  if was.toList.head? = none then (rules, now)
  else if was.toList.head? = units.toList.head? then (rules, was)
  else
    match rules with
    | .arr list => (.arr (list.map (convertRule (unitNamed units))), now)
    | other => (other, was)

/-- The rules are converted once: the next load with the same units leaves them. -/
theorem convertRulesUnits_settled {units : String} (known : units = "C" ∨ units = "F")
    (was : String) (rules : Json) :
    convertRulesUnits units (convertRulesUnits units was rules).2
        (convertRulesUnits units was rules).1 = convertRulesUnits units was rules := by
  have noted : (if unitNamed units = .c then "C" else "F") = units := by
    rcases known with rfl | rfl <;> decide
  have read : units.toList.head? ≠ none := by
    rcases known with rfl | rfl <;> decide
  have again : ∀ list, convertRulesUnits units units list = (list, units) := by
    rintro list
    simp only [convertRulesUnits, if_neg read, if_true]
  by_cases unnoted : was.toList.head? = none
  · have first : convertRulesUnits units was rules = (rules, units) := by
      simp only [convertRulesUnits, if_pos unnoted, noted]
    rw [first, again]
  by_cases same : was.toList.head? = units.toList.head?
  · have first : convertRulesUnits units was rules = (rules, was) := by
      simp only [convertRulesUnits, if_neg unnoted, if_pos same]
    rw [first, first]
  cases rules with
  | arr list =>
      have first : convertRulesUnits units was (.arr list) =
          (.arr (list.map (convertRule (unitNamed units))), units) := by
        simp only [convertRulesUnits, if_neg unnoted, if_neg same, noted]
      rw [first, again]
  | _ => simp only [convertRulesUnits, if_neg unnoted, if_neg same]

/-- A temperature for which zero or less means there is none. -/
def convertSet (u : Units) (x : ℚ) : ℚ := if 0 < x then conv u false x else x

/-- A probe as the status in the other unit has it. -/
def expressedProbe (u : Units) : Json → Json :=
  .mapMembers fun name =>
    if name ∈ ["temp", "ambient"] then .onNumber (conv u false)
    else if name ∈ ["target", "limit_high", "limit_low"] then .onNumber (convertSet u)
    else id

/-- A member of the status in the other unit. -/
def expressedMember (u : Units) (name : String) : Json → Json :=
  if name = "setpoint" then .onNumber (conv u false)
  else if name = "probes" then .mapChildren (expressedProbe u)
  else if name = "weather" then
    .mapMembers fun name => if name = "temp" then .onNumber (conv u false) else id
  else if name = "controller" then
    .mapMembers fun name => if name = "error" then .onNumber (conv u true) else id
  else if name = "step" then
    .mapMembers fun name =>
      if name ∈ ["food_max", "food_min", "food_rested", "food_avg"] then .onNumber (conv u false)
      else id
  else id

/-- The status of the same grill in the other unit. -/
def expressed (u : Units) : Json → Json := .mapMembers (expressedMember u)

/-- An instance of a rule in that status. -/
def Inst.expressed (u : Units) (i : Inst) : Inst := { i with obj := i.obj.map (expressedProbe u) }

/-- An evaluation in the other unit, with the deadband a converted rule has. -/
def EvalCtx.expressed (u : Units) (cx : EvalCtx) : EvalCtx :=
  { cx with
    status := Rules.expressed u cx.status
    inst := cx.inst.expressed u
    db := conv u true cx.db }

/-- A tick of the same grill in the other unit, with its rules converted. -/
def Tick.expressed (u : Units) (t : Tick) : Tick :=
  { t with
    status := Rules.expressed u t.status
    rules :=
      match t.rules with
      | .arr list => .arr (list.map (convertRule u))
      | other => other }

/-- The traits the status publishes in the grill's unit. The last four are not
in the table. -/
def publishedTraits : List (String × String × Bool) :=
  temperatureTraits ++
    [("probe", "ambient", false), ("probe", "limit_high", false), ("probe", "limit_low", false),
      ("controller", "error", true)]

/-- How a trait reads in the other unit: as a temperature, or the same. -/
def scaleOf (domain trait : String) : Option Bool := traitRow publishedTraits domain trait

/-- A number on a scale, in the other unit. -/
def onScale (u : Units) (scale : Option Bool) (x : ℚ) : ℚ :=
  match scale with
  | some delta => conv u delta x
  | none => x

def Val.onScale (u : Units) (scale : Option Bool) : Val → Val
  | .num x => .num (Rules.onScale u scale x)
  | v => v

end Rules

end PiFire
