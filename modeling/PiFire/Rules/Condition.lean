import PiFire.Control.Json
import Mathlib.Data.List.Infix

/-!
# What a notification rule can ask about

A rule is a JSON object that selects some entities of the status, describes a
condition over their traits and is judged once a second. This file reads traits
out of the status and says which instances a rule watches. The characters of a
text stand for its bytes, and what a message prints is left out.
-/

namespace PiFire.Rules

/-- The first bytes of a text, as a copy into a short buffer keeps them. -/
def short (n : ℕ) (s : String) : String := String.ofList (s.toList.take n)

theorem short_eq_self {n : ℕ} {s : String} (fits : s.toList.length ≤ n) : short n s = s := by
  rw [short, List.take_of_length_le fits, String.ofList_toList]

/-- A member of a value, if there is a value. -/
def jget (o : Option Json) (name : String) : Option Json := o.bind (Json.member? name)

def isTrue : Option Json → Bool
  | some (.bool b) => b
  | _ => false

/-- What a loop over the elements of a value visits. -/
def elements (o : Option Json) : List Json := (o.map Json.children).getD []

def isArray : Option Json → Bool
  | some (.arr _) => true
  | _ => false

def strAt (o : Option Json) (path : List String) (dflt : String) : String :=
  (o.map fun root => jsonStr root path dflt).getD dflt

/-- The tokens of a dotted path; empty ones are skipped. -/
def tokens (path : String) : List String :=
  ((path.toList.splitOn '.').filter fun token => !token.isEmpty).map String.ofList

/-- What a trait reads as. -/
inductive Val where
  | none
  | num (x : ℚ)
  | bool (b : Bool)
  | str (s : String)

/-- The number a value carries, whatever its kind. -/
def Val.asNum : Val → ℚ
  | .num x => x
  | .bool b => if b then 1 else 0
  | _ => 0

/-- The truth value a value carries, whatever its kind. -/
def Val.asBool : Val → Bool
  | .bool b => b
  | _ => false

/-- The text of a value; another kind has none. -/
def Val.asStr : Val → String
  | .str s => s
  | _ => ""

def Val.ofNumber : Option Json → Val
  | some (.num x) => .num x
  | _ => .none

def Val.ofNumberWhere (ok : ℚ → Bool) : Option Json → Val
  | some (.num x) => if ok x then .num x else .none
  | _ => .none

def Val.ofScalar : Option Json → Val
  | some (.num x) => .num x
  | some (.bool b) => .bool b
  | some (.str s) => .str s
  | _ => .none

/-- One row of the status a rule is judged for: a probe, an output, or the grill
itself. -/
structure Inst where
  domain : String
  label : String
  obj : Option Json

/-- A trait of a probe; a target of zero is no target. -/
def probeTrait (probe : Json) (trait : String) : Val :=
  let o := some probe
  if trait = "target" then .ofNumberWhere (0 < ·) (jget o "target")
  else if trait = "next_step" then
    match jget o "next_step" with
    | some (.str s) => .str s
    | _ => .none
  else if trait = "eta_step" then .ofNumberWhere (0 ≤ ·) (jget o "eta_step_s")
  else if trait = "eta" then .ofNumber (jget o "eta_s")
  else if trait ∈ ["temp", "battery", "signal", "rssi", "limit_high", "limit_low", "ambient"] then
    .ofNumber (jget o trait)
  else if trait = "over" then
    match jget o "temp", jget o "target" with
    | some (.num temp), some (.num target) => if target ≤ 0 then .none else .num (temp - target)
    | _, _ => .none
  else if trait ∈ ["valid", "connected"] then .bool (isTrue (jget o "valid"))
  else if trait ∈ ["wireless", "in_use", "enabled"] then .bool (isTrue (jget o trait))
  else if trait ∈ ["name", "role"] then .str (strAt o [trait] "")
  else .none

/-- Where the other traits live in the status. -/
def traitPaths : List (String × String × List String) :=
  [("grill", "mode", ["mode"]), ("grill", "setpoint", ["setpoint"]),
    ("grill", "error", ["safety", "error_code"]), ("grill", "cook_elapsed", ["cook_elapsed"]),
    ("grill", "mode_remaining", ["timers", "mode_remaining"]), ("grill", "lid_open", ["lid_open"]),
    ("grill", "hopper", ["hopper_pct"]), ("grill", "aiming_s", ["aiming_s"]),
    ("grill", "heating", ["heating", "active"]), ("grill", "heating_to", ["heating", "text"]),
    ("hopper", "level", ["hopper_pct"]), ("controller", "duty", ["cycle", "u_applied"]),
    ("controller", "feedforward", ["cycle", "u_ff"]),
    ("controller", "error", ["controller", "error"]), ("weather", "temp", ["weather", "temp"]),
    ("weather", "wind", ["weather", "wind_kmh"]), ("weather", "humidity", ["weather", "humidity"]),
    ("system", "wifi_signal", ["net", "signal"]),
    ("system", "tailscale_online", ["net", "tailscale", "online"]),
    ("system", "update_available", ["update", "available"]),
    ("system", "update_version", ["update", "latest"]),
    ("system", "system_updates", ["update", "system"]),
    ("system", "backup_done", ["backup", "done"]), ("system", "backup_failed", ["backup", "failed"]),
    ("system", "restarted", ["restarted", "active"]),
    ("system", "restart_reason", ["restarted", "reason"]),
    ("system", "restart_resuming", ["restarted", "resuming"]),
    ("timer", "remaining", ["timer", "remaining"]), ("timer", "running", ["timer", "running"]),
    ("step", "elapsed", ["step", "elapsed"]), ("step", "food_max", ["step", "food_max"]),
    ("step", "food_min", ["step", "food_min"]), ("step", "food_rested", ["step", "food_rested"]),
    ("step", "food_avg", ["step", "food_avg"]), ("step", "food_battery", ["step", "food_battery"]),
    ("step", "food_eta", ["step", "food_eta"]), ("step", "prompt", ["step", "prompt"]),
    ("step", "lid", ["step", "lid"])]

/-- The pit's temperature, or how far it sits from the set point; the distance
means nothing without a set point or while a tuning measurement is running. -/
def pitTrait (status : Json) (isOver : Bool) : Val :=
  let setpoint := jsonNum status ["setpoint"] 0
  if isOver && (setpoint ≤ 0 || jsonBool status ["autotune", "active"] false) then .none
  else
    match (elements (jget (some status) "probes")).find?
        fun p => jsonStr p ["role"] "" == "Primary" with
    | some p =>
        match jget (some p) "temp" with
        | some (.num t) => .num (if isOver then t - setpoint else t)
        | _ => .none
    | none => .none

/-- A trait of one instance, or of another entity when the condition names
one. -/
def traitOf (status : Json) (i : Inst) (entity trait : String) : Val :=
  let named := entity ≠ "" ∧ entity ≠ "this"
  let o := if named then none else i.obj
  let domain := if named then entity else i.domain
  match (if domain = "probe" then o else none) with
  | some probe => probeTrait probe trait
  | none =>
      if domain = "output" then
        if trait = "state" then
          .bool (jsonBool status (tokens ("outputs." ++ short 24 i.label)) false)
        else if trait = "percent" then .num (jsonNum status ["outputs", "fan_pct"] 0)
        else .none
      else if domain = "grill" ∧ (trait = "temp" ∨ trait = "over") then
        pitTrait status (trait == "over")
      else
        match traitPaths.find? fun row => row.1 == domain && row.2.1 == trait with
        | some row => .ofScalar (jsonPath status row.2.2)
        | none => .none

/-- Whether a list of names has this one, in any case. -/
def strInArray (arr : Option Json) (s : String) : Bool :=
  (elements arr).any fun item =>
    match item with
    | .str text => strcasecmp text s
    | _ => false

/-- The instances one rule may track at once. -/
def maxInst : ℕ := 12

/-- Whether an explicit list leaves a name out: one that has entries and not
this name. -/
def leavesOut (inc : Option Json) (names : List String) : Bool :=
  isArray inc && !(elements inc).isEmpty && !names.any (strInArray inc)

/-- The name a probe's filters know it by beside its label. -/
def probeNames (p : Json) : List String :=
  let label := jsonStr p ["label"] ""
  [label, jsonStr p ["name"] label]

/-- Whether a rule about probes watches this one. -/
def watchesProbe (sel : Option Json) (p : Json) : Bool :=
  let role := strAt sel ["role"] "any"
  let link := strAt sel ["link"] "any"
  let wireless := isTrue (jget (some p) "wireless")
  isTrue (jget (some p) "enabled") && !isTrue (jget (some p) "companion") &&
    (role == "any" || strcasecmp role (jsonStr p ["role"] "")) &&
    !(link == "bluetooth" && !wireless) && !(link == "wired" && wireless) &&
    !leavesOut (jget sel "include") (probeNames p) &&
    !(probeNames p).any (strInArray (jget sel "exclude"))

/-- The instances a rule watches, at most `maxInst`. -/
def selectInstances (status rule : Json) : List Inst :=
  let sel := jget (some rule) "select"
  let domain := strAt sel ["domain"] "grill"
  if domain = "probe" then
    (((elements (jget (some status) "probes")).filter (watchesProbe sel)).take maxInst).map
      fun p => ⟨"probe", jsonStr p ["label"] "", some p⟩
  else if domain = "output" then
    ((["auger", "fan", "igniter", "power"].filter fun name =>
      !leavesOut (jget sel "include") [name]).take maxInst).map fun name => ⟨"output", name, none⟩
  else [⟨domain, domain, none⟩]

end PiFire.Rules

/-!
# Conditions

A condition is a comparison over a trait, or a group of conditions joined by
all, any or not. A node may ask to have been true for a time; the clocks behind
that are kept by the position of the node in its tree.
-/

namespace PiFire.Rules

/-- The other side of a comparison: a literal, or a trait of the same instance
with an offset on it. -/
def resolveOperand (status : Json) (i : Inst) : Option Json → Val
  | some (.obj members) =>
      let v := some (Json.obj members)
      match jget v "trait" with
      | some (.str trait) =>
          match traitOf status i (strAt v ["entity"] "this") trait, jget v "offset" with
          | .num x, some (.num offset) => .num (x + offset)
          | a, _ => a
      | _ => .none
  | v => .ofScalar v

def compareText (a op b : String) : Bool :=
  if op = "is" ∨ op = "==" then strcasecmp a b
  else if op = "is_not" ∨ op = "!=" then !strcasecmp a b
  else if op = "empty" then a.toList.isEmpty
  else if op = "not_empty" then !a.toList.isEmpty
  else if op = "contains" then
    decide (b.toList.map Char.toLower <:+: a.toList.map Char.toLower)
  else false

def compareBool (a : Bool) (op : String) (b : Bool) : Bool :=
  if op = "is_on" ∨ op = "on" then a
  else if op = "is_off" ∨ op = "off" then !a
  else if op = "is" ∨ op = "==" then a == b
  else if op = "is_not" ∨ op = "!=" then a != b
  else false

/-- A comparison of numbers; the threshold is widened by the deadband in the
direction that keeps the condition true. -/
def compareNum (x : ℚ) (op : String) (y : ℚ) (b2 : Val) (db : ℚ) : Bool :=
  let given := match b2 with | .none => false | _ => true
  if op = ">" then y - db < x
  else if op = ">=" then y - db ≤ x
  else if op = "<" then x < y + db
  else if op = "<=" then x ≤ y + db
  else if op = "==" ∨ op = "is" then |x - y| < (if 0 < db then db else 1 / 10 ^ 9)
  else if op = "!=" ∨ op = "is_not" then 1 / 10 ^ 9 ≤ |x - y|
  else if op = "between" then given && y - db ≤ x && x ≤ b2.asNum + db
  else if op = "within" then given && |x - y| ≤ b2.asNum + db
  else false

/-- What is not there compares false to everything. -/
def compare (a : Val) (op : String) (b b2 : Val) (db : ℚ) : Bool :=
  if op = "unavailable" then match a with | .none => true | _ => false
  else if op = "available" then match a with | .none => false | _ => true
  else
    match a, b with
    | .none, _ => false
    | .str _, _ | _, .str _ => compareText a.asStr op b.asStr
    | .bool _, .none => compareBool a.asBool op true
    | .bool _, _ | _, .bool _ => compareBool a.asBool op b.asBool
    | _, .none => false
    | .num x, .num y => compareNum x op y b2 db

/-- What a whole evaluation of one rule against one instance carries with it. -/
structure EvalCtx where
  status : Json
  inst : Inst
  db : ℚ
  now : ℚ

/-- A comparison; a node that names no trait asks nothing. -/
def evalComparison (cx : EvalCtx) (node : Json) : Bool :=
  let o := some node
  match jget o "trait" with
  | some (.str trait) =>
      let a := traitOf cx.status cx.inst (strAt o ["entity"] "this") trait
      let op := strAt o ["op"] "=="
      if op = "is_one_of" ∨ op = "is_none_of" then
        match a with
        | .none => false
        | a =>
            let found := (elements (jget o "value")).any fun item =>
              compare a "is" (resolveOperand cx.status cx.inst (some item)) .none 0
            if op = "is_one_of" then found else !found
      else
        compare a op (resolveOperand cx.status cx.inst (jget o "value"))
          (resolveOperand cx.status cx.inst (jget o "value2")) cx.db
  | _ => true

/-- When a node first became true. -/
structure NodeTimer where
  path : UInt32
  since : ℚ
  deriving DecidableEq

/-- The clocks of one tree; there are none when there is no state to keep them
in. -/
abbrev Clocks := Option (List NodeTimer)

def nodeTimers : ℕ := 12

/-- The clocks of a tree that has not been evaluated. -/
def freshTimers : List NodeTimer := List.replicate nodeTimers ⟨0, 0⟩

/-- The clock of a node: its own, or else the first spare one. -/
def findTimer (timers : List NodeTimer) (path : UInt32) : Option ℕ :=
  match timers.findIdx? (·.path = path) with
  | some i => some i
  | none => timers.findIdx? (·.path = 0)

/-- Whether a node has been true long enough, with its clock moved on. A node
for which there is no clock left is never true. -/
def heldLongEnough (now : ℚ) (path : UInt32) (node : Json) (nowTrue : Bool) (clocks : Clocks) :
    Bool × Clocks :=
  let need := jsonNum node ["for_s"] 0
  match clocks with
  | none => (nowTrue, none)
  | some timers =>
      if need ≤ 0 then (nowTrue, some timers)
      else
        match findTimer timers path with
        | none => (false, some timers)
        | some i =>
            let old := (timers[i]?.map NodeTimer.since).getD 0
            let since := if !nowTrue then 0 else if old = 0 then now else old
            (nowTrue && decide (need ≤ now - since), some (timers.set i ⟨path, since⟩))

/-- The evaluation of a node: from its position and the clocks, what it says and
the clocks it leaves. -/
abbrev Evaluation := UInt32 → Clocks → Bool × Clocks

/-- The evaluations of a group's conditions, one after another; all of them are
made, whatever the first ones say. -/
def evalKids (path : UInt32) : ℕ → List Evaluation → Clocks → List Bool × Clocks
  | _, [], clocks => ([], clocks)
  | i, kid :: rest, clocks =>
      let (r, clocks) := kid (path * 31 + UInt32.ofNat (i + 1)) clocks
      let (rs, clocks) := evalKids path (i + 1) rest clocks
      (r :: rs, clocks)

/-- A group: all of its conditions, any of them, or not all of them. One with
nothing in it is false. -/
def evalGroup (node : Json) (kids : List Evaluation) : Evaluation := fun path clocks =>
  if kids.isEmpty then (false, clocks)
  else
    let gop := jsonStr node ["op"] "all"
    let (rs, clocks) := evalKids path 0 kids clocks
    if strcasecmp gop "any" then (rs.any id, clocks)
    else if strcasecmp gop "not" then (!rs.all id, clocks)
    else (rs.all id, clocks)

mutual

/-- One node: what it says right now, then how long it has been saying it. -/
def evalPath (cx : EvalCtx) : Json → Evaluation
  | .obj members => fun path clocks =>
      let (r, clocks) :=
        match evalConditions cx members with
        | some kids => evalGroup (.obj members) kids path clocks
        | none => (evalComparison cx (.obj members), clocks)
      heldLongEnough cx.now path (.obj members) r clocks
  | node => fun path clocks => heldLongEnough cx.now path node (evalComparison cx node) clocks

/-- The conditions of a group, if the node is one. -/
def evalConditions (cx : EvalCtx) : List (String × Json) → Option (List Evaluation)
  | [] => none
  | (name, .arr items) :: rest =>
      if name = "conditions" then some (evalItems cx items) else evalConditions cx rest
  | (name, _) :: rest => if name = "conditions" then none else evalConditions cx rest

def evalItems (cx : EvalCtx) : List Json → List Evaluation
  | [] => []
  | item :: rest => evalPath cx item :: evalItems cx rest

end

/-- The evaluation of a whole tree. -/
def evalNodeAt (cx : EvalCtx) (node : Json) (clocks : Clocks) : Bool × Clocks :=
  evalPath cx node 1 clocks

/-- Whether a comparison is about the pit's temperature or its distance from the
set point, for a rule about `domain`. -/
def asksPit (domain : String) (node : Json) : Bool :=
  let o := some node
  match jget o "trait" with
  | some (.str trait) =>
      let entity := strAt o ["entity"] ""
      (trait == "over" || trait == "temp") &&
        (entity == "grill" || ((entity == "" || entity == "this") && domain == "grill"))
  | _ => false

mutual

/-- Whether a condition asks where the pit is. -/
def whenAboutPit (domain : String) : Json → Bool
  | .obj members => asksPit domain (.obj members) || conditionsAboutPit domain members
  | node => asksPit domain node

def conditionsAboutPit (domain : String) : List (String × Json) → Bool
  | [] => false
  | (name, .arr items) :: rest =>
      if name = "conditions" then itemsAboutPit domain items else conditionsAboutPit domain rest
  | (name, .obj members) :: rest =>
      if name = "conditions" then membersAboutPit domain members
      else conditionsAboutPit domain rest
  | (name, _) :: rest => if name = "conditions" then false else conditionsAboutPit domain rest

def itemsAboutPit (domain : String) : List Json → Bool
  | [] => false
  | item :: rest => whenAboutPit domain item || itemsAboutPit domain rest

def membersAboutPit (domain : String) : List (String × Json) → Bool
  | [] => false
  | (_, item) :: rest => whenAboutPit domain item || membersAboutPit domain rest

end

end PiFire.Rules
