import PiFire.Rules.Alarms
import PiFire.Rules.Condition
import PiFire.Transition.Run

/-!
# The rule engine

The engine keeps one state for each rule and instance and judges every rule once
a tick. A tick is a list of turns, which the status, the rules and what was
standing before the tick decide; a turn retires a rule, judges it for one
instance, or judges it for all of its instances together.
-/

namespace PiFire.Rules

open Transition

/-- What is remembered of a rule for an instance: since when its condition has
been true, since when it has been false, when it last fired, whether it is armed
and whether there is an alarm to clear. Zero is no time. -/
structure Memory where
  heldSince : ℚ
  falseSince : ℚ
  lastFired : ℚ
  armed : Bool
  raised : Bool
  deriving DecidableEq

def Memory.fresh : Memory := ⟨0, 0, 0, true, false⟩

/-- One entry of the engine's table. -/
structure Slot extends Memory where
  rule : String
  inst : String
  timers : List NodeTimer

/-- The length a name is kept to. -/
def nameMax : ℕ := 39

def maxState : ℕ := 96

def Slot.fresh (rule inst : String) : Slot :=
  ⟨.fresh, short nameMax rule, short nameMax inst, freshTimers⟩

/-- An entry with a new memory. -/
def Slot.remember (m : Memory) (st : Slot) : Slot := { st with toMemory := m }

/-- The engine, with the alarm table it raises into. -/
structure Engine where
  slots : List Slot
  alarms : AlarmTable

/-- The engine after start-up. -/
def Engine.init : Engine := ⟨[], .init⟩

/-- The state of a rule and instance, taken into use when there is none and
there is room. -/
def stateFor (rule inst : String) (slots : List Slot) : Option ℕ × List Slot :=
  match slots.findIdx? fun st => st.rule == rule && st.inst == inst with
  | some i => (some i, slots)
  | none =>
      if slots.length < maxState then (some slots.length, slots ++ [.fresh rule inst])
      else (none, slots)

/-- The identity the alarm table keys a rule and instance on. -/
def alarmKey (id inst : String) : String := "RULE_" ++ short 32 id ++ ":" ++ short 32 inst

/-- What is still being reported is over; what is not stays as it is. -/
def Memory.retired (m : Memory) : Memory :=
  if m.raised then { m with raised := false, heldSince := 0, falseSince := 0, armed := true } else m

/-- The rule itself has stopped applying. -/
def retireRule (id : String) (wall : ℚ) (s : Engine) : Engine where
  slots := s.slots.map fun st =>
    if st.rule = id then st.remember st.toMemory.retired else st
  alarms := s.slots.foldl (fun alarms st =>
    if st.rule = id ∧ st.raised then alarms.retire (alarmKey id st.inst) wall else alarms) s.alarms

/-- What a rule asks of time. -/
structure Terms where
  hold : ℚ
  cooldown : ℚ
  again : ℚ
  clearAfter : ℚ

def termsOf (rule : Json) : Terms where
  hold := jsonNum rule ["for_s"] 0
  cooldown := jsonNum rule ["cooldown_s"] 300
  again := jsonNum rule ["repeat_s"] 0
  clearAfter := jsonNum rule ["clear_after_s"] 0

/-- What judging a rule does to its alarm. -/
inductive Act where
  | nothing
  | clear
  | fire (renotify : Bool)
  deriving DecidableEq

def Act.fires : Act → Bool
  | .fire _ => true
  | _ => false

namespace Memory

/-- The condition is true and has been since `heldSince`: the rule fires once it
has been held, is armed or repeats, and has cooled down. -/
def speak (terms : Terms) (now : ℚ) (m : Memory) : Memory × Act :=
  let due := m.armed || (decide (0 < terms.again) && decide (terms.again ≤ now - m.lastFired))
  if now - m.heldSince < terms.hold then (m, .nothing)
  else if !due then (m, .nothing)
  else if 0 < m.lastFired ∧ now - m.lastFired < terms.cooldown then (m, .nothing)
  else ({ m with armed := false, lastFired := now, raised := true }, .fire !m.armed)

/-- The start of the hold, unless it has started. -/
def hold (now : ℚ) (m : Memory) : Memory :=
  { m with heldSince := if m.heldSince = 0 then now else m.heldSince }

/-- The condition is true for one instance. -/
def found (terms : Terms) (now : ℚ) (m : Memory) : Memory × Act :=
  ({ m with falseSince := 0 }.hold now).speak terms now

/-- The condition is false for one instance. A report ends after a delay. -/
def lost (terms : Terms) (now : ℚ) (m : Memory) : Memory × Act :=
  let m := { m with heldSince := 0, armed := true }
  if m.raised then
    let m := { m with falseSince := if m.falseSince = 0 then now else m.falseSince }
    if terms.clearAfter ≤ now - m.falseSince then
      ({ m with raised := false, falseSince := 0 }, .clear)
    else (m, .nothing)
  else (m, .nothing)

/-- A rule is judged for one instance. -/
def judge (terms : Terms) (now : ℚ) (ok : Bool) (m : Memory) : Memory × Act :=
  if ok then m.found terms now else m.lost terms now

/-- The condition is true for every instance. -/
def foundEvery (terms : Terms) (now : ℚ) (m : Memory) : Memory × Act :=
  (m.hold now).speak terms now

/-- The condition is false for one of the instances; here a report ends at
once. -/
def lostEvery (m : Memory) : Memory × Act :=
  let m := { m with heldSince := 0, armed := true }
  if m.raised then ({ m with raised := false }, .clear) else (m, .nothing)

/-- A rule is judged for all of its instances. -/
def judgeEvery (terms : Terms) (now : ℚ) (ok : Bool) (m : Memory) : Memory × Act :=
  if ok then m.foundEvery terms now else m.lostEvery

end Memory

/-- What a tick finds: the rules of the settings, the status, and the two
clocks. -/
structure Tick where
  rules : Json
  status : Json
  now : ℚ
  wall : ℚ

def ruleId (rule : Json) : String := jsonStr rule ["id"] ""

def critOf (rule : Json) : Crit :=
  let level := jsonStr rule ["level"] "normal"
  if strcasecmp level "info" then .info
  else if strcasecmp level "high" then .high
  else if strcasecmp level "critical" then .critical
  else .normal

/-- The alarm a rule raises for an instance. -/
def ruleKey (rule : Json) (inst : String) : String :=
  alarmKey (jsonStr rule ["id"] "custom") inst

/-- What is done about one rule, or for one of its instances. -/
inductive Turn where
  | retire (id : String)
  | judge (rule : Json) (inst : Inst)
  | judgeEvery (rule : Json) (first : Inst) (others : List Inst)

/-- What a turn found and did: the alarm it is about, whether the condition was
true, what that did to the alarm, and whether a message was sent. -/
structure Outcome where
  key : String
  ok : Bool
  act : Act
  sent : Bool
  engine : Engine

/-- The condition of a rule for one instance, with the place of its state. The
deadband applies only to a rule that is already reporting. -/
def look (t : Tick) (rule : Json) (i : Inst) (slots : List Slot) : Bool × Option ℕ × List Slot :=
  let (place, slots) := stateFor (ruleId rule) i.label slots
  match jget (some rule) "when" with
  | none => (false, place, slots)
  | some cond =>
      let pre := place.bind fun k => slots[k]?
      let db := if pre.any (·.raised) then jsonNum rule ["deadband"] 0 else 0
      let (ok, clocks) := evalNodeAt ⟨t.status, i, db, t.now⟩ cond (pre.map Slot.timers)
      match place, clocks with
      | some k, some timers =>
          (ok, place, slots.modify k fun st => { st with timers := timers })
      | _, _ => (ok, place, slots)

/-- An alarm is raised, cleared or left alone; the answer is whether a message
is sent. -/
def Act.perform (key : String) (crit : Crit) (wall : ℚ) (alarms : AlarmTable) :
    Act → Bool × AlarmTable
  | .nothing => (false, alarms)
  | .clear => (false, alarms.clear key wall)
  | .fire renotify =>
      let (fresh, alarms) := alarms.raise key crit wall
      (fresh || renotify, alarms)

/-- The state at a place is judged. Without one nothing happens. -/
def settle (t : Tick) (rule : Json) (key : String) (judge : Bool → Memory → Memory × Act) (ok : Bool)
    (place : Option ℕ) (s : Engine) : Outcome :=
  match place.bind fun k => (s.slots[k]?).map fun st => (k, st) with
  | none => ⟨key, ok, .nothing, false, s⟩
  | some (k, st) =>
      let (after, act) := judge ok st.toMemory
      let (sent, alarms) := act.perform key (critOf rule) t.wall s.alarms
      ⟨key, ok, act, sent, ⟨s.slots.modify k (Slot.remember after), alarms⟩⟩

/-- The condition for each of the instances; how many of them match. -/
def lookAll (t : Tick) (rule : Json) (insts : List Inst) (slots : List Slot) : ℕ × List Slot :=
  insts.foldl (fun found i =>
    let (ok, _, slots) := look t rule i found.2
    (found.1 + ok.toNat, slots)) (0, slots)

def take (t : Tick) : Turn → Engine → Outcome
  | .retire id, s => ⟨"", false, .nothing, false, retireRule id t.wall s⟩
  | .judge rule i, s =>
      let (ok, place, slots) := look t rule i s.slots
      settle t rule (ruleKey rule i.label) (Memory.judge (termsOf rule) t.now) ok place
        ⟨slots, s.alarms⟩
  | .judgeEvery rule first others, s =>
      let (found, slots) := lookAll t rule (first :: others) s.slots
      let (place, slots) := stateFor (ruleId rule) "*" slots
      settle t rule (ruleKey rule first.label) (Memory.judgeEvery (termsOf rule) t.now)
        (found == (first :: others).length) place ⟨slots, s.alarms⟩

def turn (t : Tick) (what : Turn) (s : Engine) : Engine := (take t what s).engine

def Tick.mode (t : Tick) : String := jsonStr t.status ["mode"] "Stop"

/-- The lid is open, or the pit is climbing back after it was. -/
def Tick.lid (t : Tick) : Bool :=
  jsonBool t.status ["lid_event"] false || jsonBool t.status ["lid_open"] false

def Tick.cooking (t : Tick) : Bool :=
  t.mode ∈ ["Startup", "Relight", "Smoke", "Hold", "Shutdown"]

/-- The rules, if the setting is a list of them. -/
def Tick.all (t : Tick) : List Json :=
  match t.rules with
  | .arr rules => rules
  | _ => []

def enabled (rule : Json) : Bool := isTrue (jget (some rule) "enabled")

/-- Whether a rule was reporting when the tick began. -/
def standing (id : String) (slots : List Slot) : Bool :=
  slots.any fun st => st.rule == id && st.raised

/-- The rules that others, which are reporting, stand in for. -/
def superseded (t : Tick) (slots : List Slot) : List String :=
  (t.all.flatMap fun rule =>
    let sup := jget (some rule) "supersedes"
    if isArray sup && enabled rule && standing (ruleId rule) slots then
      (elements sup).filterMap fun item =>
        match item with
        | .str id => some id
        | _ => none
    else []).take 64

/-- Whether a rule is looked at in this tick, rather than over. -/
def applies (t : Tick) (slots : List Slot) (rule : Json) : Bool :=
  enabled rule && (t.cooking || !jsonBool rule ["only_while_cooking"] true) &&
    !(superseded t slots).contains (ruleId rule)

/-- Whether a rule is left exactly as it was: it is about the pit, and the lid
is open. -/
def frozen (t : Tick) (rule : Json) : Bool :=
  t.lid &&
    match jget (some rule) "when" with
    | some cond => whenAboutPit (jsonStr rule ["select", "domain"] "grill") cond
    | none => false

def matchesEvery (rule : Json) : Bool :=
  strcasecmp (jsonStr rule ["select", "match"] "any") "every"

/-- The turns of one rule. -/
def ruleTurns (t : Tick) (slots : List Slot) (rule : Json) : List Turn :=
  if ruleId rule = "" then []
  else if !applies t slots rule then [.retire (ruleId rule)]
  else if frozen t rule then []
  else
    match matchesEvery rule, selectInstances t.status rule with
    | true, [] => []
    | true, first :: others => [.judgeEvery rule first others]
    | false, insts => insts.map (.judge rule)

def turns (t : Tick) (s : Engine) : List Turn := t.all.flatMap (ruleTurns t s.slots)

def tick (t : Tick) (s : Engine) : Engine := run (turn t) (turns t s) s

end PiFire.Rules
