import PiFire.Settings.Edit

/-!
# The notification rules through the schemas

The rules stand in the settings as they were written, so each release that
changes its mind about a built-in rule edits the copies that settings files
hold. A rule is recognised by its id, and most edits leave a rule alone that
somebody has rewritten.
-/

namespace PiFire.Settings

namespace Item

/-- Write a number computed from the one an item is. -/
def mapNumber (f : ℚ → ℚ) (item : Item) : Item :=
  match item.kind with
  | .num x => item.setNumber (f x)
  | _ => item

/-- Replace a text by another, where it is still the first. -/
def reword (name old new : String) (item : Item) : Item :=
  if item.str [name] "" = old then item.replaceItem name (text new) else item

/-- Change every rule. -/
def onRules (f : Item → Item) (root : Item) : Item :=
  modifyAt ["notify", "rules"] (·.onChildren f) root

/-- Change the rules with an id. -/
def onRule (id : String) (f : Item → Item) (root : Item) : Item :=
  root.onRules fun rule => if rule.str ["id"] "" = id then f rule else rule

/-- Change every condition of a rule. -/
def onConditions (f : Item → Item) (rule : Item) : Item :=
  modifyAt ["when", "conditions"] (·.onChildren f) rule

/-- The conditions of a rule, when they are an array. -/
def conditions? (rule : Item) : Option Item :=
  (rule.path? ["when", "conditions"]).filter fun conds => conds.kind = .arr

/-- Whether a condition among these is about a trait. -/
def mentions (trait : String) (conds : Item) : Bool :=
  conds.children.any fun cond => cond.str ["trait"] "" = trait

/-- A condition that the grill has been aiming at its set point for twenty
minutes. -/
def aimingLong : Item :=
  object
    [("entity", text "grill"), ("trait", text "aiming_s"), ("op", text ">"), ("value", number 1200)]

end Item

open Item

namespace Schema

/-- Schema 5: the warning ahead of a target becomes the rule that replaces it. -/
def etaWarning (root : Item) : Item :=
  let warn := root.num ["notify", "eta_warn_min"] 15
  root.onRule "probe-eta" fun rule =>
    let timed := rule.onConditions fun cond =>
      if cond.str ["trait"] "" = "eta" ∧ cond.str ["op"] "" = "<=" then
        cond.onAnyCase "value" fun value => value.setNumber (warn * 60)
      else cond
    if warn ≤ 0 then timed.replaceItem "enabled" (truth false) else timed

/-- Schema 7: a rule about a grill off its set point waits for a stall. -/
def waitForStall (hot : Bool) (rule : Item) : Item :=
  match rule.conditions? with
  | none => rule
  | some conds =>
      if conds.mentions "aiming_s" then rule
      else
        let guarded := modifyAt ["when", "conditions"] (·.append (none, aimingLong)) rule
        let named := guarded.replaceItem "name"
          (text (if hot then "Grill Stalled Hot" else "Grill Stalled Cold"))
        let titled := named.replaceItem "title"
          (text (if hot then "\x7bgrill\x7d is not coming down"
            else "\x7bgrill\x7d is not getting there"))
        let worded := titled.replaceItem "body"
          (text ("Still \x7bgrill_temp\x7d against a \x7bsetpoint\x7d target, " ++
            "twenty minutes after being asked for it." ++
            if hot then "" else " Check the fire and the hopper."))
        worded.onAnyCase "for_s" fun seconds => seconds.setNumber 120

def stallRules (root : Item) : Item :=
  (root.onRule "grill-hot" (waitForStall true)).onRule "grill-cold" (waitForStall false)

/-- Schema 8: a probe's rule needs the probe to be part of a cook. -/
def inTheCook (rule : Item) : Item :=
  match rule.conditions? with
  | none => rule
  | some conds =>
      let asked :=
        if conds.mentions "in_use" then rule
        else modifyAt ["when", "conditions"]
          (·.prepend (object [("trait", text "in_use"), ("op", text "is_on")])) rule
      match asked.getAnyCase? "only_while_cooking" with
      | some only =>
          if only.kind = .bool true then asked
          else asked.replaceItem "only_while_cooking" (truth true)
      | none => asked

def probeRules (root : Item) : Item :=
  root.onRules fun rule =>
    if "probe-".toList.isPrefixOf (rule.str ["id"] "").toList then inTheCook rule else rule

/-- Schema 9: the rule for the grill at temperature covers Smoke too. -/
def coverSmoke (root : Item) : Item :=
  root.onRule "grill-at-temp" fun rule =>
    match rule.conditions? with
    | none => rule
    | some _ => rule.onConditions fun cond =>
        if cond.str ["trait"] "" = "mode" ∧ cond.str ["op"] "" = "is" ∧
            cond.str ["value"] "" = "Hold" then
          (cond.replaceItem "op" (text "is_one_of")).replaceItem "value"
            (array [text "Hold", text "Smoke"])
        else cond

/-- When the grill is at temperature: near its set point in Hold, and in the
range Smoke runs in. -/
def atTemperature : Item :=
  object
    [("op", text "any"),
      ("conditions", array
        [object
          [("op", text "all"),
            ("conditions", array
              [object
                [("entity", text "grill"), ("trait", text "mode"), ("op", text "is"),
                  ("value", text "Hold")],
               object
                [("entity", text "grill"), ("trait", text "over"), ("op", text "within"),
                  ("value", number 0), ("value2", number 15)]])],
         object
          [("op", text "all"),
            ("conditions", array
              [object
                [("entity", text "grill"), ("trait", text "mode"), ("op", text "is"),
                  ("value", text "Smoke")],
               object
                [("entity", text "grill"), ("trait", text "temp"), ("op", text "between"),
                  ("value", number 180), ("value2", number 230)]])]])]

/-- Schema 11: that rule keeps Hold and Smoke apart. -/
def holdFromSmoke (root : Item) : Item :=
  root.onRule "grill-at-temp" fun rule =>
    match rule.conditions? with
    | some (.node _ [(_, mode), _]) =>
        if mode.str ["trait"] "" = "mode" ∧
            (mode.str ["op"] "" = "is_one_of" ∨ mode.str ["op"] "" = "is") then
          (rule.replaceItem "when" atTemperature).replaceItem "body"
            (text "The pit is at \x7bgrill_temp\x7d.")
        else rule
    | _ => rule

/-- Schema 13: an alarm clears only once the reading has recovered. -/
def deadbands : List (String × ℚ) :=
  [("hopper-low", 5), ("hopper-critical", 4), ("grill-hot", 3), ("grill-cold", 3)]

def addDeadbands (root : Item) : Item :=
  root.onRules fun rule =>
    match deadbands.lookup (rule.str ["id"] ""), rule.getAnyCase? "deadband" with
    | some band, none => rule.addItem "deadband" (number band)
    | _, _ => rule

/-- Whether a text is among the items directly inside. -/
def hasText (s : String) (item : Item) : Bool :=
  item.children.any fun inner => inner.asText? = some s

/-- Schema 14: a rule that sends to a phone sends to the browser too. -/
def addWebPush (root : Item) : Item :=
  root.onRules fun rule =>
    match rule.getAnyCase? "sinks" with
    | some sinks =>
        if sinks.kind = .arr ∧ (hasText "pushover" sinks ∨ hasText "ntfy" sinks) ∧
            ¬hasText "webpush" sinks then
          rule.onAnyCase "sinks" (·.append (none, text "webpush"))
        else rule
    | none => rule

/-- Schema 17: the rules that cried wolf are removed or guarded. -/
def guardFlameOut (root : Item) : Item :=
  let fewer := modifyAt ["notify", "rules"] (·.filterChildren fun rule =>
    rule.str ["id"] "" ≠ "grill-over" ∧ rule.str ["id"] "" ≠ "grill-under") root
  fewer.onRule "grill-flameout" fun rule =>
    modifyAt ["when", "conditions"]
      (fun conds => if conds.mentions "aiming_s" then conds else conds.append (none, aimingLong))
      rule

/-- Schema 18: the alert at a target says what to do. -/
def offTheHeat (root : Item) : Item :=
  root.onRule "probe-target" fun rule =>
    (rule.reword "title" "\x7bprobe\x7d reached \x7btarget\x7d"
        "\x7bprobe\x7d: off the heat").reword
      "body" "\x7bprobe\x7d is at \x7btemp\x7d after \x7bcook_time\x7d."
      "\x7bfood\x7d is at \x7btemp\x7d\x7brest\x7d."

/-- Schema 20: one warning before a target is enough. -/
def oneWarning (root : Item) : Item :=
  modifyAt ["notify", "rules"] (·.filterChildren fun rule =>
    ¬(rule.str ["id"] "" = "probe-off-heat" ∧
      rule.str ["title"] "" = "Take \x7bprobe\x7d off soon")) root

/-- Schema 21: the shipped words change again. -/
def removeFromHeat (root : Item) : Item :=
  let target := root.onRule "probe-target" fun rule =>
    let titled :=
      if rule.str ["title"] "" = "\x7bprobe\x7d: off the heat" ∨
          rule.str ["title"] "" = "\x7bprobe\x7d reached \x7btarget\x7d" then
        rule.replaceItem "title" (text "\x7bprobe\x7d: Remove from Heat")
      else rule
    titled.reword "name" "Probe Reached Target" "Remove from Heat"
  target.onRule "probe-eta" fun rule =>
    (rule.reword "title" "\x7bprobe\x7d is \x7beta\x7d from \x7btarget\x7d"
        "\x7bprobe\x7d: Almost There").reword
      "body" "\x7bprobe\x7d is at \x7btemp\x7d, climbing towards \x7btarget\x7d."
      "\x7btemp\x7d, \x7beta\x7d to \x7btarget\x7d."

/-- The words a rule shipped with, and the ones that replace them. -/
structure Wording where
  id : String
  oldName : String
  oldTitle : String
  oldBody : String
  newName : String
  newTitle : String
  newBody : String

/-- Schema 22: a condition or an action in the title, readings in the body. -/
def wordings : List Wording :=
  [⟨"probe-target", "Remove from Heat", "\x7bprobe\x7d: Remove from Heat",
      "\x7bfood\x7d is at \x7btemp\x7d\x7brest\x7d.", "Remove from Heat",
      "\x7bprobe\x7d: Remove from Heat", "\x7bfood\x7d · \x7btemp\x7d\x7brest\x7d"⟩,
    ⟨"probe-eta", "Almost There", "\x7bprobe\x7d: Almost There",
      "\x7btemp\x7d, \x7beta\x7d to \x7btarget\x7d.", "Almost There", "\x7bprobe\x7d: Almost There",
      "\x7btemp\x7d · \x7beta\x7d to \x7btarget\x7d"⟩,
    ⟨"probe-offline", "Probe Went Offline", "\x7bprobe\x7d went offline",
      "No readings from \x7bprobe\x7d. Check the battery, the range, " ++
        "or whether it went back in its charger.",
      "Probe Offline", "\x7bprobe\x7d: Offline", "No signal. Check battery and range."⟩,
    ⟨"probe-battery", "Probe Battery Low", "\x7bprobe\x7d battery at \x7bbattery\x7d",
      "\x7bprobe\x7d will need charging before the next cook.", "Probe Battery Low",
      "\x7bprobe\x7d: Battery \x7bbattery\x7d", "Charge before next cook."⟩,
    ⟨"grill-at-temp", "Grill Reached Temp", "\x7bgrill\x7d is up to temperature",
      "The pit is at \x7bgrill_temp\x7d.", "At Temperature", "\x7bgrill\x7d: At Temperature",
      "Pit \x7bgrill_temp\x7d"⟩,
    ⟨"grill-hot", "Grill Stalled Hot", "\x7bgrill\x7d is not coming down",
      "Still \x7bgrill_temp\x7d against a \x7bsetpoint\x7d target, " ++
        "twenty minutes after being asked for it.",
      "Above Set Point", "\x7bgrill\x7d: Above Set Point",
      "Pit \x7bgrill_temp\x7d · Set \x7bsetpoint\x7d · 20 min"⟩,
    ⟨"grill-cold", "Grill Stalled Cold", "\x7bgrill\x7d is not getting there",
      "Still \x7bgrill_temp\x7d against a \x7bsetpoint\x7d target, " ++
        "twenty minutes after being asked for it. Check the fire and the hopper.",
      "Below Set Point", "\x7bgrill\x7d: Below Set Point",
      "Pit \x7bgrill_temp\x7d · Set \x7bsetpoint\x7d · 20 min. Check fire and hopper."⟩,
    ⟨"hopper-low", "Hopper Low", "Pellets are low",
      "The hopper is at \x7bhopper\x7d. Top it up before it runs out.", "Hopper Low",
      "\x7bgrill\x7d: Hopper Low", "Hopper \x7bhopper\x7d. Refill."⟩,
    ⟨"hopper-critical", "Hopper Critical", "Pellets about to run out",
      "The hopper is at \x7bhopper\x7d. The fire will go out if it is not filled now.",
      "Hopper Critical", "\x7bgrill\x7d: Hopper Critical", "Hopper \x7bhopper\x7d. Refill now."⟩,
    ⟨"grill-emergency", "Emergency Shutdown", "\x7bgrill\x7d shut itself down",
      "Over temperature at \x7bgrill_temp\x7d. The fire is out and the fan is cooling it.",
      "Emergency Shutdown", "\x7bgrill\x7d: Emergency Shutdown",
      "Over temperature at \x7bgrill_temp\x7d. Fire out, fan cooling."⟩,
    ⟨"grill-flameout", "Flame Out", "\x7bgrill\x7d may have gone out",
      "Down to \x7bgrill_temp\x7d from a \x7bsetpoint\x7d target.", "Flame Out",
      "\x7bgrill\x7d: Flame Out", "Pit \x7bgrill_temp\x7d · Set \x7bsetpoint\x7d"⟩,
    ⟨"probe-step-soon", "Step Coming Up", "\x7bstep\x7d coming up on \x7bprobe\x7d",
      "\x7bprobe\x7d is at \x7btemp\x7d — about a minute to \x7bstep\x7d.", "Step Next",
      "\x7bprobe\x7d: \x7bstep\x7d in 1 min", "\x7btemp\x7d"⟩,
    ⟨"update-available", "PiFire Update", "PiFire \x7bupdate_version\x7d available",
      "Settings › Software Updates", "PiFire Update", "PiFire \x7bupdate_version\x7d Available",
      "Settings › Software Updates"⟩,
    ⟨"system-updates", "System Updates", "\x7bsystem_updates\x7d system updates",
      "Settings › Software Updates", "System Updates", "\x7bsystem_updates\x7d System Updates",
      "Settings › Software Updates"⟩,
    ⟨"backup-done", "Backup Done", "Backup done", "", "Backup Complete", "Backup Complete", ""⟩,
    ⟨"backup-failed", "Backup Failed", "Backup failed", "Settings › Backup", "Backup Failed",
      "Backup Failed", "Settings › Backup"⟩,
    ⟨"grill-restarted", "Grill Restarted", "\x7bgrill\x7d restarted",
      "\x7brestart_reason\x7d\x7brestart_resuming\x7d.", "Grill Restarted",
      "\x7bgrill\x7d: Restarted", "\x7brestart_reason\x7d\x7brestart_resuming\x7d"⟩,
    ⟨"probe-target", "Probe Reached Target", "\x7bprobe\x7d: off the heat",
      "\x7bfood\x7d is at \x7btemp\x7d\x7brest\x7d.", "Remove from Heat",
      "\x7bprobe\x7d: Remove from Heat", "\x7bfood\x7d · \x7btemp\x7d\x7brest\x7d"⟩,
    ⟨"probe-eta", "Almost There", "\x7bprobe\x7d is \x7beta\x7d from \x7btarget\x7d",
      "\x7bprobe\x7d is at \x7btemp\x7d, climbing towards \x7btarget\x7d.", "Almost There",
      "\x7bprobe\x7d: Almost There", "\x7btemp\x7d · \x7beta\x7d to \x7btarget\x7d"⟩]

def rewordRules (root : Item) : Item :=
  root.onRules fun rule =>
    let id := rule.str ["id"] ""
    (wordings.filter fun words => words.id = id).foldl (fun rule words =>
      ((rule.reword "name" words.oldName words.newName).reword
        "title" words.oldTitle words.newTitle).reword "body" words.oldBody words.newBody) rule

mutual

/-- "Reignite" became "Relight" wherever a rule names the mode. -/
def renameMode : Item → Item
  | .node kind children => .node kind (renameModes children)

def renameModes : List Child → List Child
  | [] => []
  | (name, .node (.str s) children) :: rest =>
      (name, .node (.str (if s = "Reignite" then "Relight" else s)) children) :: renameModes rest
  | (name, .node .obj children) :: rest =>
      (name, renameMode (.node .obj children)) :: renameModes rest
  | (name, .node .arr children) :: rest =>
      (name, renameMode (.node .arr children)) :: renameModes rest
  | entry :: rest => entry :: renameModes rest

end

end Schema

end PiFire.Settings
