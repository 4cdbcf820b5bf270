import PiFire.Settings.RuleEdits
import PiFire.Control.Config

/-!
# Schema migrations

A settings file carries the version of the schema it was written for. Each
release that changes the schema adds a step, and a file that is behind takes
every step newer than its version, in order. A step edits what the older builds
left and then stamps its version.
-/

namespace PiFire.Settings

open Item

namespace Item

/-- Remove a member of the group at a path. -/
def delPath (parent : List String) (leaf : String) (root : Item) : Item :=
  modifyAt parent (·.deleteItem leaf) root

/-- Set a number of the group at a path: the old member goes and a new one is
added last. -/
def setNum (parent : List String) (leaf : String) (v : ℚ) (root : Item) : Item :=
  modifyAt parent (fun group => (group.deleteItem leaf).addItem leaf (number v)) root

end Item

namespace Schema

/-- Schema 2: the panel sleeps, where it was told never to. -/
def backlight (root : Item) : Item :=
  modifyAt ["display", "backlight_timeout_s"] (mapNumber fun x => if x ≤ 0 then 5 else x) root

/-- The path of the probe devices. -/
def devicesPath : List String := ["probe_settings", "probe_map", "probe_devices"]

/-- The path of the probes. -/
def infosPath : List String := ["probe_settings", "probe_map", "probe_info"]

/-- The items directly inside the item at a path. -/
def itemsAt (path : List String) (root : Item) : List Item :=
  ((root.path? path).map Item.children).getD []

/-- A text that is the first becomes the second. -/
def renameText (old new : String) (item : Item) : Item :=
  if item.asText? = some old then item.setText new else item

/-- Schema 3: the port of a Chef iQ probe is called by its new name. -/
def chefIqPorts (root : Item) : Item :=
  let chefIq (device : Item) : Bool := device.str ["module"] "" = "chefiq"
  let ports := modifyAt devicesPath (·.onChildren fun device =>
    if chefIq device then
      device.onAnyCase "ports" (·.onChildren (renameText "BT_Food" "BT_Probe"))
    else device) root
  ((itemsAt devicesPath root).filter chefIq).foldl (fun root device =>
    modifyAt infosPath (·.onChildren fun info =>
      if info.str ["device"] "" = device.str ["device"] "" ∧ info.str ["port"] "" = "BT_Food" then
        info.onAnyCase "port" (·.setText "BT_Probe")
      else info) root) ports

/-- Whether a device is reached over Bluetooth. -/
def wireless (device : Item) : Bool :=
  ["chefiq", "meater", "ibbq"].contains (device.str ["module"] "")

/-- The address of a device. -/
def address (device : Item) : String := device.str ["config", "hardware_id"] ""

/-- The devices after those already seen that are wireless and have the address
of an earlier one are dropped; with the names of those dropped. -/
def dropDuplicates (seen : List Item) : List Child → List Child × List String
  | [] => ([], [])
  | (name, device) :: rest =>
      let later := dropDuplicates (seen ++ [device]) rest
      if wireless device ∧ address device ≠ "" ∧
          seen.any (fun other => strcasecmp (address other) (address device)) then
        (later.1, device.str ["device"] "" :: later.2)
      else ((name, device) :: later.1, later.2)

/-- Schema 4: wireless devices without readings are dropped, and then second
devices for one address, with their readings. -/
def staleDevices (root : Item) : Item :=
  let infos := itemsAt infosPath root
  let used := modifyAt devicesPath (·.filterChildren fun device =>
    ¬wireless device ∨ infos.any fun info =>
      info.str ["device"] "" = device.str ["device"] "") root
  let dropped := (dropDuplicates [] (((used.path? devicesPath).map child).getD [])).2
  let single := modifyAt devicesPath
    (fun devices => node devices.kind (dropDuplicates [] devices.child).1) used
  modifyAt infosPath (·.filterChildren fun info =>
    ¬dropped.contains (info.str ["device"] "")) single

/-- Schema 6: the single hopper warning steps aside for its rules. -/
def pelletWarning (root : Item) : Item :=
  match (root.path? ["pelletlevel", "warning_enabled"]).map kind with
  | some (.bool _) => modifyAt ["pelletlevel"] (·.replaceItem "warning_enabled" (truth false)) root
  | _ => root

/-- Whether an item is the list of four set points. -/
def stockSetpoints (was : List ℚ) (item : Item) : Bool :=
  item.kind = .arr ∧ item.children.length = 4 ∧
    (item.children.zip was).all fun entry =>
      match entry.1.kind with
      | .num x => |x - entry.2| ≤ 1 / 2
      | _ => false

/-- Replace the set points of a tuning run where they are still those shipped. -/
def freshSetpoints (was now : List ℚ) (learning : Item) : Item :=
  match learning.getAnyCase? "tune_setpoints" with
  | some setpoints =>
      if stockSetpoints was setpoints then
        learning.replaceItem "tune_setpoints" (array (now.map number))
      else learning
  | none => learning

/-- Schema 10: a tuning run measures its baseline first. -/
def tuneBaseline (root : Item) : Item :=
  modifyAt ["learning"] (fun learning =>
    let fresh := freshSetpoints [180, 225, 350, 450] [250, 180, 350, 450] learning
    match fresh.getAnyCase? "tune_baseline" with
    | some _ => fresh
    | none => fresh.addItem "tune_baseline" (number 250)) root

/-- Schema 12: a tuning run is the baseline alone. -/
def baselineAlone (root : Item) : Item :=
  modifyAt ["learning"] (freshSetpoints [250, 180, 350, 450] [250]) root

/-- The controllers that retired. -/
def retired : List String :=
  ["pid_clamping", "pid_clamping_percent_pb", "pid_ac", "pid_sp", "pid_parallel"]

/-- The settings of the controllers without a retired one; the adaptive
controller takes its numbers over when it was in use. -/
def retire (selected : String) (cfg : Item) (id : String) : Item :=
  match cfg.getAnyCase? id with
  | none => cfg
  | some old =>
      let moved :=
        if selected = id then
          cfg.onAnyCase "adaptive" fun adaptive =>
            ["PB", "Ti", "Td"].foldl (fun adaptive key =>
              match (old.getAnyCase? key).map kind with
              | some (.num x) => adaptive.replaceItem key (number x)
              | _ => adaptive) adaptive
        else cfg
      moved.deleteItem id

/-- Whether a switch that may be missing is on. -/
def unlessOff (switch : Option Item) : Bool := switch.all fun item => item.kind = .bool true

/-- Schema 15: retired controllers go, and one switch says whether the grill
learns. -/
def retireControllers (root : Item) : Item :=
  let cfgPath := ["controller", "config"]
  let selected := ((root.path? ["controller", "selected"]).bind asText?).getD ""
  let present (id : String) : Bool :=
    ((root.path? cfgPath).bind fun cfg => cfg.getAnyCase? id).isSome
  let fewer := modifyAt cfgPath (fun cfg => retired.foldl (retire selected) cfg) root
  let moved :=
    if retired.contains selected ∧ present selected then
      modifyAt ["controller", "selected"] (·.setText "adaptive") fewer
    else fewer
  let learnSwitch := (moved.path? ["learning"]).bind fun learning =>
    learning.getAnyCase? "auto_tune"
  let ownSwitch := (moved.path? cfgPath).bind fun cfg =>
    (cfg.getAnyCase? "adaptive").bind fun adaptive => adaptive.getAnyCase? "auto_tune"
  let want := moved.bool ["learning", "enabled"] true && unlessOff learnSwitch &&
    unlessOff ownSwitch
  let switched := modifyAt ["learning"] (fun learning =>
    ((learning.deleteItem "enabled").addItem "enabled" (truth want)).deleteItem "auto_tune") moved
  modifyAt cfgPath (·.onAnyCase "adaptive" (·.deleteItem "auto_tune")) switched

/-- Whether a text holds another, in any case. -/
def strcasestr (hay needle : String) : Bool :=
  (hay.toList.map Char.toLower).tails.any fun tail =>
    (needle.toList.map Char.toLower).isPrefixOf tail

/-- Schema 16: an ambient sensor is not food. -/
def ambientSensors (root : Item) : Item :=
  modifyAt infosPath (·.onChildren fun info =>
    let type := info.str ["type"] "Food"
    if strcasestr (info.str ["port"] "") "ambient" ∧ ¬strcasecmp type "Primary" ∧
        ¬strcasecmp type "Aux" then
      (info.deleteItem "type").addItem "type" (text "Aux")
    else info) root

/-- An hour of the day as a time. -/
def hourText (hour : ℤ) : String :=
  let h := if 0 ≤ hour ∧ hour ≤ 23 then hour.toNat else 2
  (if h < 10 then "0" else "") ++ toString h ++ ":00"

/-- Schema 19: the hour of an update becomes a time of day. -/
def updateTime (root : Item) : Item :=
  root.onAnyCase "update" fun update =>
    let timed :=
      match (update.getAnyCase? "auto_install_hour").map kind with
      | some (.num x) =>
          let time := text (hourText (truncate x))
          match update.getAnyCase? "auto_install_time" with
          | some _ => update.replaceItem "auto_install_time" time
          | none => update.addItem "auto_install_time" time
      | _ => update
    timed.deleteItem "auto_install_hour"

/-- Schema 23: the check of a cold start is on, with five minutes. -/
def coldStart (root : Item) : Item :=
  modifyAt ["safety", "coldstart"] (fun check =>
    let on := check.replaceItem "enabled" (truth true)
    match on.getAnyCase? "timeout_s" with
    | some timeout =>
        match timeout.kind with
        | .num x => if x ≤ 0 then on.replaceItem "timeout_s" (number 300) else on
        | _ => on.replaceItem "timeout_s" (number 300)
    | none => on.addItem "timeout_s" (number 300)) root

/-- Schema 24: the igniter's cap of twenty minutes comes down to ten. -/
def igniterTen (root : Item) : Item :=
  root.onAnyCase "safety" (·.onAnyCase "igniter_max_on_s"
    (mapNumber fun x => if x = 1200 then 600 else x))

/-- Schema 25: and every cap to five. -/
def igniterFive (root : Item) : Item :=
  let cap (x : ℚ) : ℚ := if x > igniterMaxS then igniterMaxS else x
  root.onAnyCase "safety" fun safety =>
    (safety.onAnyCase "igniter_max_on_s" (mapNumber cap)).onAnyCase "power_loss"
      (·.onAnyCase "igniter_s" (mapNumber cap))

/-- Schema 26: the limit on fuel without heat is gone. -/
def fuelLimit (root : Item) : Item := root.onAnyCase "safety" (·.deleteItem "max_unburnt_g")

/-- Whether a password is one of those that were generated. -/
def generated (password : String) : Bool :=
  password.length = 10 ∧
    password.toList.all fun c => "abcdefghjkmnpqrstuvwxyz23456789".toList.contains c

/-- Schema 27: a generated hotspot password goes back to the documented one. -/
def hotspotPassword (root : Item) : Item :=
  root.onAnyCase "network" (·.onAnyCase "hotspot_password" fun password =>
    match password.asText? with
    | some s => if generated s then password.setText "pifire1234" else password
    | none => password)

/-- Schema 28: the gate on control over MQTT is gone. -/
def mqttGate (root : Item) : Item := root.delPath ["notify", "mqtt"] "allow_control"

/-- What Smart Start replaced. -/
def gone : List (List String × String) :=
  [(["safety"], "minstartuptemp"), (["safety"], "maxstartuptemp"), (["safety"], "startup_check"),
    (["safety"], "coldstart"), (["safety", "power_loss"], "igniter_s"),
    (["safety"], "relight_recover"), (["safety"], "relight_recover_step"),
    (["safety"], "relight_timeout_s"), (["startup"], "duration"),
    (["startup"], "startup_exit_temp"), (["startup"], "exit_rise"),
    (["startup", "smartstart"], "enabled"), (["startup", "smartstart"], "exit_temp")]

/-- Whether a tree's units are Celsius. -/
def celsius (root : Item) : Bool := root.str ["globals", "units"] "F" = "C"

/-- The limits the defaults just added arrive in Fahrenheit, so a Celsius grill
has them converted. -/
def celsiusLimits (root : Item) : Item :=
  let limits := ((root.setNum ["safety"] "min_target" 71).setNum ["safety"] "max_target" 288).setNum
    ["safety"] "smoke_min" 82
  (limits.setNum ["startup", "smartstart"] "prove_rise" 2).setNum
    ["startup", "smartstart"] "exit_rise" 7

/-- The time and the rise of the old check carry over. -/
def carryOver (c : Bool) (root : Item) : Item :=
  let timed :=
    match (root.path? ["safety", "coldstart", "timeout_s"]).map kind with
    | some (.num x) =>
        if x ≥ 60 then root.setNum ["startup", "smartstart"] "prove_s" (min x igniterMaxS)
        else root
    | _ => root
  match (timed.path? ["safety", "coldstart", "delta_rise"]).map kind with
  | some (.num x) =>
      if x > (if c then 2 else 3) ∧ x ≤ (if c then 28 else 50) then
        timed.setNum ["startup", "smartstart"] "exit_rise" x
      else timed
  | _ => timed

/-- Schema 29: one Smart Start, set point limits, and Relight. -/
def smartStart (root : Item) : Item :=
  let c := celsius root
  let limits := if c then celsiusLimits root else root
  let carried := carryOver c limits
  let overheat := modifyAt ["safety", "maxtemp"]
    (mapNumber fun x => if x = (if c then 288 else 550) then (if c then 343 else 650) else x) carried
  let profiles := modifyAt ["startup", "smartstart", "profiles"]
    (·.onChildren (·.deleteItem "startuptime")) overheat
  let fewer := gone.foldl (fun root entry => root.delPath entry.1 entry.2) profiles
  modifyAt ["notify", "rules"] renameMode fewer

/-- Schema 30: Smoke+ has one temperature. -/
def smokePlusFloor (root : Item) : Item := root.onAnyCase "smoke_plus" (·.deleteItem "min_temp")

/-- The steps, each under the version it leads to. -/
def steps : List (ℕ × (Item → Item)) :=
  [(2, backlight), (3, chefIqPorts), (4, staleDevices), (5, etaWarning), (6, pelletWarning),
    (7, stallRules), (8, probeRules), (9, coverSmoke), (10, tuneBaseline), (11, holdFromSmoke),
    (12, baselineAlone), (13, addDeadbands), (14, addWebPush), (15, retireControllers),
    (16, ambientSensors), (17, guardFlameOut), (18, offTheHeat), (19, updateTime),
    (20, oneWarning), (21, removeFromHeat), (22, rewordRules), (23, coldStart), (24, igniterTen),
    (25, igniterFive), (26, fuelLimit), (27, hotspotPassword), (28, mqttGate), (29, smartStart),
    (30, smokePlusFloor)]

/-- The version a tree carries; one without it counts as the first. -/
def version (root : Item) : ℤ := root.int ["schema_version"] 1

/-- Note the version a step leads to. -/
def stamp (n : ℕ) (root : Item) : Item :=
  match root.getAnyCase? "schema_version" with
  | some _ => root.onAnyCase "schema_version" (·.setNumber n)
  | none => root.addItem "schema_version" (number n)

/-- The steps newer than a version. -/
def due (ver : ℤ) : List (ℕ × (Item → Item)) := steps.filter fun step => ver < step.1

/-- Take the steps newer than a version, in order. -/
def migrate (ver : ℤ) (root : Item) : Item :=
  (due ver).foldl (fun root step => stamp step.1 (step.2 root)) root

end Schema

end PiFire.Settings
