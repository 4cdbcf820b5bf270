import PiFire.Halt.Queue
import PiFire.Display.Screens
import PiFire.Pellets.Hopper
import PiFire.Settings.Migrate
import PiFire.Settings.Patch

/-!
# Acting on a row

What a press does once a row, a value or a confirmation has been chosen. Most
rows act at once; some open another screen, and some open a confirmation that
names what a Yes will do and remembers the action for it.
-/

namespace PiFire.Display

open Settings Transition

/-- What an event may change outside the panel: the command queue, the settings,
the request to calibrate the hopper, and the calls that restart or switch off
the controller. -/
structure World where
  cmdq : Cmdq
  store : Store
  calRequest : Option Pellets.Mark
  checkRequest : Bool
  power : List Bool

structure Panel where
  ui : Ui
  status : Option Item
  world : World
  margins : Edges
  bgr : Bool
  rotation : ℤ
  theme : String
  cfgGen : ℕ
  backlightTimeout : ℚ
  lastActivity : ℚ
  splashUntil : ℚ
  backlightOn : Bool := true
  estop : Bool := false
  spinCount : ℕ := 0
  spinLast : ℚ := 0
  /-- The scans for probes it started. -/
  scans : ℕ := 0
  /-- How often it acknowledged what was flashing. -/
  acks : ℕ := 0

/-- When an event happens, and what a write of the settings file returns in it. -/
structure Moment where
  now : ℚ
  written : ℤ

namespace Panel

/-- The status as a reader finds it: reading none is reading an empty item. -/
def stat (p : Panel) : Item := p.status.getD (.node .null [])

def onUi (f : Ui → Ui) (p : Panel) : Panel := { p with ui := f p.ui }

/-- `pf_cmdq_push`, whose answer the panel does not look at. -/
def send (cmd : Cmd) (p : Panel) : Panel :=
  { p with world := { p.world with cmdq := (cmdqPush cmd p.world.cmdq).1 } }

/-- `pf_settings_patch`: the panel after it, and whether it succeeded. -/
def patch (path : String) (json : Json) (m : Moment) (p : Panel) : Panel × Bool :=
  let result := settingsPatch path (some json) m.written p.world.store
  ({ p with world := { p.world with store := result.store } }, result.rc == 0)

/-- Change the settings in memory and save them. -/
def save (edit : Item → Item) (m : Moment) (p : Panel) : Panel :=
  let store := { p.world.store with root := edit p.world.store.root }
  { p with world := { p.world with store := (saveLocked m.written store).2 } }

def push (screen : Screen) (list : ListId) (p : Panel) : Panel := p.onUi (·.push screen list)
def pop (p : Panel) : Panel := p.onUi Ui.pop
def reset (p : Panel) : Panel := p.onUi Ui.reset

def showMessage (msg : String) (secs : ℚ) (m : Moment) (p : Panel) : Panel :=
  p.onUi fun ui =>
    ({ ui with message := strlcpy 64 msg, messageUntil := m.now + secs }).reset.push .message .root

def openMenu (p : Panel) : Panel := p.onUi fun ui => ui.reset.push .list .root

def celsius (p : Panel) : Bool := (p.stat.str ["units"] "F").toList.head? == some 'C'

/-- `lo` and `hi`, the ends of the temperatures that can be selected. -/
def tempEnds (p : Panel) : ℚ × ℚ := if p.celsius then (50, 300) else (120, 570)

def tempStep (p : Panel) : ℚ := if p.celsius then 2 else 5

/-- Open the selector at a value, ready to edit. -/
def openSelector (act : Action) (kind : Selects) (title button : String) (value : ℚ) (p : Panel) :
    Panel :=
  p.onUi fun ui =>
    ({ ui with
      tempValue := value, tempAction := act, tempKind := kind, tempFocus := 0, tempEditing := true,
      tempTitle := strlcpy 20 title, tempButton := strlcpy 12 button }).push .temp .root

-- the values are positive, where C's `round` is the one that rounds a half up
def openTemp (act : Action) (title button : String) (value : ℚ) (p : Panel) : Panel :=
  let (lo, hi) := p.tempEnds
  let above := if value < lo then lo else value
  let within := if above > hi then hi else above
  p.openSelector act .temperature title button (round within)

def openTimer (p : Panel) : Panel := p.openSelector .timer .minutes "TIMER" "Start" 30

def openPmode (p : Panel) : Panel :=
  let pm := p.world.store.root.int ["cycle_data", "PMode"] 2
  p.openSelector .pmode .pmode "P-MODE" "Set" (if pm < 0 then 0 else if pm > 9 then 9 else pm)

def spinTemp (dir : ℤ) (m : Moment) (p : Panel) : Panel :=
  if p.ui.tempKind = .pmode then
    p.onUi fun ui => { ui with tempValue := min (max (ui.tempValue + dir) 0) 9 }
  else
    let minutes := p.ui.tempKind = .minutes
    let (lo, hi) := if minutes then (1, 600) else p.tempEnds
    let count := if m.now - p.spinLast < 1 / 2 then p.spinCount + 1 else 0
    let factor := if count ≥ 7 then (if minutes then 10 else 6)
      else if count ≥ 3 then (if minutes then 5 else 4) else 1
    let moved := p.ui.tempValue + dir * ((if minutes then 1 else p.tempStep) * factor)
    let held :=
      if minutes then
        let low := if moved > hi then hi else moved
        if low < lo then lo else low
      else
        -- a temperature goes round at its ends
        let low := if moved > hi then lo else moved
        if low < lo then hi else low
    { p.onUi fun ui => { ui with tempValue := round held } with
      spinCount := count, spinLast := m.now }

/-- Ask before an action: Cancel is picked out. -/
def openConfirm (act : Action) (text yes : String) (danger : Bool) (p : Panel) : Panel :=
  p.onUi fun ui =>
    ({ ui with
      confirmAction := act, confirmFocus := 0, confirmDanger := danger,
      confirmText := strlcpy 44 text, confirmYes := strlcpy 12 yes }).push .confirm .root

/-- The ports each make exposes. -/
def btPorts : List (List String) :=
  [["BT_Probe", "BT_Ambient"], ["BT_Tip", "BT_Ambient"], ["BT0", "BT1"]]

def btBeginScan (kind : ℕ) (p : Panel) : Panel :=
  match btKinds[kind]? with
  | none => p
  | some make =>
      { p.onUi fun ui =>
          ({ ui with
            btKind := strlcpy 16 make.module, btLabel := strlcpy 24 make.label, bt := [],
            btScanning := true }).push .btscan .root with
        scans := p.scans + 1 }

/-- The probes of one make among those a scan found. -/
def collected (kind : String) (found : Item) : List Found :=
  (found.children.filterMap fun f =>
    let addr := f.str ["address"] ""
    if f.str ["kind"] "" ≠ kind ∨ addr = "" then none
    else some ⟨strlcpy 24 (f.str ["name"] addr), strlcpy 20 addr⟩).take 6

/-- Take the result of a scan, when one is waited for and done. -/
def btCollect (found : Option Item) (p : Panel) : Panel :=
  match p.ui.btScanning, found with
  | true, some found =>
      p.onUi fun ui => { ui with btScanning := false, bt := collected ui.btKind found }.setIndex 0
  | _, _ => p

/-- `probe_settings.probe_map` -/
def mapPath : List String := ["probe_settings", "probe_map"]

/-- A list in the probe map, in any case. -/
def inMap (name : String) (root : Item) : Option Item :=
  (root.path? mapPath).bind (Item.getAnyCase? name)

/-- The first number from 1 to 99 that is not taken. -/
def firstFree (taken : ℕ → Bool) : Option ℕ := (List.range' 1 99).find? fun n => !taken n

/-- Whether an item of a list has a text under a name, in any case. -/
def taken (list : Item) (name want : String) : Bool :=
  list.children.any fun item => strcasecmp (item.str [name] "") want

/-- A device name of the panel's own for a make. -/
def deviceName (kind : String) (n : ℕ) : String := shorten 16 kind ++ toString n

/-- The device name nothing else is using; the last one tried when all are. -/
def freeDevice (kind : String) (devs : Item) : String :=
  deviceName kind ((firstFree fun n => taken devs "device" (deviceName kind n)).getD 99)

/-- The next free number of a probe name. -/
def freeProbe (infos : Item) : ℕ :=
  (firstFree fun n => taken infos "name" ("BT" ++ toString n)).getD 100

/-- The ports of the make a scan was for. -/
def portsOf (kind : String) : List String :=
  (btPorts[(btKinds.findIdx? fun make => make.module == kind).getD 0]?).getD []

/-- The device of a new probe. -/
def newDevice (dev kind addr : String) : Item :=
  .object [("device", .text dev), ("module", .text kind),
    ("ports", .array ((portsOf kind).map .text)),
    ("config", .object [("hardware_id", .text addr), ("transient", .truth true)])]

/-- The probe of one port of a new device; an ambient sensor is kept off the
home screens. -/
def newInfo (dev : String) (bt i : ℕ) (port : String) : Item :=
  let ambient := Schema.strcasestr port "Ambient"
  .object [("type", .text "Food"), ("label", .text (shorten 28 dev ++ toString (i + 1))),
    ("name", .text ("BT" ++ toString bt ++ if ambient then " Ambient" else "")),
    ("profile", .text "TWPS00"), ("device", .text dev), ("port", .text port),
    ("enabled", .truth true), ("show_on_home", .truth !ambient)]

/-- One device with its ports, and one probe for each port. -/
def addFound (kind : String) (found : Found) (devs infos root : Item) : Item :=
  let dev := freeDevice kind devs
  let entries := (portsOf kind).zipIdx.map fun (port, i) => newInfo dev (freeProbe infos) i port
  Item.modifyAt mapPath (fun map =>
    (map.onAnyCase "probe_devices" (·.append (none, newDevice dev kind found.addr))).onAnyCase
      "probe_info" fun infos => entries.foldl (fun infos entry => infos.append (none, entry)) infos)
    root

def btAdd (idx : ℕ) (m : Moment) (p : Panel) : Panel :=
  match p.ui.bt[idx]? with
  | none => p
  | some found =>
      match inMap "probe_devices" p.world.store.root, inMap "probe_info" p.world.store.root with
      | some devs, some infos =>
          ((p.save (addFound p.ui.btKind found devs infos) m).send .probesChanged).showMessage
            ("BT" ++ toString (freeProbe infos) ++ " added") 3 m
      | _, _ => p.showMessage "Cannot add probe" 4 m

/-- `probe_settings.probe_map.probe_info` -/
def infoPath : List String := mapPath ++ ["probe_info"]

/-- Whether an item belongs to a device. -/
def ofDevice (device : String) (item : Item) : Bool := item.str ["device"] "" == device

/-- Switch a probe on or off. -/
def setEnabled (on : Bool) (info : Item) : Item :=
  match info.getAnyCase? "enabled" with
  | some _ => info.replaceItem "enabled" (.truth on)
  | none => info.addItem "enabled" (.truth on)

def btSetEnabled (device : String) (on : Bool) (m : Moment) (p : Panel) : Panel :=
  match p.world.store.root.path? infoPath with
  | none => p
  | some infos =>
      if infos.children.any (ofDevice device) then
        (p.save (Item.modifyAt infoPath (·.onChildren fun info =>
          if ofDevice device info then setEnabled on info else info)) m).send .probesChanged
      else p

/-- The settings without the entries of a device. -/
def removeDevice (device : String) (root : Item) : Item :=
  Item.modifyAt mapPath (fun map =>
    (map.onAnyCase "probe_info" (·.filterChildren fun info => !ofDevice device info)).onAnyCase
      "probe_devices" (·.filterChildren fun dev => !ofDevice device dev)) root

def btRemove (device : String) (m : Moment) (p : Panel) : Panel :=
  ((p.save (removeDevice device) m).send .probesChanged).showMessage
    (shorten 24 device ++ " removed") 3 m

def marginMax : ℤ := 60

/-- The edited margins are drawn, and not written to the settings. -/
def marginsLive (p : Panel) : Panel := { p with margins := p.ui.margin }

def marginsOpen (p : Panel) : Panel :=
  p.onUi fun ui =>
    ({ ui with
      margin := p.margins, marginFocus := 0, marginEditing := false,
      marginDirty := false }).push .margins .root

/-- Leaving without saving puts the margins of the settings back. -/
def marginsRevert (p : Panel) : Panel :=
  if !p.ui.marginDirty then p
  else
    let reverted :=
      match p.world.store.root.path? ["display"] with
      | none => p
      | some d =>
          (p.onUi fun ui =>
            { ui with
              margin :=
                { top := d.int ["margin_top"] 0
                  right := d.int ["margin_right"] 16
                  bottom := d.int ["margin_bottom"] 0
                  left := d.int ["margin_left"] 0 } }).marginsLive
    reverted.onUi fun ui => { ui with marginDirty := false }

def marginsSave (m : Moment) (p : Panel) : Panel :=
  let (patched, saved) := p.patch "display"
    (.obj [("margin_top", .num p.ui.margin.top), ("margin_right", .num p.ui.margin.right),
      ("margin_bottom", .num p.ui.margin.bottom), ("margin_left", .num p.ui.margin.left)]) m
  if saved then
    ({ patched with cfgGen := patched.world.store.gen }.onUi fun ui =>
      { ui with marginDirty := false }).showMessage "Margins saved" 2 m
  else patched.showMessage "Save Failed" 3 m

/-- The set point on the screen, or the one the grill starts to. -/
def setpoint (p : Panel) : ℚ :=
  if p.stat.num ["setpoint"] 0 > 0 then p.stat.num ["setpoint"] 0
  else p.world.store.root.num ["startup", "start_to_mode", "primary_setpoint"] 225

/-- A temperature of the tables in the user's units. -/
def degrees (p : Panel) (f : ℤ) : ℤ := if p.celsius then round (((f : ℚ) - 32) * 5 / 9) else f

def switchTheme (m : Moment) (p : Panel) : Panel :=
  let light := (strlcpy 16 (p.world.store.root.str ["display", "theme"] "dark")).toList.head? ==
    some 'l'
  let theme := if light then "dark" else "light"
  let (patched, saved) := p.patch "display" (.obj [("theme", .str theme)]) m
  if saved then { patched with theme := theme, cfgGen := patched.world.store.gen } else patched

def switchColour (m : Moment) (p : Panel) : Panel :=
  let bgr := !p.world.store.root.bool ["display", "bgr"] false
  let (patched, saved) := p.patch "display" (.obj [("bgr", .bool bgr)]) m
  if saved then { patched with bgr := bgr, cfgGen := patched.world.store.gen } else patched

/-- Choose a probe: without a target the meats, with one what can be done with
it. -/
def chooseProbe (arg : ℕ) (p : Panel) : Panel :=
  match probeAt p.stat arg with
  | none => p
  | some probe =>
      (p.onUi fun ui =>
        { ui with probeIdx := arg, tempProbe := strlcpy 32 (probe.str ["label"] "") }).push .list
        (if probe.num ["target"] 0 > 0 then .probeAct else .meat)

def openCustom (p : Panel) : Panel :=
  let current := ((probeAt p.stat p.ui.probeIdx).map fun probe => probe.num ["target"] 0).getD 0
  p.openTemp .probeTarget "PROBE TARGET" "Save"
    (if current > 0 then current else if p.celsius then 95 else 203)

/-- Set the chosen probe's target by how done its meat is to be. -/
def chooseDone (meat : Meat) (d : Doneness) (m : Moment) (p : Panel) : Panel :=
  -- what climbs after it comes off is a rest-to target
  let rests := d.carryF > 0
  let num := p.degrees (if rests then d.toF else d.toF - d.carryF)
  let num2 := if rests then p.degrees d.toF else 0
  let sent := p.send (.notifyTarget p.ui.tempProbe num num2 0 rests (strlcpy 24 meat.name)
    (strlcpy 24 d.name))
  let steps := Json.arr (d.steps.map fun (name, f) =>
    .obj [("name", .str name), ("temp", .num (p.degrees f))])
  ((sent.patch "notify" (.obj [("probe_steps", .obj [(p.ui.tempProbe, steps)])]) m).1).showMessage
    (meat.name ++ " " ++ d.name ++ ": " ++ toString num ++ "\u00c2\u00b0") 2 m

def startTimerChange (p : Panel) : Panel :=
  let left := p.stat.num ["timer", "remaining"] 0
  p.openTimer.onUi fun ui => { ui with tempValue := if left > 0 then ⌈left / 60⌉ else ui.tempValue }

/-- Ask before a paired device is removed; its name goes where the label of a
scan was. -/
def askDelete (arg : ℕ) (p : Panel) : Panel :=
  match (btDevices p.stat btDevMax)[arg]? with
  | none => p
  | some dev =>
      (p.onUi fun ui => { ui with btLabel := strlcpy 24 dev.device }).openConfirm .btDelete
        ("Remove " ++ shorten 22 dev.name ++ "?") "Remove" true

/-- Ask before a probe that was found is added; which one is remembered as the
row of the confirmation. -/
def askAdd (arg : ℕ) (p : Panel) : Panel :=
  match p.ui.bt[arg]? with
  | none => p
  | some found =>
      (p.openConfirm .btAdd ("Connect " ++ shorten 24 found.name ++ "?") "Connect" false).onUi
        (·.setIndex arg)

def toggle (arg : ℕ) (m : Moment) (p : Panel) : Panel :=
  match (btDevices p.stat btDevMax)[arg]? with
  | none => p
  | some dev => p.btSetEnabled dev.device (!dev.enabled) m

/-- `do_action`: what a row does. -/
def doAction (act : Action) (arg : ℕ) (m : Moment) (p : Panel) : Panel :=
  match act with
  | .back => p.pop
  | .list => p.push .list (.ofNum arg)
  | .netinfo => p.push .netinfo .root
  | .margins => p.marginsOpen
  | .theme => p.switchTheme m
  | .colour => p.switchColour m
  | .manual => (p.onUi fun ui => { ui with manualFocus := 0 }).push .manual .root
  | .startup => (p.send (.mode .startup 0 false)).reset
  | .startupHold => p.openTemp .startupHold "STARTUP TO HOLD" "Startup" p.setpoint
  | .startupSmoke => (p.send (.mode .smoke 0 false)).reset
  | .hold => p.openTemp .hold "HOLD" "Start" p.setpoint
  | .smoke => p.openConfirm .smoke "Switch to Smoke Mode?" "Start" false
  | .monitor => (p.send (.mode .monitor 0 false)).reset
  | .endCook => (p.send (.mode .shutdown 0 false)).reset
  | .stop | .clearError => (p.send .stop).reset
  | .estop => p.openConfirm .stop "Emergency Stop?" "Stop" true
  | .probeTarget => p.chooseProbe arg
  | .probePick => p.push .list .meat
  | .probeCustom => p.openCustom
  | .probeClear =>
      (p.send (.notifyTarget p.ui.tempProbe 0 0 0 false "" "")).showMessage "Target cleared" 2 m
  | .meat => (p.onUi fun ui => { ui with meatIdx := arg }).push .list .done
  | .done =>
      match p.ui.doneness with
      | none => p
      | some meat =>
          match meat.doneness[arg]? with
          | none => p
          | some d => p.chooseDone meat d m
  | .timer => p.openTimer
  | .timerChange => p.startTimerChange
  | .timerCancel => (p.send .timerCancel).showMessage "Timer cancelled" 2 m
  | .recipeNext => (p.send .recipeNext).reset
  | .recipeSkip => p.openConfirm .recipeSkip "Skip to Next Step?" "Skip" false
  | .recipeBack => p.openConfirm .recipeBack "Previous Step?" "Back" false
  | .recipeExit => p.openConfirm .recipeExit "Exit Recipe? Mode is kept." "Exit" true
  | .stopGrill => p.openConfirm .stop "All Outputs Off?" "Stop" true
  | .hopperFull => p.openConfirm .hopperFull "Set Hopper Full?" "Set" false
  | .hopperEmpty => p.openConfirm .hopperEmpty "Set Hopper Empty?" "Set" false
  | .btScan => p.btBeginScan arg
  | .btToggle => p.toggle arg m
  | .btDelete => p.askDelete arg
  | .btAdd => p.askAdd arg
  | .restart => p.openConfirm .restart "Restart Controller?" "Restart" true
  | .poweroff => p.openConfirm .poweroff "Shut Down Controller?" "Shut Down" true
  | .none | .pmode => p

/-- `temp_confirm`: the action button of the value selector. -/
def tempConfirm (m : Moment) (p : Panel) : Panel :=
  let value := p.ui.tempValue
  match p.ui.tempAction with
  | .startupHold => (p.send (.mode .hold value false)).reset
  | .hold =>
      let mode := p.stat.str ["mode"] ""
      (p.send (if mode = "Hold" ∨ mode = "Startup" ∨ mode = "Relight" then .setpoint value
        else .mode .hold value false)).reset
  | .probeTarget => (p.send (.notifyTarget p.ui.tempProbe value 0 0 false "" "")).reset
  | .timer => (p.send (.timerStart (value * 60) 0)).reset
  | .pmode =>
      let pm := truncate value
      let (patched, saved) := p.patch "cycle_data" (.obj [("PMode", .num pm)]) m
      if saved then
        (patched.send .settingsChanged).showMessage ("P-Mode " ++ toString pm) 2 m
      else patched.showMessage "Save Failed" 3 m
  | _ => p.reset

/-- The transient notice goes when its time is up; drawing is what looks. -/
def redraw (m : Moment) (p : Panel) : Panel :=
  if p.ui.screen = .message ∧ m.now > p.ui.messageUntil then p.reset else p

/-- `pf_pellets_calibrate` -/
def calibrate (mark : Pellets.Mark) (p : Panel) : Panel :=
  { p with world := { p.world with calRequest := some mark, checkRequest := true } }

/-- `pf_system_power` -/
def systemPower (reboot : Bool) (p : Panel) : Panel :=
  { p with world := { p.world with power := p.world.power ++ [reboot] } }

/-- `confirm_yes`: the action a confirmation asked about. -/
def confirmYes (m : Moment) (p : Panel) : Panel :=
  match p.ui.confirmAction with
  | .hopperFull => (p.calibrate .full).showMessage "Hopper set full" 2 m
  | .hopperEmpty => (p.calibrate .empty).showMessage "Hopper set empty" 2 m
  | .restart =>
      (((p.send .stop).showMessage "Restarting..." 30 m).redraw m).systemPower true
  | .poweroff =>
      (((p.send .stop).showMessage "Shutting down..." 30 m).redraw m).systemPower false
  | .recipeSkip => (p.send .recipeSkip).reset
  | .recipeBack => (p.send .recipeBack).reset
  | .recipeExit => (p.send .recipeStop).reset
  | .btAdd => p.pop.btAdd p.ui.index m
  | .btDelete => p.pop.btRemove p.ui.btLabel m
  -- everything else goes back through the rows
  | act => p.pop.doAction act 0 m

/-- `manual_press`: switch an output by hand, or leave with all three off. -/
def manualPress (p : Panel) : Panel :=
  let outs := ["auger", "fan", "igniter"]
  match outs[p.ui.manualFocus]? with
  | some out =>
      p.send (.manualOutput out (!p.stat.bool ["outputs", out] false) 0)
  | none => (outs.foldl (fun p out => p.send (.manualOutput out false 0)) p).pop

end Panel

end PiFire.Display
