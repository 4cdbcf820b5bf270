import PiFire.Settings.Item
import PiFire.Transition.Buffer

/-!
# The screens of the panel

The panel is a small navigation stack over the main screen. This file has the
stack, what the panel keeps between two events, and the rows of every menu, which
are built afresh from the status each time they are looked at. A row names an
action and an argument; what they do is not decided here.
-/

namespace PiFire.Display

open Settings Transition

inductive Screen where
  | main
  | list
  | temp
  | confirm
  | netinfo
  | message
  | manual
  | btscan
  | margins
  deriving DecidableEq

/-- Which list a list screen shows. -/
inductive ListId where
  | root
  | startup
  | power
  | probe
  | bt
  | btkind
  | btedit
  | btdel
  | settings
  | mode
  | hopper
  | probeAct
  | meat
  | done
  | timer
  | stop
  deriving DecidableEq

/-- The lists in the order of their numbers. -/
def ListId.all : List ListId :=
  [.root, .startup, .power, .probe, .bt, .btkind, .btedit, .btdel, .settings, .mode, .hopper,
    .probeAct, .meat, .done, .timer, .stop]

/-- The number of a list, which is what a row that opens it carries. -/
def ListId.num (list : ListId) : ℕ := ListId.all.idxOf list

/-- The list of a number; any other number shows the root. -/
def ListId.ofNum (n : ℕ) : ListId := ListId.all[n]?.getD .root

/-- What a row does when it is pressed. -/
inductive Action where
  | none
  | back
  | list
  | startup
  | startupHold
  | startupSmoke
  | hold
  | smoke
  | monitor
  | manual
  | endCook
  | stop
  | estop
  | clearError
  | probeTarget
  | btScan
  | btAdd
  | btToggle
  | btDelete
  | netinfo
  | restart
  | poweroff
  | margins
  | theme
  | colour
  | hopperFull
  | hopperEmpty
  | probePick
  | probeCustom
  | probeClear
  | meat
  | done
  | timer
  | timerCancel
  | recipeNext
  | recipeSkip
  | recipeBack
  | recipeExit
  | stopGrill
  | timerChange
  | pmode
  deriving DecidableEq

/-- What a buffer of so many bytes keeps of a text. -/
def strlcpy (size : ℕ) (s : String) : String := String.ofList (s.toList.take (size - 1))

/-- What `%.ns` prints of a text. -/
def shorten (n : ℕ) (s : String) : String := String.ofList (s.toList.take n)

structure Nav where
  screen : Screen
  list : ListId
  index : ℕ

/-- How deep the stack goes. -/
def navMax : ℕ := 5

/-- A value for each edge, in the order the editor walks them. -/
structure Edges where
  top : ℤ := 0
  right : ℤ := 0
  bottom : ℤ := 0
  left : ℤ := 0
  deriving DecidableEq

/-- The edge of a number. -/
def Edges.at (edges : Edges) : ℕ → ℤ
  | 0 => edges.top
  | 1 => edges.right
  | 2 => edges.bottom
  | _ => edges.left

def Edges.set (edges : Edges) (value : ℤ) : ℕ → Edges
  | 0 => { edges with top := value }
  | 1 => { edges with right := value }
  | 2 => { edges with bottom := value }
  | _ => { edges with left := value }

/-- A Bluetooth probe a scan found. -/
structure Found where
  name : String
  addr : String
  deriving DecidableEq

/-- What the value selector selects. -/
inductive Selects where
  | temperature
  | minutes
  | pmode
  deriving DecidableEq

structure Ui where
  stack : Stack Nav navMax := Stack.empty
  tempValue : ℚ := 0
  tempFocus : ℕ := 0
  tempEditing : Bool := false
  tempAction : Action := .none
  tempKind : Selects := .temperature
  tempTitle : String := ""
  tempButton : String := ""
  tempProbe : String := ""
  confirmText : String := ""
  confirmYes : String := ""
  confirmAction : Action := .none
  confirmFocus : ℕ := 0
  confirmDanger : Bool := false
  manualFocus : ℕ := 0
  margin : Edges := {}
  marginFocus : ℕ := 0
  marginEditing : Bool := false
  marginDirty : Bool := false
  btKind : String := ""
  btLabel : String := ""
  bt : List Found := []
  btScanning : Bool := false
  mainFocus : ℤ := 0
  mainFocusUntil : ℚ := 0
  probeIdx : ℕ := 0
  meatIdx : ℕ := 0
  attention : String := ""
  message : String := ""
  messageUntil : ℚ := 0
  blink : Bool := false
  splash : Bool := false

/-- Nothing is picked out on the main screen. -/
def focusNone : ℤ := -1
def focusMode : ℤ := 0
def focusTimer : ℤ := 1
def focusSetpoint : ℤ := 2
def focusHopper : ℤ := 3
def focusProbe0 : ℤ := 4

namespace Ui

/-- `pf_nav_reset`: back to the main screen. -/
def reset (ui : Ui) : Ui := { ui with stack := Stack.empty, mainFocus := focusNone }

/-- `pf_nav_push`: open a screen. -/
def push (screen : Screen) (list : ListId) (ui : Ui) : Ui :=
  { ui with stack := ui.stack.push ⟨screen, list, 0⟩ }

/-- `pf_nav_pop`: one screen back. -/
def pop (ui : Ui) : Ui := { ui with stack := ui.stack.pop }

/-- `pf_nav_screen`: the screen that is showing. -/
def screen (ui : Ui) : Screen := (ui.stack.top?.map Nav.screen).getD .main

/-- `pf_nav_top(ui)->index = i`, where there is a top. -/
def setIndex (i : ℕ) (ui : Ui) : Ui :=
  { ui with stack := ui.stack.onTop fun nav => { nav with index := i } }

/-- The row that is picked out. -/
def index (ui : Ui) : ℕ := (ui.stack.top?.map Nav.index).getD 0

/-- The list that is showing. -/
def shown (ui : Ui) : ListId := (ui.stack.top?.map Nav.list).getD .root

@[simp] theorem stack_pop (ui : Ui) : ui.pop.stack = ui.stack.pop := rfl

end Ui

/-- `cJSON_GetObjectItem(status, "probes")`, item by item. -/
def probes (status : Item) : List Item :=
  ((status.getAnyCase? "probes").map Item.children).getD []

/-- `cJSON_GetArrayItem(probes, i)`. -/
def probeAt (status : Item) (i : ℕ) : Option Item :=
  (status.getAnyCase? "probes").bind (Item.arrayItem? i)

structure BtDevice where
  device : String
  name : String
  enabled : Bool

/-- How many paired devices a list holds. -/
def btDevMax : ℕ := 8

/-- The device of a probe, as its row keeps it. -/
def BtDevice.ofProbe (p : Item) : BtDevice :=
  let device := p.str ["device"] ""
  ⟨strlcpy 32 device, strlcpy 32 (p.str ["name"] device), p.bool ["enabled"] true⟩

/-- The probes that stand for a paired device: one for each name. -/
def btProbes (status : Item) (max : ℕ) : List Item :=
  (probes status).foldl (fun rows p =>
    if rows.length ≥ max then rows
    else if !p.bool ["wireless"] false then rows
    else if p.bool ["companion"] false then rows
    else if p.str ["device"] "" = "" then rows
    else if rows.any fun row => (BtDevice.ofProbe row).device == p.str ["device"] "" then rows
    else rows ++ [p]) []

/-- `pf_bt_devices`: the paired Bluetooth probes. -/
def btDevices (status : Item) (max : ℕ) : List BtDevice :=
  (btProbes status max).map BtDevice.ofProbe

/-- A food probe the main screen shows. -/
def isFood (p : Item) : Bool :=
  p.str ["role"] "" == "Food" && p.bool ["enabled"] true && p.bool ["home"] true &&
    !p.bool ["companion"] false

/-- `main_food`: the positions of the probes on the cards. -/
def mainFood (status : Item) : List ℕ :=
  (((probes status).zipIdx.filter fun entry => isFood entry.1).take 3).map Prod.snd

/-- `pf_main_probe_index`: the position of the probe on a card. -/
def mainProbeIndex (status : Item) (card : ℕ) : Option ℕ := (mainFood status)[card]?

/-- The search of `pf_main_focus_step`, over what the status has nothing for. -/
def focusFrom (n : ℤ) (hopper timer : Bool) (dir : ℤ) : ℕ → ℤ → ℤ
  | 0, _ => focusSetpoint
  | fuel + 1, current =>
      let next := ((current + (if dir > 0 then 1 else -1)).tmod n + n).tmod n
      if next = focusHopper ∧ hopper = false then focusFrom n hopper timer dir fuel next
      else if next = focusTimer ∧ timer = false then focusFrom n hopper timer dir fuel next
      else next

/-- `pf_main_focus_step`: the next focus in a direction; from none, the set
point. -/
def mainFocusStep (status : Item) (current dir : ℤ) : ℤ :=
  let n := focusProbe0 + (mainFood status).length
  let hopper := decide (status.num ["hopper_pct"] (-1) ≥ 0)
  let timer := status.bool ["timer", "running"] false
  if current < 0 then focusSetpoint else focusFrom n hopper timer dir n.toNat current

structure BtMake where
  module : String
  label : String

/-- `PF_BT_KINDS`: the makes of Bluetooth probe the panel can pair. -/
def btKinds : List BtMake :=
  [⟨"chefiq", "Chef iQ"⟩, ⟨"meater", "MEATER"⟩, ⟨"ibbq", "Inkbird / iBBQ"⟩]

structure Doneness where
  name : String
  toF : ℤ
  carryF : ℤ
  steps : List (String × ℤ)

structure Meat where
  name : String
  doneness : List Doneness

/-- `PF_MEATS`: what is on a probe and how done. -/
def meats : List Meat :=
  [⟨"Beef",
      [⟨"Rare", 125, 5, [("Flip", 100)]⟩, ⟨"Medium rare", 135, 5, [("Flip", 110)]⟩,
        ⟨"Medium", 140, 5, [("Flip", 115)]⟩, ⟨"Medium well", 150, 5, [("Flip", 125)]⟩,
        ⟨"Well done", 160, 5, [("Flip", 135)]⟩]⟩,
    ⟨"Brisket", [⟨"Probe tender", 203, 0, [("Spritz", 150), ("Wrap", 165)]⟩]⟩,
    ⟨"Pork",
      [⟨"Chops and loin", 145, 4, [("Flip", 120)]⟩,
        ⟨"Pulled pork", 203, 0, [("Spritz", 150), ("Wrap", 165)]⟩]⟩,
    ⟨"Ribs", [⟨"Bend test", 195, 0, [("Spritz", 150), ("Wrap", 165), ("Unwrap", 185)]⟩]⟩,
    ⟨"Chicken",
      [⟨"Breast 155", 155, 0, [("Flip", 135)]⟩, ⟨"Breast 165", 165, 0, [("Flip", 145)]⟩,
        ⟨"Thighs", 175, 0, [("Flip", 155)]⟩]⟩,
    ⟨"Turkey", [⟨"Whole bird", 165, 0, [("Baste", 145)]⟩]⟩,
    ⟨"Fish", [⟨"Flaky", 145, 0, []⟩]⟩,
    ⟨"Lamb",
      [⟨"Medium rare", 135, 4, [("Flip", 110)]⟩, ⟨"Medium", 140, 4, [("Flip", 115)]⟩]⟩,
    ⟨"Sausage", [⟨"Cooked through", 160, 0, [("Flip", 140)]⟩]⟩]

/-- The meat a target is being chosen for. -/
def Ui.doneness (ui : Ui) : Option Meat :=
  if ui.meatIdx < meats.length then meats[ui.meatIdx]? else meats[0]?

structure MenuItem where
  act : Action
  arg : ℕ
  label : String
  danger : Bool

/-- How many rows a menu holds. -/
def menuMax : ℕ := 12

/-- A row with its label, cut to what it holds. -/
def row (act : Action) (arg : ℕ) (label : String) : MenuItem := ⟨act, arg, strlcpy 26 label, false⟩

/-- A row that opens a list. -/
def opens (list : ListId) (label : String) : MenuItem := row .list list.num label

/-- A row drawn in red. -/
def dangerous (act : Action) (arg : ℕ) (label : String) : MenuItem :=
  { row act arg label with danger := true }

/-- The last row of every menu. -/
def backRow : MenuItem := row .back 0 "Back"

/-- Smoke from Hold, and Hold from anything else. -/
def switchRow (mode : String) : MenuItem :=
  if mode = "Hold" then row .smoke 0 "Smoke Mode" else row .hold 0 "Hold Mode"

/-- The timer's row: cancel it while it runs, else start it. -/
def timerRow (timerOn : Bool) : MenuItem :=
  if timerOn then row .timerCancel 0 "Cancel Timer" else row .timer 0 "Timer"

/-- Where the grill can go from here, from the banner. -/
def modeRows (mode : String) : List MenuItem :=
  (if mode = "Error" then [row .clearError 0 "Clear Error"]
    else if mode = "Stop" ∨ mode = "Monitor" ∨ mode = "Prime" then
      [row .startupHold 0 "Startup To Hold", row .startupSmoke 0 "Startup To Smoke"] ++
        (if mode ≠ "Monitor" then [row .monitor 0 "Monitor"] else []) ++
        (if mode ≠ "Stop" then [dangerous .stop 0 "Stop"] else [])
    else
      [switchRow mode] ++
        (if mode ≠ "Shutdown" then [row .endCook 0 "Shutdown"] else []) ++
        [dangerous .stop 0 "Stop"]) ++ [backRow]

/-- The probes that can carry a target. -/
def probeRows (status : Item) : List MenuItem :=
  let rows := (probes status).zipIdx.filterMap fun (p, i) =>
    if p.str ["role"] "" ≠ "Food" ∨ p.bool ["enabled"] true = false ∨
        p.bool ["companion"] false = true then none
    else some (row .probeTarget i (p.str ["name"] "Probe"))
  (if rows = [] then [row .none 0 "No food probes"] else rows) ++ [backRow]

/-- The paired devices, to switch one on or off or to remove one. -/
def pairedRows (status : Item) (delete : Bool) : List MenuItem :=
  let devices := btDevices status btDevMax
  let rows := devices.zipIdx.map fun (device, i) =>
    if delete then dangerous .btDelete i device.name else row .btToggle i device.name
  (if rows = [] then [row .none 0 "None paired"] else rows) ++ [backRow]

/-- What can be done now. -/
def rootRows (status : Item) : List MenuItem :=
  let mode := status.str ["mode"] "Stop"
  let recipe := status.bool ["recipe", "active"] false
  let timerOn := status.bool ["timer", "running"] false
  (if recipe then
      [if status.bool ["recipe", "waiting"] false then row .recipeNext 0 "Continue"
        else row .recipeSkip 0 "Skip Forward",
        row .recipeBack 0 "Skip Back", dangerous .recipeExit 0 "Exit Recipe",
        opens .stop "Finish"]
    else if mode = "Error" then [dangerous .clearError 0 "Clear Error"]
    else if mode = "Monitor" then
      [row .manual 0 "Control", opens .startup "Startup", timerRow timerOn, opens .stop "Finish"]
    else if mode = "Stop" ∨ mode = "Prime" then
      [opens .startup "Startup", row .monitor 0 "Monitor", timerRow timerOn]
    else
      [switchRow mode, opens .probe "Probe Target", timerRow timerOn, opens .stop "Finish"]) ++
    [opens .settings "Settings", row .netinfo 0 "Network Info"] ++
    (if mode = "Stop" then [opens .power "Power"] else []) ++ [backRow]

/-- The rows of the list that is showing, before the menu is full. -/
def menuRows (status : Item) (ui : Ui) : ListId → List MenuItem
  | .startup =>
      [row .startupHold 0 "Startup To Hold", row .startupSmoke 0 "Startup To Smoke", backRow]
  | .settings =>
      [opens .bt "Bluetooth Probes", row .margins 0 "Screen Margins", row .theme 0 "Theme",
        row .colour 0 "Colour Order", backRow]
  | .mode => modeRows (status.str ["mode"] "Stop")
  | .stop => [row .endCook 0 "Shutdown", dangerous .stopGrill 0 "Emergency Stop", backRow]
  | .timer =>
      [row .timerChange 0 "Change Time", dangerous .timerCancel 0 "Cancel Timer", backRow]
  | .hopper =>
      [row .hopperFull 0 "Set Full Here", row .hopperEmpty 0 "Set Empty Here", backRow]
  | .probeAct =>
      [row .probePick 0 "Change Target", row .probeCustom 0 "Custom Temperature",
        dangerous .probeClear 0 "Clear Target", backRow]
  | .meat =>
      [row .probeCustom 0 "Custom"] ++
        ((meats.zipIdx.take (menuMax - 2)).map fun (meat, i) => row .meat i meat.name) ++ [backRow]
  | .done =>
      ((ui.doneness.map Meat.doneness).getD []).zipIdx.map (fun (d, i) => row .done i d.name) ++
        [backRow]
  | .power => [dangerous .restart 0 "Restart", dangerous .poweroff 0 "Shut Down", backRow]
  | .probe => probeRows status
  | .bt =>
      [opens .btkind "Connect"] ++
        (if btDevices status btDevMax = [] then []
          else [opens .btedit "Edit", { opens .btdel "Delete" with danger := true }]) ++ [backRow]
  | .btkind => (btKinds.zipIdx.map fun (make, i) => row .btScan i make.label) ++ [backRow]
  | .btedit => pairedRows status false
  | .btdel => pairedRows status true
  | .root => rootRows status

/-- `pf_menu_build`: the rows of the list that is showing. A row that finds the
menu full is left out. -/
def menuBuild (status : Item) (ui : Ui) : List MenuItem :=
  (menuRows status ui ui.shown).take menuMax

end PiFire.Display
