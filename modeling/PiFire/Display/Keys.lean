import PiFire.Display.Act

/-!
# Keys and ticks

The encoder thread delivers turns and presses, the daemon delivers a status twice
a second and now and then a text, and the rest of the program goes on using the
queue and the settings. Every one of these is one step of the panel.
-/

namespace PiFire.Display

open Settings Transition

/-- What the encoder thread delivers: a click of the knob either way, a press,
and two quick presses on the main screen. -/
inductive Key where
  | up
  | down
  | enter
  | double
  deriving DecidableEq

def Key.dir : Key → ℤ
  | .up => 1
  | .down => -1
  | _ => 0

/-- The next of `n` stops that go round. -/
def turned (i : ℕ) (dir : ℤ) (n : ℕ) : ℕ := ((((i : ℤ) + dir).tmod n + n).tmod n).toNat

namespace Panel

/-- `focus_act`: what a press does to what is picked out on the main screen. -/
def focusAct (m : Moment) (p : Panel) : Panel :=
  let f := p.ui.mainFocus
  let mode := p.stat.str ["mode"] "Stop"
  let p := p.onUi fun ui => { ui with mainFocus := focusNone }
  if f = focusMode then p.push .list .mode
  else if f = focusTimer then p.push .list .timer
  else if f = focusSetpoint ∧ mode = "Smoke" then p.openPmode
  else if f = focusSetpoint then
    p.openTemp .hold "HOLD" (if mode = "Hold" then "Set" else "Start") p.setpoint
  else if f = focusHopper then p.push .list .hopper
  else if f ≥ focusProbe0 then
    match mainProbeIndex p.stat (f - focusProbe0).toNat with
    | none => p
    | some idx => p.doAction .probeTarget idx m
  else p

def mainKey (k : Key) (m : Moment) (p : Panel) : Panel :=
  if k.dir ≠ 0 then
    p.onUi fun ui =>
      { ui with
        mainFocus := mainFocusStep p.stat ui.mainFocus k.dir, mainFocusUntil := m.now + 6 }
  else if k = .double then (p.onUi fun ui => { ui with mainFocus := focusNone }).openMenu
  else if k = .enter ∧ p.ui.mainFocus ≥ 0 then p.focusAct m
  else p

/-- The row that is picked out on a list. -/
def pickedRow (p : Panel) : Option MenuItem :=
  let items := menuBuild p.stat p.ui
  items[p.ui.index % items.length]?

def listKey (k : Key) (m : Moment) (p : Panel) : Panel :=
  let n := (menuBuild p.stat p.ui).length
  if n = 0 then p.pop
  else if k.dir ≠ 0 then p.onUi fun ui => ui.setIndex (turned ui.index k.dir n)
  else if k = .enter then
    match p.pickedRow with
    | none => p
    | some item => p.doAction item.act item.arg m
  else p

def tempKey (k : Key) (m : Moment) (p : Panel) : Panel :=
  if p.ui.tempEditing then
    if k.dir ≠ 0 then p.spinTemp k.dir m
    else if k = .enter then p.onUi fun ui => { ui with tempEditing := false, tempFocus := 1 }
    else p
  else if k.dir ≠ 0 then
    -- three stops, clamped at the ends
    p.onUi fun ui =>
      { ui with tempFocus := if k.dir > 0 then min (ui.tempFocus + 1) 2 else ui.tempFocus - 1 }
  else if k = .enter then
    if p.ui.tempFocus = 0 then p.onUi fun ui => { ui with tempEditing := true }
    else if p.ui.tempFocus = 1 then p.tempConfirm m
    else p.pop
  else p

def confirmKey (k : Key) (m : Moment) (p : Panel) : Panel :=
  if k.dir ≠ 0 then p.onUi fun ui => { ui with confirmFocus := if k.dir > 0 then 1 else 0 }
  else if k = .enter then if p.ui.confirmFocus = 1 then p.confirmYes m else p.pop
  else p

def btscanKey (k : Key) (m : Moment) (p : Panel) : Panel :=
  if p.ui.btScanning then p
  else
    let rows := p.ui.bt.length + 1
    if k.dir ≠ 0 then p.onUi fun ui => ui.setIndex (turned ui.index k.dir rows)
    else if k = .enter then
      if p.ui.bt.length = 0 then
        { p.onUi fun ui => { ui with btScanning := true } with scans := p.scans + 1 }
      else if p.ui.index % rows = p.ui.bt.length then p.pop
      else p.doAction .btAdd (p.ui.index % rows) m
    else p

def manualKey (k : Key) (p : Panel) : Panel :=
  if k.dir ≠ 0 then p.onUi fun ui => { ui with manualFocus := turned ui.manualFocus k.dir 4 }
  else if k = .enter then p.manualPress
  else p

def marginsKey (k : Key) (m : Moment) (p : Panel) : Panel :=
  if k.dir ≠ 0 ∧ p.ui.marginEditing then
    let e := p.ui.marginFocus
    let v := min (max (p.ui.margin.at e + k.dir) 0) marginMax
    if v ≠ p.ui.margin.at e then
      (p.onUi fun ui => { ui with margin := ui.margin.set v e, marginDirty := true }).marginsLive
    else p
  else if k.dir ≠ 0 then
    p.onUi fun ui => { ui with marginFocus := turned ui.marginFocus k.dir 6 }
  else if k = .enter then
    if p.ui.marginFocus < 4 then p.onUi fun ui => { ui with marginEditing := !ui.marginEditing }
    else if p.ui.marginFocus = 4 then p.marginsRevert.pop
    else p.marginsSave m
  else p

def backlight (on : Bool) (p : Panel) : Panel := { p with backlightOn := on }

/-- `handle_key`: what a key does on the screen that is showing. -/
def handleKey (k : Key) (m : Moment) (p : Panel) : Panel :=
  let p := { p with lastActivity := m.now }
  if !p.backlightOn then
    let lit := p.backlight true
    if k = .enter then lit.openMenu else lit
  else if p.status.isNone then p
  else
    match p.ui.screen with
    | .main => p.mainKey k m
    | .list => p.listKey k m
    | .temp => p.tempKey k m
    | .confirm => p.confirmKey k m
    | .btscan => p.btscanKey k m
    | .manual => p.manualKey k
    | .margins => p.marginsKey k m
    | .netinfo | .message => p.pop

/-- `input`: a key puts the start-up screen away, or acknowledges what is
flashing, before it is a key. -/
def input (k : Key) (m : Moment) (p : Panel) : Panel :=
  if p.ui.splash then
    { p.onUi fun ui => { ui with splash := false } with lastActivity := m.now }.redraw m
  else if p.ui.attention ≠ "" then
    { p.onUi fun ui => { ui with attention := "" } with
      acks := p.acks + 1, lastActivity := m.now }.redraw m
  else (p.handleKey k m).redraw m

/-- A press that is held: back out to the grill, or stop it. -/
def longPress (m : Moment) (p : Panel) : Panel :=
  if p.ui.stack.entries.length > 0 then p.reset.redraw m else { p with estop := true }

/-- The margin of a setting, where it is one. -/
def marginOf (d : Item) (name : String) (current : ℤ) : ℤ :=
  let value := d.int [name] current
  if value < 0 ∨ value > marginMax then current else value

/-- `reconfigure`: read the display settings again when they were saved. -/
def reconfigure (p : Panel) : Panel :=
  let gen := p.world.store.gen
  if gen = p.cfgGen then p
  else
    let p := { p with cfgGen := gen }
    match p.world.store.root.path? ["display"] with
    | none => p
    | some d =>
        { p with
          bgr := d.bool ["bgr"] false
          rotation := d.int ["rotation"] p.rotation
          backlightTimeout := d.num ["backlight_timeout_s"] p.backlightTimeout
          margins :=
            { top := marginOf d "margin_top" p.margins.top
              right := marginOf d "margin_right" p.margins.right
              bottom := marginOf d "margin_bottom" p.margins.bottom
              left := marginOf d "margin_left" p.margins.left }
          theme := strlcpy 8 (strlcpy 16 (d.str ["theme"] p.theme)) }

/-- Five seconds without input close a menu, and what was picked out on the main
screen is let go. -/
def timeOut (m : Moment) (p : Panel) : Panel :=
  let closed :=
    if p.ui.stack.entries.length > 0 ∧ p.ui.screen ≠ .message ∧ p.ui.btScanning = false ∧
        m.now - p.lastActivity > 5 then p.reset
    else p
  if closed.ui.mainFocus ≥ 0 ∧ m.now > closed.ui.mainFocusUntil then
    closed.onUi fun ui => { ui with mainFocus := focusNone }
  else closed

/-- What is to be flashed until somebody sees it; a new word wakes the panel. -/
def flash (m : Moment) (p : Panel) : Panel :=
  let word := p.stat.str ["attention"] ""
  let had := p.ui.attention ≠ ""
  let p := p.onUi fun ui => { ui with attention := strlcpy 64 word }
  if word ≠ "" ∧ ¬had then { p with backlightOn := true, lastActivity := m.now } else p

/-- Dark while the grill is stopped and nobody is there; lit in any other mode. -/
def sleepOrWake (stopped : Bool) (m : Moment) (p : Panel) : Panel :=
  let p := if !stopped && !p.backlightOn then p.backlight true else p
  if stopped ∧ p.backlightOn = true ∧ p.backlightTimeout > 0 ∧ p.ui.screen = .main ∧
      m.now - p.lastActivity > p.backlightTimeout then p.backlight false
  else p

/-- `status`: the display tick, with the status it was given, if that parses,
and what a scan found, if one is done. -/
def statusTick (json : Option Json) (found : Option Item) (m : Moment) (p : Panel) : Panel :=
  let p := { p.reconfigure with status := json.bind Settings.parse }
  let p := p.onUi fun ui =>
    { ui with blink := !ui.blink, splash := ui.splash && !decide (m.now ≥ p.splashUntil) }
  let stopped := p.stat.str ["mode"] "" == "Stop"
  ((((p.btCollect found).timeOut m).flash m).sleepOrWake stopped m).redraw m

/-- `text`: a notice from the daemon. -/
def showText (msg : String) (m : Moment) (p : Panel) : Panel :=
  { (p.showMessage msg 4 m).backlight true with lastActivity := m.now }.redraw m

/-- `poll_input`, and the Stop that follows a held press. -/
def pollInput (p : Panel) : Panel :=
  if p.estop then { p.send .stop with estop := false } else p

end Panel

/-- What the panel may meet next. -/
inductive Event where
  | key (k : Key) (m : Moment)
  | held (m : Moment)
  | tick (json : Option Json) (found : Option Item) (m : Moment)
  | notice (msg : String) (m : Moment)
  | poll
  /-- The rest of the program has left the queue, the settings and the hopper's
  request as this. -/
  | elsewhere (world : World)

def step : Event → Panel → Panel
  | .key k m, p => p.input k m
  | .held m, p => p.longPress m
  | .tick json found m, p => p.statusTick json found m
  | .notice msg m, p => p.showText msg m
  | .poll, p => p.pollInput
  | .elsewhere world, p => { p with world := world }

/-- `create`: the panel as it is set up from the display settings. -/
def create (cfg : Item) (m : Moment) (world : World) : Panel :=
  { ui := { ({} : Ui).reset with splash := true }
    status := none
    world := world
    margins :=
      { top := Panel.marginOf cfg "margin_top" 0, right := Panel.marginOf cfg "margin_right" 16
        bottom := Panel.marginOf cfg "margin_bottom" 0, left := Panel.marginOf cfg "margin_left" 0 }
    bgr := cfg.bool ["bgr"] false
    rotation := cfg.int ["rotation"] 0
    theme := strlcpy 8 (cfg.str ["theme"] "dark")
    cfgGen := 0
    backlightTimeout := cfg.num ["backlight_timeout_s"] 5
    lastActivity := m.now
    splashUntil := m.now + 3 }

end PiFire.Display
