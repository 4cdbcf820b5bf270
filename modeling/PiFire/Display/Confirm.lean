import PiFire.Display.Keys

/-!
# Confirmations

A confirmation shows a question and keeps the action a Yes carries out. The
question is put in its own terms here, with what its Yes should do to the rest of
the controller, and what was asked last is noted beside the panel. Over any run a
confirmation is only ever the top of the stack, and while one shows, the panel
keeps the action, the device or the probe of the question that was asked.
-/

namespace PiFire.Display

open Settings Transition

/-- What a confirmation asks for. -/
inductive Question where
  | smoke
  | emergencyStop
  | allOff
  | recipeSkip
  | recipeBack
  | recipeExit
  | hopper (mark : Pellets.Mark)
  | power (reboot : Bool)
  | remove (device name : String)
  | connect (kind : String) (found : Found)

namespace Question

/-- The question on the screen. -/
def text : Question → String
  | smoke => "Switch to Smoke Mode?"
  | emergencyStop => "Emergency Stop?"
  | allOff => "All Outputs Off?"
  | recipeSkip => "Skip to Next Step?"
  | recipeBack => "Previous Step?"
  | recipeExit => "Exit Recipe? Mode is kept."
  | hopper .full => "Set Hopper Full?"
  | hopper .empty => "Set Hopper Empty?"
  | power true => "Restart Controller?"
  | power false => "Shut Down Controller?"
  | remove _ name => "Remove " ++ shorten 22 name ++ "?"
  | connect _ found => "Connect " ++ shorten 24 found.name ++ "?"

/-- The action that is kept for a Yes. -/
def act : Question → Action
  | smoke => .smoke
  | emergencyStop | allOff => .stop
  | recipeSkip => .recipeSkip
  | recipeBack => .recipeBack
  | recipeExit => .recipeExit
  | hopper .full => .hopperFull
  | hopper .empty => .hopperEmpty
  | power true => .restart
  | power false => .poweroff
  | remove _ _ => .btDelete
  | connect _ _ => .btAdd

theorem eq_smoke {q : Question} (action : q.act = .smoke) : q = smoke := by
  cases q with
  | smoke => rfl
  | hopper mark => cases mark <;> cases action
  | power reboot => cases reboot <;> cases action
  | _ => cases action

end Question

/-- The question a row asks, if it asks one. -/
def rowQuestion (p : Panel) : Action → ℕ → Option Question
  | .smoke, _ => some .smoke
  | .estop, _ => some .emergencyStop
  | .stopGrill, _ => some .allOff
  | .recipeSkip, _ => some .recipeSkip
  | .recipeBack, _ => some .recipeBack
  | .recipeExit, _ => some .recipeExit
  | .hopperFull, _ => some (.hopper .full)
  | .hopperEmpty, _ => some (.hopper .empty)
  | .restart, _ => some (.power true)
  | .poweroff, _ => some (.power false)
  | .btDelete, arg =>
      (btProbes p.stat btDevMax)[arg]?.map fun probe =>
        .remove (probe.str ["device"] "") (BtDevice.ofProbe probe).name
  | .btAdd, arg => p.ui.bt[arg]?.map (.connect p.ui.btKind)
  | _, _ => none

/-- The question of the row that is picked out. -/
def pickedQuestion (p : Panel) : Option Question :=
  match p.ui.screen with
  | .list => p.pickedRow.bind fun item => rowQuestion p item.act item.arg
  | .btscan => rowQuestion p .btAdd (p.ui.index % (p.ui.bt.length + 1))
  | _ => none

/-- What an event asks: when a confirmation comes up, the question of the row
that was picked out. -/
def asks (e : Event) (p : Panel) : Option Question :=
  if p.ui.screen ≠ .confirm ∧ (step e p).ui.screen = .confirm then pickedQuestion p else none

/-- The panel with the last question beside it. -/
abbrev Asked := Noted Panel Question

def Asked.step : Event → Asked → Asked := Noted.step Display.step asks

/-- What the screens keep of a question, with where it is shown. -/
structure Showing where
  stack : Stack Nav navMax
  act : Action
  text : String
  btLabel : String
  btKind : String
  bt : List Found
  btScanning : Bool

def Ui.showing (ui : Ui) : Showing :=
  ⟨ui.stack, ui.confirmAction, ui.confirmText, ui.btLabel, ui.btKind, ui.bt, ui.btScanning⟩

/-- No confirmation is open. -/
def Closed (ui : Ui) : Prop := ui.stack.All fun nav => nav.screen ≠ .confirm

/-- What a Yes finds of a question besides its action. -/
def Question.Kept (ui : Ui) : Question → Prop
  | .remove device _ => ui.btLabel = strlcpy 24 device
  | .connect kind found =>
      ui.btKind = kind ∧ ui.bt[ui.index]? = some found ∧ ui.btScanning = false
  | _ => True

/-- A question shows, over screens that are none. -/
structure Shows (q : Question) (ui : Ui) : Prop where
  screen : ui.screen = .confirm
  below : Closed ui.pop
  act : ui.confirmAction = q.act
  text : ui.confirmText = strlcpy 44 q.text
  kept : q.Kept ui

variable {u u' : Ui} {p : Panel} {q : Question} {m : Moment}

namespace Closed

theorem congr (same : u'.stack = u.stack) (closed : Closed u) : Closed u' := by
  unfold Closed
  rw [same]
  exact closed

theorem reset (u : Ui) : Closed u.reset := Stack.all_empty

theorem push (closed : Closed u) {screen : Screen} (other : screen ≠ .confirm) (list : ListId) :
    Closed (u.push screen list) :=
  Stack.All.push closed other

theorem pop (closed : Closed u) : Closed u.pop := Stack.All.pop closed

theorem pop_push (closed : Closed u) (screen : Screen) (list : ListId) :
    Closed (u.push screen list).pop :=
  Stack.All.pop_push closed _

theorem setIndex (closed : Closed u) (i : ℕ) : Closed (u.setIndex i) :=
  Stack.All.onTop closed fun _ other => other

theorem screen_ne (closed : Closed u) : u.screen ≠ .confirm := by
  unfold Ui.screen
  cases top : u.stack.top? with
  | none => exact Screen.noConfusion
  | some nav => exact Stack.All.top closed top

end Closed

theorem Shows.congr (same : u'.showing = u.showing) (shows : Shows q u) : Shows q u' := by
  simp only [Ui.showing, Showing.mk.injEq] at same
  obtain ⟨stack, act, text, label, kind, bt, scanning⟩ := same
  have screen : u'.screen = u.screen := by rw [Ui.screen, Ui.screen, stack]
  have index : u'.index = u.index := by rw [Ui.index, Ui.index, stack]
  refine ⟨screen.trans shows.screen, shows.below.congr ?_, act.trans shows.act,
    text.trans shows.text, ?_⟩
  · rw [Ui.stack_pop, Ui.stack_pop, stack]
  · have kept := shows.kept
    cases q with
    | remove device name => exact label.trans kept
    | connect made found =>
        unfold Question.Kept
        rw [kind, bt, index, scanning]
        exact kept
    | _ => trivial

namespace Panel

@[simp] theorem ui_onUi (f : Ui → Ui) (p : Panel) : (p.onUi f).ui = f p.ui := rfl

@[simp] theorem ui_patch (path : String) (json : Json) (m : Moment) (p : Panel) :
    (p.patch path json m).1.ui = p.ui := rfl

@[simp] theorem ui_switchTheme (m : Moment) (p : Panel) : (p.switchTheme m).ui = p.ui := by
  simp only [switchTheme, apply_ite Panel.ui, ui_patch, ite_self]

@[simp] theorem ui_switchColour (m : Moment) (p : Panel) : (p.switchColour m).ui = p.ui := by
  simp only [switchColour, apply_ite Panel.ui, ui_patch, ite_self]

theorem closed_showMessage (msg : String) (secs : ℚ) (m : Moment) (p : Panel) :
    Closed (p.showMessage msg secs m).ui :=
  (Closed.reset _).push (by decide) _

theorem closed_openSelector (closed : Closed p.ui) (act : Action) (kind : Selects)
    (title button : String) (value : ℚ) : Closed (p.openSelector act kind title button value).ui :=
  Closed.push (Closed.congr rfl closed) (by decide) _

theorem closed_openTemp (closed : Closed p.ui) (act : Action) (title button : String) (value : ℚ) :
    Closed (p.openTemp act title button value).ui :=
  closed_openSelector closed _ _ _ _ _

@[simp] theorem world_redraw (m : Moment) (p : Panel) : (p.redraw m).world = p.world := by
  unfold redraw
  split <;> rfl

theorem redraw_shows (shows : Shows q p.ui) (m : Moment) : p.redraw m = p := by
  unfold redraw
  rw [if_neg]
  rintro ⟨message, -⟩
  rw [shows.screen] at message
  cases message

end Panel

theorem shows_openConfirm (closed : Closed p.ui) {act : Action} {text : String} (yes : String)
    (danger : Bool) (action : act = q.act) (question : text = q.text)
    (kept : q.Kept (p.openConfirm act text yes danger).ui) :
    Shows q (p.openConfirm act text yes danger).ui where
  screen := rfl
  below := (closed.pop_push .confirm .root).congr rfl
  act := action
  text := congrArg (strlcpy 44) question
  kept := kept

theorem shows_label (closed : Closed p.ui) {device name label text : String}
    (cut : label = strlcpy 24 device) (question : text = (Question.remove device name).text) :
    Shows (.remove device name) ((p.onUi fun ui => { ui with btLabel := label }).openConfirm
      .btDelete text "Remove" true).ui where
  screen := rfl
  below := (closed.pop_push .confirm .root).congr rfl
  act := rfl
  text := congrArg (strlcpy 44) question
  kept := cut

theorem shows_row (closed : Closed p.ui) {found : Found} {arg : ℕ} {text : String}
    (listed : p.ui.bt[arg]? = some found) (idle : p.ui.btScanning = false)
    (question : text = (Question.connect p.ui.btKind found).text) :
    Shows (.connect p.ui.btKind found)
      ((p.openConfirm .btAdd text "Connect" false).onUi (·.setIndex arg)).ui where
  screen := rfl
  below := (closed.pop_push .confirm .root).congr rfl
  act := rfl
  text := congrArg (strlcpy 44) question
  kept := ⟨rfl, listed, idle⟩

theorem strlcpy_strlcpy {small large : ℕ} (smaller : small ≤ large) (s : String) :
    strlcpy small (strlcpy large s) = strlcpy small s := by
  have cut : min (small - 1) (large - 1) = small - 1 := by omega
  simp only [strlcpy, String.toList_ofList, List.take_take, cut]

namespace Panel

theorem doAction_shows (closed : Closed p.ui) {act : Action} {arg : ℕ}
    (asked : rowQuestion p act arg = some q) (idle : act = .btAdd → p.ui.btScanning = false) :
    Shows q (p.doAction act arg m).ui := by
  cases act
  case btDelete =>
    obtain ⟨probe, listed, rfl⟩ := Option.map_eq_some_iff.mp asked
    have device : (btDevices p.stat btDevMax)[arg]? = some (BtDevice.ofProbe probe) := by
      rw [btDevices, List.getElem?_map, listed]
      rfl
    simp only [doAction, askDelete, device]
    exact shows_label closed (strlcpy_strlcpy (by decide) _) rfl
  case btAdd =>
    obtain ⟨found, listed, rfl⟩ := Option.map_eq_some_iff.mp asked
    simp only [doAction, askAdd, listed]
    exact shows_row closed listed (idle rfl) rfl
  all_goals cases asked <;> exact shows_openConfirm closed _ _ rfl rfl trivial

theorem doAction_closed (closed : Closed p.ui) {act : Action} {arg : ℕ}
    (silent : rowQuestion p act arg = none) : Closed (p.doAction act arg m).ui := by
  cases act with
  | none | pmode => exact closed
  | back => exact closed.pop
  | list | netinfo | margins | manual | probePick | meat => exact closed.push (by decide) _
  | startup | startupSmoke | monitor | endCook | stop | clearError | recipeNext =>
      exact Closed.reset _
  | startupHold | hold | probeCustom => exact closed_openTemp closed _ _ _ _
  | timer => exact closed_openSelector closed _ _ _ _ _
  | timerChange => exact closed_openSelector closed _ _ _ _ _
  | probeClear | timerCancel => exact closed_showMessage _ _ _ _
  | theme => exact Closed.congr (congrArg Ui.stack (ui_switchTheme m p)) closed
  | colour => exact Closed.congr (congrArg Ui.stack (ui_switchColour m p)) closed
  | probeTarget =>
      simp only [doAction, chooseProbe]
      split
      · exact closed
      · exact Closed.push (Closed.congr rfl closed) (by decide) _
  | done =>
      simp only [doAction]
      split
      · exact closed
      · split
        · exact closed
        · exact closed_showMessage _ _ _ _
  | btScan =>
      simp only [doAction, btBeginScan]
      split
      · exact closed
      · exact Closed.push (Closed.congr rfl closed) (by decide) _
  | btToggle =>
      simp only [doAction, toggle, btSetEnabled]
      split
      · exact closed
      · split
        · exact closed
        · split <;> exact closed
  | btDelete =>
      have beyond : (btDevices p.stat btDevMax)[arg]? = none := by
        rw [btDevices, List.getElem?_map, Option.map_eq_none_iff.mp silent]
        rfl
      simp only [doAction, askDelete, beyond]
      exact closed
  | btAdd =>
      simp only [doAction, askAdd, Option.map_eq_none_iff.mp silent]
      exact closed
  | _ => cases silent

end Panel

end PiFire.Display
