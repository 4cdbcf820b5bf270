import PiFire.Display.Showing
import PiFire.Settings.Reset

/-!
# What a Yes does

A question names what its Yes should do: a command that is queued once, a mark on
the hopper, a device that goes or comes, the controller restarted or switched
off. Every other turn or press on a confirmation should do nothing. This holds of
a run where no Yes meets one of four things: the question about Smoke, whose Yes
asks it again; a full queue; a device whose name is longer than the panel keeps;
and settings without the lists a new probe is put into.
-/

namespace PiFire.Display

open Settings Transition

variable {p : Panel} {q : Question} {m : Moment} {cmd : Cmd}

/-- What an event may change outside the panel, the queue as a list. -/
structure Outcome where
  queue : List Cmd
  store : Store
  calRequest : Option Pellets.Mark
  checkRequest : Bool
  power : List Bool

def World.outcome (w : World) : Outcome :=
  ⟨w.cmdq.toList, w.store, w.calRequest, w.checkRequest, w.power⟩

/-- A command more in the queue. -/
def Outcome.queued (cmd : Cmd) (o : Outcome) : Outcome := { o with queue := o.queue ++ [cmd] }

/-- The settings changed and saved. -/
def Outcome.saved (edit : Item → Item) (written : ℤ) (o : Outcome) : Outcome :=
  { o with store := (saveLocked written { o.store with root := edit o.store.root }).2 }

/-- The settings with a probe that was found, where they have the lists. -/
def withFound (kind : String) (found : Found) (root : Item) : Item :=
  match Panel.inMap "probe_devices" root, Panel.inMap "probe_info" root with
  | some devs, some infos => Panel.addFound kind found devs infos root
  | _, _ => root

/-- What the Yes to a question should do. -/
def Question.carriedOut (written : ℤ) (o : Outcome) : Question → Outcome
  | .smoke => o.queued (.mode .smoke 0 false)
  | .emergencyStop | .allOff => o.queued .stop
  | .recipeSkip => o.queued .recipeSkip
  | .recipeBack => o.queued .recipeBack
  | .recipeExit => o.queued .recipeStop
  | .hopper mark => { o with calRequest := some mark, checkRequest := true }
  | .power reboot => { o.queued .stop with power := o.power ++ [reboot] }
  | .remove device _ => (o.saved (Panel.removeDevice device) written).queued .probesChanged
  | .connect kind found => (o.saved (withFound kind found) written).queued .probesChanged

/-- The queue has room for a command. -/
def World.HasRoom (w : World) : Prop := w.cmdq.len < queueLen

/-- The panel keeps the whole name of a device, or the settings have nothing under
it nor under what is kept. -/
def Fits (device : String) (root : Item) : Prop :=
  strlcpy 24 device = device ∨
    ∀ name ∈ ["probe_info", "probe_devices"], ∀ list, Panel.inMap name root = some list →
      ∀ entry ∈ list.children,
        Panel.ofDevice device entry = false ∧ Panel.ofDevice (strlcpy 24 device) entry = false

/-- The settings have the lists a new probe is put into. -/
def Mapped (root : Item) : Prop :=
  (Panel.inMap "probe_devices" root).isSome = true ∧ (Panel.inMap "probe_info" root).isSome = true

/-- The Yes to a question does what it names. -/
def Question.Sound (w : World) : Question → Prop
  | .smoke => False
  | .hopper _ => True
  | .remove device _ => Fits device w.store.root ∧ w.HasRoom
  | .connect _ _ => Mapped w.store.root ∧ w.HasRoom
  | _ => w.HasRoom

theorem toList_cmdqPush_iff (cmd : Cmd) (cmdq : Cmdq) :
    (cmdqPush cmd cmdq).1.toList = cmdq.toList ++ [cmd] ↔ cmdq.len < queueLen := by
  constructor
  · intro pushed
    by_contra full
    have same : (cmdqPush cmd cmdq).1 = cmdq := congrArg Prod.fst (Ring.push_full full)
    rw [same] at pushed
    exact List.cons_ne_nil cmd [] (List.self_eq_append_right.mp pushed)
  · exact fun room => Ring.toList_push room

theorem outcome_send_iff (cmd : Cmd) (p : Panel) :
    (p.send cmd).world.outcome = p.world.outcome.queued cmd ↔ p.world.HasRoom := by
  rw [World.HasRoom, ← toList_cmdqPush_iff cmd]
  constructor
  · exact fun same => congrArg Outcome.queue same
  · intro pushed
    simp only [World.outcome, Outcome.queued, Panel.send, pushed]

theorem root_saveLocked (written : ℤ) (s : Store) : (saveLocked written s).2.root = s.root := by
  unfold saveLocked
  split <;> rfl

theorem outcome_save_send_iff (edit other : Item → Item) (cmd : Cmd) (m : Moment) (p : Panel) :
    ((p.save edit m).send cmd).world.outcome =
        (p.world.outcome.saved other m.written).queued cmd ↔
      edit p.world.store.root = other p.world.store.root ∧ p.world.HasRoom := by
  constructor
  · intro same
    constructor
    · have stores := congrArg (fun o => o.store.root) same
      exact (root_saveLocked _ _).symm.trans (stores.trans (root_saveLocked _ _))
    · exact (toList_cmdqPush_iff cmd _).mp (congrArg Outcome.queue same)
  · rintro ⟨same, room⟩
    have saved : (p.save edit m).world.outcome = p.world.outcome.saved other m.written := by
      simp only [Panel.save, World.outcome, Outcome.saved, same]
    rw [← saved]
    exact (outcome_send_iff cmd (p.save edit m)).mpr room

namespace Panel

theorem inMap_removeDevice {name : String} (listed : name ∈ ["probe_info", "probe_devices"])
    (device : String) (root : Item) :
    inMap name (removeDevice device root) =
      (inMap name root).map (·.filterChildren fun entry => !ofDevice device entry) := by
  unfold inMap removeDevice
  rw [Item.path?_modifyAt]
  cases root.path? mapPath with
  | none => rfl
  | some map =>
      rw [Option.map_some, Option.bind_some, Option.bind_some]
      rcases List.mem_pair.mp listed with rfl | rfl
      · rw [Item.getAnyCase?_onAnyCase_ne (by decide), Item.getAnyCase?_onAnyCase]
      · rw [Item.getAnyCase?_onAnyCase, Item.getAnyCase?_onAnyCase_ne (by decide)]

theorem removeDevice_eq_self {device : String} {root : Item}
    (absent : ∀ name ∈ ["probe_info", "probe_devices"], ∀ list, inMap name root = some list →
      ∀ entry ∈ list.children, ofDevice device entry = false) :
    removeDevice device root = root := by
  apply Item.modifyAt_eq_self
  intro map found
  have stays : ∀ name ∈ ["probe_info", "probe_devices"], ∀ list, map.getAnyCase? name = some list →
      (list.filterChildren fun entry => !ofDevice device entry) = list := by
    intro name listed list read
    apply Item.filterChildren_eq_self
    intro entry inside
    have inMapped : inMap name root = some list := by rw [inMap, found, Option.bind_some, read]
    rw [absent name listed list inMapped entry inside]
    rfl
  rw [Item.onAnyCase_eq_self (stays "probe_info" (by simp)),
    Item.onAnyCase_eq_self (stays "probe_devices" (by simp))]

/-- The name that is kept removes what the whole name would exactly where it
fits. -/
theorem removeDevice_eq_iff (device : String) (root : Item) :
    removeDevice (strlcpy 24 device) root = removeDevice device root ↔ Fits device root := by
  constructor
  · intro same
    by_cases whole : strlcpy 24 device = device
    · exact .inl whole
    · right
      intro name listed list found entry inside
      have read := congrArg (inMap name) same
      rw [inMap_removeDevice listed, inMap_removeDevice listed, found, Option.map_some,
        Option.map_some, Option.some.injEq, Item.filterChildren_eq_iff] at read
      have agree : ofDevice (strlcpy 24 device) entry = ofDevice device entry :=
        Bool.not_inj (read entry inside)
      have absent : ofDevice device entry = false := by
        apply Bool.eq_false_of_not_eq_true
        intro its
        have cut : ofDevice (strlcpy 24 device) entry = true := agree.trans its
        exact whole ((beq_iff_eq.mp cut).symm.trans (beq_iff_eq.mp its))
      exact ⟨absent, agree.trans absent⟩
  · rintro (whole | absent)
    · rw [whole]
    · rw [removeDevice_eq_self fun name listed list found entry inside =>
          (absent name listed list found entry inside).2,
        removeDevice_eq_self fun name listed list found entry inside =>
          (absent name listed list found entry inside).1]

theorem outcome_systemPower_iff (reboot : Bool) (text : String) (m : Moment) (p : Panel) :
    ((((p.send .stop).showMessage text 30 m).redraw m).systemPower reboot).world.outcome =
        (Question.power reboot).carriedOut m.written p.world.outcome ↔
      p.world.HasRoom := by
  have stopped : (((p.send .stop).showMessage text 30 m).redraw m).world = (p.send .stop).world :=
    world_redraw m _
  rw [World.HasRoom, ← toList_cmdqPush_iff .stop]
  constructor
  · intro same
    have queues := congrArg Outcome.queue same
    rw [systemPower, stopped] at queues
    exact queues
  · intro pushed
    rw [systemPower, stopped]
    simp only [World.outcome, Question.carriedOut, Outcome.queued, send, pushed]

theorem outcome_btAdd_iff {found : Found} {i : ℕ} (listed : p.ui.bt[i]? = some found) (m : Moment) :
    (p.btAdd i m).world.outcome =
        (Question.connect p.ui.btKind found).carriedOut m.written p.world.outcome ↔
      Mapped p.world.store.root ∧ p.world.HasRoom := by
  have unmapped : (Question.connect p.ui.btKind found).carriedOut m.written p.world.outcome ≠
      p.world.outcome := by
    intro same
    exact List.cons_ne_nil _ [] (List.append_right_eq_self.mp (congrArg Outcome.queue same))
  unfold btAdd
  rw [listed]
  dsimp only
  cases devs : inMap "probe_devices" p.world.store.root with
  | none =>
      exact iff_of_false (fun same => unmapped same.symm)
        (fun both => by simp [Mapped, devs] at both)
  | some devs' =>
      cases infos : inMap "probe_info" p.world.store.root with
      | none =>
          exact iff_of_false (fun same => unmapped same.symm)
            (fun both => by simp [Mapped, infos] at both)
      | some infos' =>
          have mapped : Mapped p.world.store.root := by simp [Mapped, devs, infos]
          have added : withFound p.ui.btKind found p.world.store.root =
              addFound p.ui.btKind found devs' infos' p.world.store.root := by
            simp only [withFound, devs, infos]
          refine Iff.trans (outcome_save_send_iff _ _ _ m p) ?_
          rw [added]
          simp only [mapped, true_and]

/-- A Yes does what the question names exactly where that is sound. -/
theorem outcome_confirmYes_iff (shows : Shows q p.ui) (m : Moment) :
    (p.confirmYes m).world.outcome = q.carriedOut m.written p.world.outcome ↔
      q.Sound p.world := by
  unfold confirmYes
  rw [shows.act]
  cases q with
  | smoke =>
      refine iff_of_false ?_ id
      intro same
      exact List.cons_ne_nil _ [] (List.self_eq_append_right.mp (congrArg Outcome.queue same))
  | emergencyStop | allOff | recipeSkip | recipeBack | recipeExit => exact outcome_send_iff _ p
  | hopper mark => cases mark <;> exact iff_of_true rfl trivial
  | power reboot => cases reboot <;> exact outcome_systemPower_iff _ _ m p
  | remove device name =>
      have kept : p.ui.btLabel = strlcpy 24 device := shows.kept
      refine Iff.trans (outcome_save_send_iff _ _ _ m p) ?_
      rw [kept, removeDevice_eq_iff]
      rfl
  | connect kind found =>
      obtain ⟨rfl, listed, -⟩ := shows.kept
      exact outcome_btAdd_iff (p := p.pop) listed m

/-- A press would answer Yes: the panel is lit, nothing covers the screens, and
Yes is picked out. -/
def yesPicked (p : Panel) : Bool :=
  p.backlightOn && !p.ui.splash && p.ui.attention == "" && p.status.isSome &&
    p.ui.confirmFocus == 1

theorem input_yes (shows : Shows q p.ui) (yes : p.yesPicked = true) (m : Moment) :
    p.input .enter m = ({ p with lastActivity := m.now }.confirmYes m).redraw m := by
  simp only [yesPicked, Bool.and_eq_true, Bool.not_eq_true', beq_iff_eq] at yes
  obtain ⟨⟨⟨⟨lit, bare⟩, calm⟩, known⟩, picked⟩ := yes
  have key : p.handleKey .enter m = { p with lastActivity := m.now }.confirmYes m := by
    have present : p.status.isNone = false := by simpa using known
    simp only [handleKey, lit, present, shows.screen, confirmKey, Key.dir, picked, Bool.not_true,
      Bool.false_eq_true, if_false, ne_eq, not_true_eq_false, if_true]
  simp only [input, bare, calm, Bool.false_eq_true, if_false, ne_eq, not_true_eq_false, key]

theorem world_confirmKey {k : Key} (no : k = .enter → p.ui.confirmFocus ≠ 1) (m : Moment) :
    (p.confirmKey k m).world = p.world := by
  unfold confirmKey
  split
  · rfl
  · split
    · next press =>
        rw [if_neg (no press)]
        rfl
    · rfl

theorem world_handleKey (shows : Shows q p.ui) {k : Key}
    (no : k = .enter → p.ui.confirmFocus = 1 → p.backlightOn = false ∨ p.status = none)
    (m : Moment) : (p.handleKey k m).world = p.world := by
  unfold handleKey
  dsimp only
  split
  · split <;> rfl
  · next lit =>
      split
      · rfl
      · next known =>
          rw [shows.screen]
          apply world_confirmKey (p := { p with lastActivity := m.now })
          intro press picked
          rcases no press picked with dark | unknown
          · exact lit (congrArg not dark)
          · exact known (congrArg Option.isNone unknown)

theorem world_input (shows : Shows q p.ui) {k : Key} (no : k = .enter → p.yesPicked = false)
    (m : Moment) : (p.input k m).world = p.world := by
  unfold input
  split
  · exact world_redraw _ _
  · next bare =>
      split
      · exact world_redraw _ _
      · next calm =>
          rw [world_redraw]
          apply world_handleKey shows
          intro press picked
          have missed := no press
          simp only [yesPicked, picked, Bool.not_eq_true] at missed bare
          rw [not_not.mp calm, bare] at missed
          cases lit : p.backlightOn with
          | false => exact .inl rfl
          | true => simpa [lit] using missed

theorem world_longPress (m : Moment) (p : Panel) : (p.longPress m).world = p.world := by
  unfold longPress
  split
  · exact world_redraw _ _
  · rfl

end Panel

/-- An event that meets a confirmation answers it: a Yes does what the question on
the screen names, once, and no confirmation is left; any other key and a press
that is held do nothing outside the panel. -/
def Answered (e : Event) (b : Asked) : Prop :=
  b.state.ui.screen = .confirm →
    match e with
    | .key .enter m =>
        if b.state.yesPicked = true then
          ∃ q, b.noted = some q ∧ b.state.ui.confirmText = strlcpy 44 q.text ∧
            (step e b.state).world.outcome = q.carriedOut m.written b.state.world.outcome ∧
            Closed (step e b.state).ui
        else (step e b.state).world = b.state.world
    | .key _ _ | .held _ => (step e b.state).world = b.state.world
    | _ => True

/-- An event that answers Yes meets a question whose Yes is sound. -/
def Meets (e : Event) (b : Asked) : Prop :=
  b.state.ui.screen = .confirm →
    match e with
    | .key .enter _ => b.state.yesPicked = true → ∀ q, b.noted = some q → q.Sound b.state.world
    | _ => True

theorem answered_yes {b : Asked} (shows : Shows q b.state.ui) (noted : b.noted = some q)
    (yes : b.state.yesPicked = true) (m : Moment) :
    (∃ q, b.noted = some q ∧ b.state.ui.confirmText = strlcpy 44 q.text ∧
        (step (.key .enter m) b.state).world.outcome =
          q.carriedOut m.written b.state.world.outcome ∧
        Closed (step (.key .enter m) b.state).ui) ↔
      (b.state.yesPicked = true → ∀ q, b.noted = some q → q.Sound b.state.world) := by
  have shown : Shows q { b.state with lastActivity := m.now }.ui := shows
  have stepped : step (.key .enter m) b.state =
      ({ b.state with lastActivity := m.now }.confirmYes m).redraw m := Panel.input_yes shows yes m
  have carried := Panel.outcome_confirmYes_iff shown m
  rw [stepped, Panel.world_redraw, noted]
  constructor
  · rintro ⟨_, ⟨⟩, -, done, -⟩ - _ ⟨⟩
    exact carried.mp done
  · intro sound
    have isSound : q.Sound b.state.world := sound yes q rfl
    refine ⟨q, rfl, shows.text, carried.mpr isSound, ?_⟩
    apply (Panel.quiet_redraw m _).closed
    apply Panel.confirmYes_closed shown
    rintro rfl
    exact isSound

theorem answered_iff_meets (e : Event) (b : Asked) (settled : Settled b) :
    Answered e b ↔ Meets e b := by
  unfold Answered Meets
  apply imp_congr_right
  intro screen
  rcases settled with closed | ⟨q, noted, shows⟩
  · exact absurd screen closed.screen_ne
  · cases e with
    | key k m =>
        cases k with
        | enter =>
            dsimp only
            split
            · next yes => exact answered_yes shows noted yes m
            · next no =>
                have unpicked := Bool.eq_false_of_not_eq_true no
                exact iff_of_true (Panel.world_input shows (fun _ => unpicked) m)
                  (fun yes => absurd yes no)
        | _ => exact iff_of_true (Panel.world_input shows (by simp) m) trivial
    | held m => exact iff_of_true (Panel.world_longPress m b.state) trivial
    | _ => exact Iff.rfl

/-- In every run of the panel every confirmation is answered as it should be,
exactly when every Yes meets a question that is sound. -/
theorem answered_iff (cfg : Item) (m : Moment) (world : World) (events : List Event) :
    Along Asked.step Answered events ⟨create cfg m world, none⟩ ↔
      Along Asked.step Meets events ⟨create cfg m world, none⟩ :=
  along_iff Settled (fun e b settled _ => settled_step e b settled) answered_iff_meets
    (settled_create cfg m world)

/-- A controller at rest, with nothing in its settings. -/
def atRest : World := ⟨cmdqInit, ⟨.object [], none, 0⟩, none, false, []⟩

/-- In Hold: the menu, its first row, and a turn to Yes. -/
def toSmoke : List Event :=
  [.tick (some (.obj [("mode", .str "Hold")])) none ⟨4, 0⟩, .key .double ⟨5, 0⟩,
    .key .enter ⟨6, 0⟩, .key .up ⟨7, 0⟩]

/-- The panel with Smoke on the screen and Yes picked out. -/
def smokeAsked : Asked := run Asked.step toSmoke ⟨create (.object []) ⟨0, 0⟩ atRest, none⟩

theorem smokeAsked_shows : smokeAsked.state.ui.screen = .confirm ∧
    smokeAsked.state.yesPicked = true ∧ smokeAsked.state.ui.confirmAction = .smoke := by
  decide +kernel

/-- A Yes to Smoke is not answered. -/
theorem smoke_not_answered : ¬∀ (cfg : Item) (m : Moment) (world : World) (events : List Event),
    Along Asked.step Answered events ⟨create cfg m world, none⟩ := by
  intro all
  obtain ⟨screen, yes, action⟩ := smokeAsked_shows
  have settled : Settled smokeAsked := settled_run (.object []) ⟨0, 0⟩ atRest toSmoke
  have answered : Answered (.key .enter ⟨8, 0⟩) smokeAsked := by
    have along := all (.object []) ⟨0, 0⟩ atRest (toSmoke ++ [.key .enter ⟨8, 0⟩])
    exact (along_append.mp along).2.1
  have meets := (answered_iff_meets _ _ settled).mp answered screen yes
  rcases settled with closed | ⟨q, noted, shows⟩
  · exact closed.screen_ne screen
  · have sound := meets q noted
    rw [Question.eq_smoke (shows.act.symm.trans action)] at sound
    exact sound

end PiFire.Display
