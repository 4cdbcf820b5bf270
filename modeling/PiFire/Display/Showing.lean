import PiFire.Display.Confirm

/-!
# From one screen to the next

Away from a confirmation an event opens one only for the row that is picked out;
while one shows, its question stays until it closes. So after any run a
confirmation on the screen shows the question that was noted last.
-/

namespace PiFire.Display

open Settings Transition

variable {u u' : Ui} {p : Panel} {q : Question} {m : Moment}

/-! ## Where no question comes up -/

/-- From one state of the screens to another no question comes up. -/
structure Quiet (u u' : Ui) : Prop where
  closed : Closed u → Closed u'
  shows : ∀ q, Shows q u → Closed u' ∨ Shows q u'

namespace Quiet

theorem of_showing (same : u'.showing = u.showing) : Quiet u u' where
  closed := Closed.congr (congrArg Showing.stack same)
  shows _ shows := .inr (shows.congr same)

theorem of_closed (closed : Closed u') : Quiet u u' where
  closed _ := closed
  shows _ _ := .inl closed

theorem trans {u'' : Ui} (first : Quiet u u') (second : Quiet u' u'') : Quiet u u'' where
  closed closed := second.closed (first.closed closed)
  shows q shows := by
    rcases first.shows q shows with closed | shows
    · exact .inl (second.closed closed)
    · exact second.shows q shows

end Quiet

namespace Panel

theorem quiet_redraw (m : Moment) (p : Panel) : Quiet p.ui (p.redraw m).ui := by
  unfold redraw
  split
  · exact .of_closed (Closed.reset _)
  · exact .of_showing rfl

/-! ### The tick -/

theorem ui_reconfigure (p : Panel) : p.reconfigure.ui = p.ui := by
  unfold reconfigure
  dsimp only
  split
  · rfl
  · split <;> rfl

theorem quiet_btCollect (found : Option Item) (p : Panel) : Quiet p.ui (p.btCollect found).ui := by
  unfold btCollect
  cases scanning : p.ui.btScanning with
  | false => exact .of_showing rfl
  | true =>
      cases found with
      | none => exact .of_showing rfl
      | some list =>
          refine ⟨fun closed => closed.setIndex 0, fun q shows => .inr ?_⟩
          have top : (p.ui.setIndex 0).screen = p.ui.screen := by
            simp only [Ui.screen, Ui.setIndex, Stack.top?_onTop, Option.map_map]
            rfl
          have below : (p.ui.setIndex 0).pop.stack = p.ui.pop.stack :=
            Stack.ext (Stack.tail_onTop _ _)
          refine ⟨top.trans shows.screen, shows.below.congr below, shows.act, shows.text, ?_⟩
          have kept := shows.kept
          cases q with
          | remove device name => exact kept
          | connect kind found =>
              have idle : p.ui.btScanning = false := kept.2.2
              exact Bool.noConfusion (scanning.symm.trans idle)
          | _ => trivial

theorem quiet_timeOut (m : Moment) (p : Panel) : Quiet p.ui (p.timeOut m).ui := by
  unfold timeOut
  dsimp only
  split
  · split
    · exact .of_closed (Closed.congr rfl (Closed.reset p.ui))
    · exact .of_closed (Closed.reset _)
  · split <;> exact .of_showing rfl

theorem showing_flash (m : Moment) (p : Panel) : (p.flash m).ui.showing = p.ui.showing := by
  unfold flash
  dsimp only
  split <;> rfl

theorem ui_sleepOrWake (stopped : Bool) (m : Moment) (p : Panel) :
    (p.sleepOrWake stopped m).ui = p.ui := by
  simp only [sleepOrWake, backlight, apply_ite Panel.ui, ite_self]

theorem quiet_statusTick (json : Option Json) (found : Option Item) (m : Moment) (p : Panel) :
    Quiet p.ui (p.statusTick json found m).ui := by
  unfold statusTick
  dsimp only
  apply Quiet.trans _ (quiet_redraw _ _)
  rw [ui_sleepOrWake]
  apply Quiet.trans _ (.of_showing (showing_flash _ _))
  apply Quiet.trans _ (quiet_timeOut _ _)
  apply Quiet.trans _ (quiet_btCollect _ _)
  apply Quiet.of_showing
  rw [ui_onUi]
  change p.reconfigure.ui.showing = p.ui.showing
  rw [ui_reconfigure]

/-! ### Keys away from a confirmation -/

theorem closed_focusAct (closed : Closed p.ui) (m : Moment) : Closed (p.focusAct m).ui := by
  have away : Closed (p.onUi fun ui => { ui with mainFocus := focusNone }).ui := closed.congr rfl
  unfold focusAct
  dsimp only
  split_ifs
  · exact away.push (by decide) _
  · exact away.push (by decide) _
  · exact closed_openSelector away _ _ _ _ _
  · exact closed_openTemp away _ _ _ _
  · exact closed_openTemp away _ _ _ _
  · exact away.push (by decide) _
  · split
    · exact away
    · exact doAction_closed away rfl
  · exact away

theorem closed_mainKey (closed : Closed p.ui) (k : Key) (m : Moment) :
    Closed (p.mainKey k m).ui := by
  unfold mainKey
  split_ifs
  · exact closed.congr rfl
  · exact (Closed.reset _).push (by decide) _
  · exact closed_focusAct closed m
  · exact closed

theorem closed_tempConfirm (m : Moment) (p : Panel) : Closed (p.tempConfirm m).ui := by
  unfold tempConfirm
  dsimp only
  split
  · exact Closed.reset _
  · exact Closed.reset _
  · exact Closed.reset _
  · exact Closed.reset _
  · split <;> exact closed_showMessage _ _ _ _
  · exact Closed.reset _

theorem closed_spinTemp (closed : Closed p.ui) (dir : ℤ) (m : Moment) :
    Closed (p.spinTemp dir m).ui := by
  unfold spinTemp
  split <;> exact closed.congr rfl

theorem closed_tempKey (closed : Closed p.ui) (k : Key) (m : Moment) :
    Closed (p.tempKey k m).ui := by
  unfold tempKey
  split_ifs
  · exact closed_spinTemp closed _ m
  · exact closed.congr rfl
  · exact closed
  · exact closed.congr rfl
  · exact closed.congr rfl
  · exact closed.congr rfl
  · exact closed_tempConfirm m p
  · exact closed.pop
  · exact closed

theorem closed_manualKey (closed : Closed p.ui) (k : Key) : Closed (p.manualKey k).ui := by
  unfold manualKey manualPress
  split_ifs
  · exact closed.congr rfl
  · dsimp only
    split
    · exact closed
    · exact closed.pop
  · exact closed

theorem closed_marginsKey (closed : Closed p.ui) (k : Key) (m : Moment) :
    Closed (p.marginsKey k m).ui := by
  have reverted : p.marginsRevert.ui.stack = p.ui.stack := by
    unfold marginsRevert
    split
    · rfl
    · dsimp only
      split <;> rfl
  unfold marginsKey
  dsimp only
  split_ifs
  · exact closed.congr rfl
  · exact closed
  · exact closed.congr rfl
  · exact closed.congr rfl
  · exact (closed.congr reverted).pop
  · unfold marginsSave
    dsimp only
    split <;> exact closed_showMessage _ _ _ _
  · exact closed

/-! ### Rows that ask -/

/-- Rows that add no probe. -/
def AddsNone (rows : List MenuItem) : Prop := ∀ item ∈ rows, item.act ≠ .btAdd

theorem addsNone_append {rows more : List MenuItem} :
    AddsNone (rows ++ more) ↔ AddsNone rows ∧ AddsNone more :=
  List.forall_mem_append

theorem addsNone_ite {c : Prop} [Decidable c] {rows more : List MenuItem} (yes : AddsNone rows)
    (no : AddsNone more) : AddsNone (if c then rows else more) := by
  split
  · exact yes
  · exact no

theorem addsNone_map {α : Type} {f : α → MenuItem} (each : ∀ x, (f x).act ≠ .btAdd) (xs : List α) :
    AddsNone (xs.map f) := by
  intro item inside
  obtain ⟨x, -, rfl⟩ := List.mem_map.mp inside
  exact each x

theorem addsNone_of_all {rows : List MenuItem}
    (all : (rows.all fun item => item.act != .btAdd) = true) : AddsNone rows := by
  intro item inside
  exact bne_iff_ne.mp (List.all_eq_true.mp all item inside)

theorem switchRow_addsNone (mode : String) : AddsNone [switchRow mode] := by
  unfold switchRow
  split <;> exact addsNone_of_all rfl

theorem modeRows_addsNone (mode : String) : AddsNone (modeRows mode) := by
  unfold modeRows
  refine addsNone_append.mpr ⟨addsNone_ite (addsNone_of_all rfl) (addsNone_ite ?_ ?_),
    addsNone_of_all rfl⟩
  · refine addsNone_append.mpr ⟨addsNone_append.mpr ⟨addsNone_of_all rfl, ?_⟩, ?_⟩
    · exact addsNone_ite (addsNone_of_all rfl) (addsNone_of_all rfl)
    · exact addsNone_ite (addsNone_of_all rfl) (addsNone_of_all rfl)
  · refine addsNone_append.mpr ⟨addsNone_append.mpr ⟨switchRow_addsNone mode, ?_⟩,
      addsNone_of_all rfl⟩
    exact addsNone_ite (addsNone_of_all rfl) (addsNone_of_all rfl)

theorem probeRows_addsNone (status : Item) : AddsNone (probeRows status) := by
  unfold probeRows
  refine addsNone_append.mpr ⟨addsNone_ite (addsNone_of_all rfl) ?_, addsNone_of_all rfl⟩
  intro item inside
  obtain ⟨⟨probe, i⟩, -, made⟩ := List.mem_filterMap.mp inside
  dsimp only at made
  split at made
  · cases made
  · cases made
    exact Action.noConfusion

theorem pairedRows_addsNone (status : Item) (delete : Bool) :
    AddsNone (pairedRows status delete) := by
  unfold pairedRows
  refine addsNone_append.mpr ⟨addsNone_ite (addsNone_of_all rfl) (addsNone_map ?_ _),
    addsNone_of_all rfl⟩
  intro entry
  cases delete <;> exact Action.noConfusion

theorem rootRows_addsNone (status : Item) : AddsNone (rootRows status) := by
  unfold rootRows
  dsimp only
  refine addsNone_append.mpr ⟨addsNone_append.mpr ⟨addsNone_append.mpr ⟨?_, addsNone_of_all rfl⟩,
    addsNone_ite (addsNone_of_all rfl) (addsNone_of_all rfl)⟩, addsNone_of_all rfl⟩
  refine addsNone_ite ?_ (addsNone_ite (addsNone_of_all rfl) (addsNone_ite ?_ (addsNone_ite ?_ ?_)))
  · split <;> exact addsNone_of_all rfl
  · unfold timerRow
    split <;> exact addsNone_of_all rfl
  · unfold timerRow
    split <;> exact addsNone_of_all rfl
  · refine addsNone_append.mpr ⟨switchRow_addsNone _, ?_⟩
    unfold timerRow
    split <;> exact addsNone_of_all rfl

theorem menuRows_addsNone (status : Item) (u : Ui) (list : ListId) :
    AddsNone (menuRows status u list) := by
  cases list with
  | startup | settings | stop | timer | hopper | probeAct | power => exact addsNone_of_all rfl
  | meat =>
      exact addsNone_append.mpr ⟨addsNone_append.mpr ⟨addsNone_of_all rfl,
        addsNone_map (fun _ => Action.noConfusion) _⟩, addsNone_of_all rfl⟩
  | done | btkind =>
      exact addsNone_append.mpr ⟨addsNone_map (fun _ => Action.noConfusion) _, addsNone_of_all rfl⟩
  | bt =>
      exact addsNone_append.mpr ⟨addsNone_append.mpr ⟨addsNone_of_all rfl,
        addsNone_ite (addsNone_of_all rfl) (addsNone_of_all rfl)⟩, addsNone_of_all rfl⟩
  | mode => exact modeRows_addsNone _
  | probe => exact probeRows_addsNone status
  | btedit | btdel => exact pairedRows_addsNone status _
  | root => exact rootRows_addsNone status

theorem doAction_settles (closed : Closed p.ui) (act : Action) (arg : ℕ) (m : Moment)
    (idle : act = .btAdd → p.ui.btScanning = false) :
    Closed (p.doAction act arg m).ui ∨
      ∃ q, rowQuestion p act arg = some q ∧ Shows q (p.doAction act arg m).ui := by
  cases asked : rowQuestion p act arg with
  | none => exact .inl (doAction_closed closed asked)
  | some q => exact .inr ⟨q, rfl, doAction_shows closed asked idle⟩

theorem listKey_settles (closed : Closed p.ui) (k : Key) (m : Moment) :
    Closed (p.listKey k m).ui ∨
      ∃ q, (p.pickedRow.bind fun item => rowQuestion p item.act item.arg) = some q ∧
        Shows q (p.listKey k m).ui := by
  unfold listKey
  dsimp only
  split_ifs
  · exact .inl closed.pop
  · exact .inl (closed.setIndex _)
  · cases picked : p.pickedRow with
    | none => exact .inl closed
    | some item =>
        apply doAction_settles closed
        intro adds
        have listed := List.mem_of_mem_take (List.mem_of_getElem? picked)
        exact absurd adds (menuRows_addsNone _ _ _ item listed)
  · exact .inl closed

theorem btscanKey_settles (closed : Closed p.ui) (k : Key) (m : Moment) :
    Closed (p.btscanKey k m).ui ∨
      ∃ q, rowQuestion p .btAdd (p.ui.index % (p.ui.bt.length + 1)) = some q ∧
        Shows q (p.btscanKey k m).ui := by
  unfold btscanKey
  dsimp only
  split_ifs with scanning
  · exact .inl closed
  · exact .inl (closed.setIndex _)
  · exact .inl (closed.congr rfl)
  · exact .inl closed.pop
  · exact doAction_settles closed _ _ m fun _ => Bool.eq_false_of_not_eq_true scanning
  · exact .inl closed

/-! ### Answers -/

theorem closed_btAdd (closed : Closed p.ui) (i : ℕ) (m : Moment) : Closed (p.btAdd i m).ui := by
  unfold btAdd
  split
  · exact closed
  · split <;> exact closed_showMessage _ _ _ _

theorem confirmYes_closed (shows : Shows q p.ui) (other : q ≠ .smoke) (m : Moment) :
    Closed (p.confirmYes m).ui := by
  have below : Closed p.pop.ui := shows.below
  unfold confirmYes
  rw [shows.act]
  cases q with
  | smoke => exact absurd rfl other
  | emergencyStop | allOff | recipeSkip | recipeBack | recipeExit => exact Closed.reset _
  | hopper mark => cases mark <;> exact closed_showMessage _ _ _ _
  | power reboot =>
      cases reboot <;> exact (quiet_redraw _ _).closed (closed_showMessage _ _ _ _)
  | remove device name => exact closed_showMessage _ _ _ _
  | connect kind found => exact closed_btAdd below _ m

theorem confirmYes_smoke (shows : Shows .smoke p.ui) (m : Moment) :
    Shows .smoke (p.confirmYes m).ui := by
  have below : Closed p.pop.ui := shows.below
  unfold confirmYes
  rw [shows.act]
  exact doAction_shows below rfl (fun adds => Action.noConfusion adds)

theorem confirmKey_settles (shows : Shows q p.ui) (k : Key) (m : Moment) :
    Closed (p.confirmKey k m).ui ∨ Shows q (p.confirmKey k m).ui := by
  unfold confirmKey
  split_ifs
  · exact .inr (Shows.congr (u := p.ui) rfl shows)
  · exact .inr (Shows.congr (u := p.ui) rfl shows)
  · cases q with
    | smoke => exact .inr (confirmYes_smoke shows m)
    | _ => exact .inl (confirmYes_closed shows (by simp) m)
  · exact .inl shows.below
  · exact .inr shows

/-! ### Keys -/

theorem handleKey_settles (closed : Closed p.ui) (k : Key) (m : Moment) :
    Closed (p.handleKey k m).ui ∨
      ∃ q, pickedQuestion p = some q ∧ Shows q (p.handleKey k m).ui := by
  have away : Closed { p with lastActivity := m.now }.ui := closed
  unfold handleKey
  dsimp only
  split
  · left
    split
    · exact (Closed.reset _).push (by decide) _
    · exact closed
  · split
    · exact .inl closed
    · unfold pickedQuestion
      cases screen : p.ui.screen with
      | main => exact .inl (closed_mainKey away k m)
      | list => exact listKey_settles away k m
      | temp => exact .inl (closed_tempKey away k m)
      | confirm => exact absurd screen closed.screen_ne
      | btscan => exact btscanKey_settles away k m
      | manual => exact .inl (closed_manualKey away k)
      | margins => exact .inl (closed_marginsKey away k m)
      | netinfo | message => exact .inl closed.pop

theorem handleKey_shows (shows : Shows q p.ui) (k : Key) (m : Moment) :
    Closed (p.handleKey k m).ui ∨ Shows q (p.handleKey k m).ui := by
  unfold handleKey
  dsimp only
  split
  · split
    · exact .inl ((Closed.reset _).push (by decide) _)
    · exact .inr shows
  · split
    · exact .inr shows
    · rw [shows.screen]
      exact confirmKey_settles (p := { p with lastActivity := m.now }) shows k m

theorem settled_redraw {asked : Question → Prop} (m : Moment)
    (settled : Closed p.ui ∨ ∃ q, asked q ∧ Shows q p.ui) :
    Closed (p.redraw m).ui ∨ ∃ q, asked q ∧ Shows q (p.redraw m).ui := by
  rcases settled with closed | ⟨q, isAsked, shows⟩
  · exact .inl ((quiet_redraw m p).closed closed)
  · rw [redraw_shows shows m]
    exact .inr ⟨q, isAsked, shows⟩

theorem input_settles (closed : Closed p.ui) (k : Key) (m : Moment) :
    Closed (p.input k m).ui ∨ ∃ q, pickedQuestion p = some q ∧ Shows q (p.input k m).ui := by
  unfold input
  split
  · exact .inl ((quiet_redraw _ _).closed (closed.congr rfl))
  · split
    · exact .inl ((quiet_redraw _ _).closed (closed.congr rfl))
    · exact settled_redraw m (handleKey_settles closed k m)

theorem input_shows (shows : Shows q p.ui) (k : Key) (m : Moment) :
    Closed (p.input k m).ui ∨ Shows q (p.input k m).ui := by
  unfold input
  split
  · exact (quiet_redraw _ _).shows q (Shows.congr (u := p.ui) rfl shows)
  · split
    · exact (quiet_redraw _ _).shows q (Shows.congr (u := p.ui) rfl shows)
    · rcases handleKey_shows shows k m with closed | shows
      · exact .inl ((quiet_redraw _ _).closed closed)
      · rw [redraw_shows shows m]
        exact .inr shows

theorem quiet_longPress (m : Moment) (p : Panel) : Quiet p.ui (p.longPress m).ui := by
  unfold longPress
  split
  · exact .of_closed ((quiet_redraw m p.reset).closed (Closed.reset _))
  · exact .of_showing rfl

theorem ui_pollInput (p : Panel) : p.pollInput.ui = p.ui := by
  unfold pollInput
  split <;> rfl

theorem quiet_showText (msg : String) (m : Moment) (p : Panel) :
    Quiet p.ui (p.showText msg m).ui := by
  apply Quiet.of_closed
  exact (quiet_redraw _ _).closed (closed_showMessage msg 4 m p)

end Panel

/-! ## One step and a run -/

theorem quiet_step (e : Event) (p : Panel) (other : ∀ k m, e ≠ .key k m) :
    Quiet p.ui (step e p).ui := by
  cases e with
  | key k m => exact absurd rfl (other k m)
  | held m => exact p.quiet_longPress m
  | tick json found m => exact p.quiet_statusTick json found m
  | notice msg m => exact p.quiet_showText msg m
  | poll => exact .of_showing (congrArg Ui.showing p.ui_pollInput)
  | elsewhere world => exact .of_showing rfl

theorem step_settles (closed : Closed p.ui) (e : Event) :
    Closed (step e p).ui ∨ ∃ q, pickedQuestion p = some q ∧ Shows q (step e p).ui := by
  cases e with
  | key k m => exact Panel.input_settles closed k m
  | _ => exact .inl ((quiet_step _ p (by simp)).closed closed)

theorem step_shows (shows : Shows q p.ui) (e : Event) :
    Closed (step e p).ui ∨ Shows q (step e p).ui := by
  cases e with
  | key k m => exact Panel.input_shows shows k m
  | _ => exact (quiet_step _ p (by simp)).shows q shows

/-- Nothing is asked, or the question that was noted shows. -/
def Settled (b : Asked) : Prop :=
  Closed b.state.ui ∨ ∃ q, b.noted = some q ∧ Shows q b.state.ui

theorem settled_create (cfg : Item) (m : Moment) (world : World) :
    Settled ⟨create cfg m world, none⟩ :=
  .inl Stack.all_empty

theorem settled_step (e : Event) (b : Asked) (settled : Settled b) : Settled (Asked.step e b) := by
  rcases settled with closed | ⟨q, noted, shows⟩
  · rcases step_settles closed e with stays | ⟨q, picked, comes⟩
    · exact .inl stays
    · right
      have asked : asks e b.state = some q := by
        rw [asks, if_pos ⟨closed.screen_ne, comes.screen⟩, picked]
      exact ⟨q, congrArg (·.or b.noted) asked, comes⟩
  · rcases step_shows shows e with stays | still
    · exact .inl stays
    · right
      have silent : asks e b.state = none := if_neg fun both => both.1 shows.screen
      exact ⟨q, (congrArg (·.or b.noted) silent).trans noted, still⟩

/-- After every run from the start, a confirmation on the screen shows the
question that was asked last. -/
theorem settled_run (cfg : Item) (m : Moment) (world : World) (events : List Event) :
    Settled (run Asked.step events ⟨create cfg m world, none⟩) :=
  run_invariant Settled settled_step (settled_create cfg m world)

end PiFire.Display
