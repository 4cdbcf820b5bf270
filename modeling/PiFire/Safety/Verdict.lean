import PiFire.Relay.Watch

/-!
# The verdict of a tick

The supervision judges an overheated pit, then an unread one, then a light or a
fire. Here is what it was judging when it gave its verdict, once the igniter has
been capped.
-/

namespace PiFire

/-- The same grill, but for its outputs and what is remembered of the igniter. -/
inductive Capped (c : Control) : Control → Prop where
  | same (outputs : Outputs) (safety : Safety) (watched : safety.watched = c.safety.watched) :
      Capped c { c with outputs := outputs, safety := safety }

theorem capped_capIgniter (t : Tick) (c : Control) : Capped c (capIgniter t c) := by
  unfold capIgniter
  split
  · split
    · exact .same _ c.safety rfl
    · split
      · exact .same c.outputs { c.safety with igniterOnSince := t.now } rfl
      · split
        · exact .same _ { c.safety with igniterLockedOut := true } rfl
        · exact .same c.outputs c.safety rfl
  · exact .same c.outputs { c.safety with igniterOnSince := 0 } rfl

/-- What a supervision judged, and how. -/
inductive Verdict (t : Tick) (c : Control) : Control × Action → Prop where
  | overheat (hot : overheated c = true) :
      Verdict t c (setError (.overtemp (c.pitC.getD 0) c.cfg.maxTempC) c, .error)
  | blind {c' : Control} (capped : Capped c c') (firing : c.mode.isFiring = true)
      (unread : c.validPit = none) : Verdict t c (judgeProbe t c')
  | light {c' : Control} (capped : Capped c c') (lighting : c.mode.isLighting = true) {pit : ℚ}
      (read : c.validPit = some pit) (active : c.safety.ssActive = true) :
      Verdict t c (judgeLight t (filterPit t pit c'))
  | unlit {c' : Control} (capped : Capped c c') (lighting : c.mode.isLighting = true) {pit : ℚ}
      (read : c.validPit = some pit) (inactive : c.safety.ssActive = false) :
      Verdict t c (restSupervision (filterPit t pit c'), .none)
  | cook {c' : Control} (capped : Capped c c') (cool : overheated c = false)
      (running : c.mode.isRunning = true) {pit : ℚ} (read : c.validPit = some pit) :
      Verdict t c (superviseFire t pit (filterPit t pit c'))
  | idle {c' : Control} (capped : Capped c c') (cool : overheated c = false)
      (notFiring : c.mode.isFiring = false) : Verdict t c (judgeIdle c', .none)

section Judging

variable {c c' : Control}

theorem Capped.mode (capped : Capped c c') : c'.mode = c.mode := by
  cases capped
  rfl

theorem Capped.watched (capped : Capped c c') : c'.safety.watched = c.safety.watched := by
  cases capped with
  | same _ _ watched => exact watched

theorem running_of_firing {m : Mode} (firing : m.isFiring = true)
    (notLighting : ¬m.isLighting = true) : m.isRunning = true := by
  cases m <;>
    first
      | rfl
      | exact absurd rfl notLighting
      | cases firing

theorem verdict_safetyTick (t : Tick) (c : Control) : Verdict t c (safetyTick t c) := by
  have capped := capped_capIgniter t c
  have mode := capped.mode
  have active := Safety.of_watched Safety.ssActive (fun _ => rfl) capped.watched
  unfold safetyTick
  by_cases hot : overheated c = true
  · rw [if_pos hot]
    exact .overheat hot
  rw [if_neg hot]
  rw [Bool.not_eq_true] at hot
  by_cases firing : c.mode.isFiring = true
  · simp only [if_pos firing]
    cases read : c.validPit with
    | none => exact .blind capped firing read
    | some pit =>
        have filtered : (filterPit t pit (capIgniter t c)).mode = c.mode := mode
        simp only [judgeFiring, mode]
        by_cases lighting : c.mode.isLighting = true
        · rw [if_pos lighting, active]
          by_cases lit : c.safety.ssActive = true
          · rw [if_pos lit]
            exact .light capped lighting read lit
          · rw [if_neg lit]
            exact .unlit capped lighting read (by simpa using lit)
        · rw [if_neg lighting]
          exact .cook capped hot (running_of_firing firing lighting) read
  · rw [if_neg firing]
    exact .idle capped hot (by simpa using firing)

end Judging

theorem watched_judgeProbe {t : Tick} {c : Control} (calm : (judgeProbe t c).2 = .none) :
    ∃ since, (judgeProbe t c).1.safety.watched =
      { c.safety.watched with primaryInvalidSince := since } := by
  unfold judgeProbe at calm ⊢
  split
  · exact ⟨t.now, rfl⟩
  · next waiting =>
      rw [if_neg waiting] at calm
      split
      · next late =>
          rw [if_pos late] at calm
          cases calm
      · exact ⟨c.safety.primaryInvalidSince, rfl⟩

/-- A light after its judgement, whatever its deadline. -/
def judgedLight (t : Tick) (c : Control) : Control :=
  let filt := c.safety.filtC.getD 0
  if c.safety.ssProven then c else proveByHold t filt (proveByRise t filt c)

theorem judgeLight_eq (t : Tick) (c : Control) :
    judgeLight t c =
      if t.now > (judgedLight t c).safety.ssDeadline then
        (setError
          ((if c.mode = .reignite then Fault.relightFailed else Fault.startupFailed)
            (judgedLight t c).safety.ssProven c.cfg.ssProveS)
          (setOutput .igniter false (setOutput .auger false (judgedLight t c))), .error)
      else (judgedLight t c, .none) :=
  rfl

theorem judgeLight_quiet {t : Tick} {c : Control} (quiet : (judgeLight t c).2 = .none) :
    (judgeLight t c).1 = judgedLight t c ∧ t.now ≤ (judgedLight t c).safety.ssDeadline := by
  rw [judgeLight_eq] at quiet ⊢
  by_cases late : t.now > (judgedLight t c).safety.ssDeadline
  · rw [if_pos late] at quiet
    cases quiet
  · rw [if_neg late]
    exact ⟨rfl, not_lt.mp late⟩

section Phases

variable {t : Tick} {c : Control} {p : Phase}

theorem superviseEntry_none (quiet : superviseEntry t c = none) :
    (safetyTick t c).2 = .none ∧ supervise t c = (safetyTick t c).1 := by
  unfold superviseEntry at quiet
  split at quiet
  · next calm => exact ⟨calm, by rw [supervise, carryAction, calm]⟩
  · cases quiet
  · cases quiet

theorem safetyTick_known (t : Tick) (c : Control) :
    (safetyTick t c).1.cfg = c.cfg ∧ (safetyTick t c).1.validPit = c.validPit := by
  by_cases hot : overheated c = true
  · rw [safetyTick, if_pos hot]
    exact ⟨rfl, rfl⟩
  · obtain ⟨auger, igniter, judged, -⟩ := judged_safetyTick t c (by simpa using hot)
    obtain ⟨on, since, locked, capped⟩ := Relay.capIgniter_eq t.now (relayOf c)
    rw [capped] at judged
    have limits : (safetyTick t c).1.cfg = c.cfg := congrArg Relay.cfg judged
    have pit : (safetyTick t c).1.pitC = c.pitC := congrArg Relay.pitC judged
    have valid : (safetyTick t c).1.pitValid = c.pitValid := congrArg Relay.pitValid judged
    exact ⟨limits, by rw [Control.validPit, Control.validPit, pit, valid]⟩

theorem act_quiet (quiet : phaseEntry t p c = none) (notSupervise : p ≠ .supervise) :
    (p.act t c).safety.watched = c.safety.watched := by
  by_cases written : p = .checkpoint
  · subst written
    rfl
  have moved := watch_act t c p notSupervise written
  rw [quiet] at moved
  exact congrArg Watch.safety (WatchMove.stays moved)

theorem Watch.enter_lights {now sp : ℚ} {m : Mode} {cfg : Cfg} {pit : Option ℚ} (w : Watch)
    (lighting : m.isLighting = true) :
    ∃ before : Watch, (w.enter now m cfg pit sp).safety = (before.light now cfg pit).safety := by
  cases m with
  | startup =>
      exact ⟨{ w with safety := { (safetyReset cfg.reigniteRetries).watched with } }, rfl⟩
  | reignite =>
      exact ⟨{ w with safety := { w.safety with primaryInvalidSince := 0 } }, rfl⟩
  | _ => cases lighting

theorem act_lights {e : Entry} (entered : phaseEntry t p c = some e)
    (lighting : e.mode.isLighting = true) :
    ∃ before : Watch,
      (p.act t c).safety.watched = (before.light t.now c.cfg c.validPit).safety := by
  by_cases supervised : p = .supervise
  · subst supervised
    obtain ⟨limits, pit⟩ := safetyTick_known t c
    simp only [phaseEntry, superviseEntry] at entered
    split at entered
    · cases entered
    · cases entered
      cases lighting
    · next action =>
        have acted : supervise t c = enterMode t .reignite (safetyTick t c).1 := by
          rw [supervise, carryAction, action]
        have watch := congrArg Watch.safety (watchOf_enterMode t .reignite (safetyTick t c).1)
        rw [← acted, limits, pit] at watch
        exact ⟨_, watch⟩
  by_cases written : p = .checkpoint
  · subst written
    cases entered
  have moved := watch_act t c p supervised written
  rw [entered] at moved
  obtain ⟨before, sp, entering, -⟩ := WatchMove.enters moved
  obtain ⟨light, lit⟩ := before.enter_lights lighting
  exact ⟨light, (congrArg Watch.safety entering).trans lit⟩

end Phases

end PiFire
