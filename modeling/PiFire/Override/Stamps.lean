import PiFire.Relay.Passage

/-!
# The stamps of the overrides

A manual command puts an output in the user's hands until a time. Nothing else
puts one there: a phase leaves the stamps as they are, clears one that has run
out or that the cap ends, or enters a mode, which clears them all.
-/

namespace PiFire

open Transition

/-- Until when an output is in the user's hands. -/
def ManualUntil.get (m : ManualUntil) : Output → ℚ
  | .power => m.power
  | .fan => m.fan
  | .auger => m.auger
  | .igniter => m.igniter

/-- The mode and the stamps. -/
def handsOf (c : Control) : Mode × ManualUntil := (c.mode, c.manualUntil)

/-- The mode and the stamps are the given ones, or a mode has been entered. -/
def Spares (hands : Mode × ManualUntil) (c : Control) : Prop :=
  handsOf c = hands ∨ c.manualUntil = .none

section Entered

variable (t : Tick) (c : Control)

@[simp]
theorem setOutput_manualUntil (o : Output) (on : Bool) :
    (setOutput o on c).manualUntil = c.manualUntil := rfl

@[simp]
theorem fanOn_manualUntil (pct : ℤ) : (fanOn pct c).manualUntil = c.manualUntil := by
  unfold fanOn
  simp only
  split <;> rfl

@[simp]
theorem smokeCycle_manualUntil : (smokeCycle t c).manualUntil = c.manualUntil := by
  unfold smokeCycle
  simp only
  split <;> rfl

theorem setupLight_manualUntil : (setupLight t c).manualUntil = c.manualUntil := by
  have begun (c : Control) :
      (onStartupEnter t (selectSmartstartProfile c)).manualUntil = c.manualUntil := rfl
  simp only [setupLight, setOutput_manualUntil, smokeCycle_manualUntil, begun, fanOn_manualUntil]

theorem setupError_manualUntil : (setupError t c).manualUntil = c.manualUntil := by
  unfold setupError
  extract_lets
  split
  · rw [fanOn_manualUntil]
    rfl
  · rfl

theorem enterMode_manualUntil (m : Mode) : (enterMode t m c).manualUntil = .none := by
  have left : (leaveMode t m c).manualUntil = .none := rfl
  have running (prev : Mode) (c : Control) : (onRunEnter t prev c).manualUntil = c.manualUntil :=
    rfl
  have fed (cycle : Cycle) (c : Control) : (applyCycle cycle c).manualUntil = c.manualUntil := rfl
  cases m with
  | stop | monitor | manual => exact left
  | prime =>
      simp only [enterMode, setupPrime, setOutput_manualUntil]
      split
      · exact left
      · exact left
  | startup => exact (setupLight_manualUntil t _).trans left
  | reignite => exact (setupLight_manualUntil t _).trans left
  | smoke =>
      simp only [enterMode, setupSmoke, setOutput_manualUntil, smokeCycle_manualUntil,
        fanOn_manualUntil, running, left]
  | hold =>
      simp only [enterMode, setupHold, setOutput_manualUntil, fed, fanOn_manualUntil, running,
        left]
  | shutdown =>
      simp only [enterMode, setupShutdown, setOutput_manualUntil, fanOn_manualUntil, left]
  | error => exact (setupError_manualUntil t _).trans left

end Entered

section Spare

variable (t : Tick) {c : Control} {hands : Mode × ManualUntil}

theorem spares_of_withoutLid {d : Control} (same : withoutLid d = withoutLid c)
    (kept : Spares hands c) : Spares hands d := by
  have seen : handsOf d = handsOf c := by
    have seen := congrArg handsOf same
    exact seen
  rcases kept with before | cleared
  · exact Or.inl (seen.trans before)
  · exact Or.inr ((congrArg Prod.snd seen).trans cleared)

theorem spares_of_passes {d : Control} {entered : Option Entry}
    (passes : Passes withoutFire t c entered d) : Spares (handsOf c) d := by
  rcases (passes.blind handsOf fun _ => rfl).stays_or_enters rfl with
    ⟨-, same⟩ | ⟨e, from_, -, -, into⟩
  · exact Or.inl same
  · exact Or.inr ((congrArg Prod.snd into).trans (enterMode_manualUntil t from_ e.mode))

theorem spares_nextCycle (kept : Spares hands c) : Spares hands (nextCycle t c) := by
  have same := congrArg withoutLid (withoutFeed_nextCycle t c)
  exact spares_of_withoutLid same kept

theorem spares_driveCycle (kept : Spares hands c) : Spares hands (driveCycle t c) := by
  have next := spares_nextCycle t kept
  simp only [driveCycle, followCycle, parkAuger]
  split_ifs
  · exact next
  · exact next
  · exact next
  · exact next
  · exact kept
  · exact kept

theorem spares_act {p : Phase} (notManual : ∀ str on num, p ≠ .command (.manualOutput str on num))
    (notFeed : p ≠ .feed) (notExpire : p ≠ .expire) (c : Control) :
    Spares (handsOf c) (p.act t c) := by
  by_cases plans : p.plans = true ∨ p = .read ∨ p = .supervise
  · exact spares_of_passes t (passes_fire t c plans)
  · obtain ⟨works, notRead, notSupervise⟩ := by simpa only [not_or] using plans
    cases p with
    | command cmd =>
        cases cmd with
        | dutyCycle num =>
            simp only [Phase.act, handleCmd]
            split <;> exact Or.inl rfl
        | manualOutput str flag num => exact absurd rfl (notManual str flag num)
        | lidToggle => exact spares_of_withoutLid (withoutLid_lidToggle t c) (Or.inl rfl)
        | settingsChanged =>
            simp only [Phase.act, handleCmd, controlReloadSettings]
            split <;> exact Or.inl rfl
        | controllerChanged => exact Or.inl rfl
        | _ => exact absurd rfl works
    | lid => exact spares_of_withoutLid (withoutLid_watchLid t c) (Or.inl rfl)
    | feed => exact absurd rfl notFeed
    | fan =>
        have same := congrArg withoutLid (withoutFeed_runFan t c)
        exact spares_of_withoutLid same (Or.inl rfl)
    | expire => exact absurd rfl notExpire
    | checkpoint => exact Or.inl rfl
    | read => exact absurd rfl notRead
    | supervise => exact absurd rfl notSupervise
    | _ => exact absurd rfl works

end Spare

/-- Outside Manual and Monitor every override has run out by the deadline. -/
def Released (deadline : ℚ) (c : Control) : Prop :=
  outputsFree c.mode = false → ∀ o, c.manualUntil.get o ≤ deadline

/-- Whether a command switches an output by hand. -/
def Cmd.isManual : Cmd → Bool
  | .manualOutput .. => true
  | _ => false

/-- Whether a phase is a manual command. -/
def Phase.isManual : Phase → Bool
  | .command cmd => cmd.isManual
  | _ => false

/-- A manual command given outside Manual and Monitor is by the deadline as old
as an override may get. -/
def Ripe (deadline : ℚ) (t : Tick) (p : Phase) (c : Control) : Prop :=
  p.isManual → acceptsManual c → outputsFree c.mode = false →
    t.now + c.cfg.manualOverrideS ≤ deadline

instance (deadline : ℚ) (t : Tick) (p : Phase) (c : Control) : Decidable (Ripe deadline t p c) :=
  inferInstanceAs (Decidable (_ → _ → _ → _))

section Released

variable {deadline : ℚ} {t : Tick} {c : Control}

theorem released_none (nonneg : 0 ≤ deadline) (none : c.manualUntil = .none) :
    Released deadline c := by
  intro _ o
  rw [none]
  cases o <;> exact nonneg

theorem Released.spares (nonneg : 0 ≤ deadline) (released : Released deadline c) {d : Control}
    (kept : Spares (handsOf c) d) : Released deadline d := by
  rcases kept with same | cleared
  · obtain ⟨mode, stamps⟩ := Prod.ext_iff.mp same
    have mode : d.mode = c.mode := mode
    have stamps : d.manualUntil = c.manualUntil := stamps
    intro idle
    rw [stamps]
    exact released (mode ▸ idle)
  · exact released_none nonneg cleared

theorem ManualUntil.get_set_le {m : ManualUntil} (each : ∀ o, m.get o ≤ deadline) (o : Output)
    {until_ : ℚ} (le : until_ ≤ deadline) (o' : Output) : (m.set o until_).get o' ≤ deadline := by
  have got : (m.set o until_).get o' = if o' = o then until_ else m.get o' := by
    cases o <;> cases o' <;> rfl
  rw [got]
  split
  · exact le
  · exact each o'

theorem released_manualOutput (str : String) (on : Bool) (num : ℚ) (released : Released deadline c)
    (ripe : Ripe deadline t (.command (.manualOutput str on num)) c) :
    Released deadline (manualOutput t str on num c) := by
  have mode : (manualOutput t str on num c).mode = c.mode :=
    act_mode t (.command (.manualOutput str on num)) c
  intro busy
  rw [mode] at busy
  unfold manualOutput
  split
  · next accepted =>
      have le : t.now + c.cfg.manualOverrideS ≤ deadline := ripe rfl accepted busy
      simp only [busy, Bool.false_eq_true, if_false]
      split
      · exact ManualUntil.get_set_le (released busy) .fan le
      · split
        · next o _ => exact ManualUntil.get_set_le (released busy) o le
        · exact released busy
  · exact released busy

theorem released_feedAuger (nonneg : 0 ≤ deadline) (released : Released deadline c) :
    Released deadline (feedAuger t c) := by
  have driven := released.spares nonneg (spares_driveCycle t (Or.inl rfl))
  have rested {c : Control} (released : Released deadline c) :
      Released deadline (restAuger t c) := by
    apply released.spares nonneg
    unfold restAuger
    split <;> exact Or.inl rfl
  have capped {c : Control} (released : Released deadline c) :
      Released deadline (capAuger t c) := by
    simp only [capAuger]
    split
    · intro busy
      exact ManualUntil.get_set_le (released busy) .auger nonneg
    · exact released
  exact capped (rested driven)

theorem released_expireManual (nonneg : 0 ≤ deadline) (released : Released deadline c) :
    Released deadline (expireManual t c) := by
  unfold expireManual
  split
  · exact released
  · have left {until_ : ℚ} (le : until_ ≤ deadline) :
        (if until_ ≤ t.now then 0 else until_) ≤ deadline := by
      split
      · exact nonneg
      · exact le
    intro busy o
    have stood := released busy o
    cases o <;> exact left stood

theorem released_act {p : Phase} (nonneg : 0 ≤ deadline) (released : Released deadline c)
    (ripe : Ripe deadline t p c) : Released deadline (p.act t c) := by
  by_cases manual : ∃ str on num, p = .command (.manualOutput str on num)
  · obtain ⟨str, on, num, rfl⟩ := manual
    exact released_manualOutput str on num released ripe
  · by_cases feed : p = .feed
    · rw [feed]
      exact released_feedAuger nonneg released
    · by_cases expire : p = .expire
      · rw [expire]
        exact released_expireManual nonneg released
      · apply released.spares nonneg
        apply spares_act t _ feed expire
        intro str on num same
        exact manual ⟨str, on, num, same⟩

/-- The manual commands of a step are ripe by the deadline. -/
def RipeStep (deadline : ℚ) (t : Tick) (c : Control) : Prop :=
  Along (Phase.act t) (Ripe deadline t) (phases t) c

instance (deadline : ℚ) (t : Tick) (c : Control) : Decidable (RipeStep deadline t c) :=
  inferInstanceAs (Decidable (Along _ _ _ _))

theorem released_step (nonneg : 0 ≤ deadline) (released : Released deadline c)
    (ripe : RipeStep deadline t c) : Released deadline (controlStep t c) :=
  controlStep_preserves (Ripe deadline t) (Released deadline)
    (fun _ _ released ripe => released_act nonneg released ripe) released ripe

theorem released_run (nonneg : 0 ≤ deadline) {ticks : List Tick} (released : Released deadline c)
    (ripe : Along controlStep (RipeStep deadline) ticks c) :
    Released deadline (run controlStep ticks c) :=
  run_preserves (RipeStep deadline) (Released deadline)
    (fun _ _ released ripe => released_step nonneg released ripe) released ripe

end Released

end PiFire
