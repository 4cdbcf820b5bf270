import PiFire.Relay.Switch

/-!
# How a phase passes a state on

A phase leaves the mode, enters one, or ends a light and enters one, and works
on a few fields besides. What is left of the state without these fields is as it
was, or as the mode entered leaves it.
-/

namespace PiFire

/-- What is left without the plan of the cook: its course, its set point and the request. -/
def withoutPlan (c : Control) : Control :=
  { c with
    nextMode := .stop, modeStart := 0, aimSince := 0, req := none, setpointC := 0, sPlus := false
    pwmControl := false, cycle := .idle, uRaw := 0, uApplied := 0, targetReached := false
    primeAmountG := 0, notify := .init, recipe := .init
    autotune := { active := false, uCenter := 0, lastLoad := 0 }
    lastStep := 0, powerOffRequested := false
    safety := { c.safety with reigniteLast := .stop, stopOvertempSaid := false, error := none } }

/-- What is left without the readings, the supervision and the outputs as well. -/
def withoutFire (c : Control) : Control :=
  { withoutPlan c with
    safety := safetyReset 0, sensors := .none, pitC := none, pitValid := false, ambientC := none
    ambientFromProbe := false, cookMaxPitC := 0, outputs := outputsAllOff }

/-- What is left without the feed and the fan as well. -/
def withoutFeed (c : Control) : Control :=
  { withoutFire c with
    saturated := 0, controller := none, fanPidActive := false, fanToggleT := 0, fanUpdateT := 0
    fanRamping := false, rampEndT := 0, dutyCycle := 0 }

/-- What is left without the lid as well. -/
def withoutLid (c : Control) : Control :=
  { withoutFeed c with
    lidOpen := false, lidOpenUntil := 0, lidLowC := none, lidEvent := false, lidEventT := 0
    lidHist := [], lidHistLast := 0 }

section Plan

variable (t : Tick) (c : Control)

theorem passes_plan {p : Phase} (plans : p.plans = true) (notError : p = .timed → c.mode ≠ .error) :
    Passes withoutPlan t c (phaseEntry t p c) (p.act t c) := by
  have left := (passes_phase t c plans notError).blind withoutPlan fun _ => rfl
  generalize phaseEntry t p c = entered at left ⊢
  cases left with
  | stays same => exact .stays same
  | enters into same lights => exact .enters into same lights
  | handsOver lighting into same notPrime => exact .handsOver lighting into same notPrime

theorem withoutFire_readSensors : withoutFire (readSensors t c) = withoutFire c := by
  have same := congrArg withoutFire (withoutReadings_readSensors t c)
  exact same

theorem withoutFire_safetyTick : withoutFire (safetyTick t c).1 = withoutFire c := by
  have capped : withoutFire (capIgniter t c) = withoutFire c := by
    simp only [capIgniter]
    split_ifs <;> rfl
  by_cases hot : overheated c = true
  · rw [safetyTick, if_pos hot]
    rfl
  · have judges := judges_safetyTick t c (by simpa using hot)
    exact (judges.blind withoutFire (fun _ => rfl) (fun _ _ _ => rfl) fun _ => rfl).trans capped

theorem withoutFire_errorFan : withoutFire (errorFan t c) = withoutFire c := by
  have expired : withoutFire (expireErrorFan t c) = withoutFire c := by
    unfold expireErrorFan
    split_ifs <;> rfl
  rw [← expired]
  unfold errorFan stopFeedingFire
  split_ifs <;> rfl

theorem passes_fire {p : Phase} (plans : p.plans = true ∨ p = .read ∨ p = .supervise) :
    Passes withoutFire t c (phaseEntry t p c) (p.act t c) := by
  rcases plans with plans | rfl | rfl
  · by_cases inError : p = .timed ∧ c.mode = .error
    · obtain ⟨rfl, mode⟩ := inError
      simp only [Phase.act, phaseEntry, timedTransition, timedEntry, mode]
      exact .stays (withoutFire_errorFan t c)
    · exact (passes_plan t c plans (not_and.mp inError)).blind _ fun _ => rfl
  · exact .stays (withoutFire_readSensors t c)
  · have judged := withoutFire_safetyTick t c
    simp only [Phase.act, phaseEntry, supervise, superviseEntry, carryAction]
    cases (safetyTick t c).2 with
    | none => exact .stays judged
    | error => exact .enters rfl judged rfl
    | reignite => exact .enters rfl judged rfl

theorem withoutFeed_nextCycle : withoutFeed (nextCycle t c) = withoutFeed c := by
  have same := congrArg withoutFeed (withoutAsking_nextCycle t c)
  exact same

theorem withoutFeed_runFan : withoutFeed (runFan t c) = withoutFeed c := by
  have same := congrArg withoutFeed (withoutFan_runFan t c)
  exact same

theorem withoutLid_lidToggle : withoutLid (lidToggle t c) = withoutLid c := by
  rcases withoutPause_lidToggle t c with same | same
  all_goals
    have left := congrArg withoutLid same
    exact left

theorem withoutLid_watchLid : withoutLid (watchLid t c) = withoutLid c := by
  rcases withoutPause_watchLid t c with same | same
  all_goals
    have left := congrArg withoutLid same
    exact left

end Plan

end PiFire
