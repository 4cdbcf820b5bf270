import PiFire.Control.Supervision

/-!
# Snapshots of a running cook

A snapshot is written when the daemon hands a cook over to its successor, and
as a checkpoint every few seconds for one that starts after a power cut. A warm
restart resumes the mode it names; a recovery lights the grill again, or
refuses to. The text of a snapshot is its JSON tree; which probes are in the
food belongs to the probe complex and is left out.
-/

namespace PiFire

/-- The modes a restart may take up again. -/
def resumable (m : Mode) : Bool :=
  m.isFiring || m == .shutdown || m == .monitor

/-- A NaN is written as a number no reading has. -/
def orUnknown (x : Option ℚ) : Json := .num (x.getD (-1000))

/-- A number, or the null that a NaN is printed as. -/
def numOrNull : Option ℚ → Json
  | some x => .num x
  | none => .null

/-- The recipe's place in a snapshot. -/
def recipeJson (now : ℚ) (run : RecipeRun) : Json :=
  .obj [
    ("id", .num run.r.id),
    ("step", .num run.step),
    ("step_elapsed", .num (now - run.stepStart)),
    ("at_temp_elapsed", .num (if run.atTempSince > 0 then now - run.atTempSince else -1)),
    ("triggered", .bool run.triggered),
    ("waiting", .bool run.waiting),
    ("lead_fired", .bool run.leadFired),
    ("lid_seen", .bool run.lidSeen),
    ("flags", .arr ((List.range (min run.r.nsteps recipeMaxSteps)).map fun i =>
      .num (run.flagAt i).toNat)),
    ("prompt_given", .bool run.promptGiven),
    ("said", .bool run.said)]

/-- Whether a probe has anything to save. -/
def NotifyProbe.saved (p : NotifyProbe) : Bool :=
  !(p.targetC ≤ 0 && p.limitHighC ≤ 0 && p.limitLowC ≤ 0)

/-- A text member, left out when empty. -/
def textMember (name text : String) : List (String × Json) :=
  if text = "" then [] else [(name, .str text)]

/-- A number member, left out unless positive. -/
def positiveMember (name : String) (x : ℚ) : List (String × Json) :=
  if x > 0 then [(name, .num x)] else []

/-- A probe's target and limits in a snapshot. -/
def probeJson (p : NotifyProbe) : Json :=
  .obj ([("label", .str p.label), ("target_c", .num p.targetC), ("after", .num p.after)] ++
    textMember "meat" p.meat ++ textMember "done" p.done ++
    positiveMember "finish_c" p.finishC ++ positiveMember "rest_c" p.restC ++
    [("limit_high_c", .num p.limitHighC), ("limit_low_c", .num p.limitLowC)])

/-- What is left on the timer. -/
def Timer.left (now : ℚ) (t : Timer) : ℚ :=
  if t.paused then t.remaining else t.endT - now

/-- The timer in a snapshot. -/
def timerJson (now : ℚ) (t : Timer) : Json :=
  .obj [
    ("remaining", .num (t.left now)),
    ("duration", .num t.duration),
    ("after", .num t.after),
    ("paused", .bool t.paused)]

/-- The members every snapshot has. -/
def baseMembers (t : Tick) (c : Control) : List (String × Json) :=
  let s := c.safety
  [ ("saved_wall", .num t.wall),
    ("mode", .str c.mode.name),
    ("next_mode", .str c.nextMode.name),
    ("mode_elapsed", .num (t.now - c.modeStart)),
    ("setpoint_c", .num c.setpointC),
    ("s_plus", .bool c.sPlus),
    ("pwm_control", .bool c.pwmControl),
    ("u_applied", .num c.uApplied),
    ("cook_start_wall", .num c.cookStartWall),
    ("auger_total_on_s", .num c.augerTotalOnS),
    ("cook_max_pit_c", .num c.cookMaxPitC),
    ("ambient_c", orUnknown c.ambientC),
    ("ss_baseline_c", orUnknown s.ssBaselineC),
    ("ss_left_s", .num (if s.ssActive then max 0 (s.ssDeadline - t.now) else 0)),
    ("ss_elapsed_s", .num (if s.ssActive then t.now - s.ssStart else 0)),
    ("ss_entry_c", orUnknown s.ssEntryC),
    ("ss_held", .bool s.ssHeld),
    ("heating", .bool s.heating),
    ("established", .bool s.established),
    ("handover_c", numOrNull s.handoverC),
    ("peak_c", orUnknown s.peakC),
    ("reignite_retries_left", .num s.reigniteRetriesLeft),
    ("recoveries", .num c.recoveries),
    ("ss_active", .bool s.ssActive),
    ("ss_proven", .bool s.ssProven),
    ("pit_c", orUnknown c.validPit),
    ("boot_id", .str t.bootId) ]

/-- The snapshot of the cook; nothing is worth resuming in the other modes. -/
def resumeJson (t : Tick) (c : Control) : Option Json :=
  if resumable c.mode then
    some (.obj (baseMembers t c ++
      (if c.recipe.active then [("recipe", recipeJson t.now c.recipe)] else []) ++
      [("probes", .arr ((c.notify.probes.filter NotifyProbe.saved).map probeJson))] ++
      (if c.notify.timer.running then [("timer", timerJson t.now c.notify.timer)] else [])))
  else none

/-- How old a snapshot may be for a warm restart, in seconds. -/
def resumeMaxAgeS : ℚ := 300

/-- How long ago the snapshot was written. -/
def snapshotAge (t : Tick) (o : Json) : ℚ := t.wall - jsonNum o ["saved_wall"] 0

/-- The mode a snapshot names. -/
def snapshotMode (o : Json) : Option Mode := modeFromName (jsonStr o ["mode"] "")

/-- The mode a snapshot says comes after lighting. -/
def snapshotNextMode (o : Json) : Option Mode := modeFromName (jsonStr o ["next_mode"] "")

/-- The mode a warm restart takes up, when the snapshot is accepted. -/
def resumedMode (t : Tick) (o : Json) (c : Control) : Option Mode :=
  (snapshotMode o).filter fun m =>
    resumable m && 0 ≤ snapshotAge t o && snapshotAge t o ≤ resumeMaxAgeS && c.mode == .stop

/-- What is restored before the mode is entered. -/
def restoreAim (o : Json) (c : Control) : Control :=
  let sp := jsonNum o ["setpoint_c"] 0
  let amb := jsonNum o ["ambient_c"] (-1000)
  let outdoor := amb > -999 ∧ amb ≤ ambientMaxC ∧ c.ambientFromProbe = false
  { c with
    nextMode := (snapshotNextMode o).getD .stop
    setpointC := if sp > 0 then sp else c.setpointC
    sPlus := jsonBool o ["s_plus"] c.sPlus
    pwmControl := jsonBool o ["pwm_control"] c.pwmControl
    ambientC := if outdoor then some amb else c.ambientC }

/-- The cook's clocks and totals. -/
def restoreBooks (t : Tick) (o : Json) (c : Control) : Control :=
  let elapsed := jsonNum o ["mode_elapsed"] 0
  let started := jsonNum o ["cook_start_wall"] 0
  { c with
    modeStart := if elapsed > 0 then t.now - elapsed else c.modeStart
    cookStartWall := if started > 0 then started else c.cookStartWall
    augerTotalOnS := jsonNum o ["auger_total_on_s"] 0
    cookMaxPitC := jsonNum o ["cook_max_pit_c"] 0 }

/-- The flags of a snapshot over the ones in use, at most sixteen of them. -/
def restoreFlags (saved : List Json) (flags : List StepFlag) : List StepFlag :=
  let read := (saved.take recipeMaxSteps).map fun v => (v.valueInt % 256).toNat.toUInt8
  read ++ flags.drop read.length

/-- The run at the place a snapshot gives. -/
def restoreRun (t : Tick) (rc : Json) (step : ℕ) (run : RecipeRun) : RecipeRun :=
  let atTemp := jsonNum rc ["at_temp_elapsed"] (-1)
  let placed := { run with step := step }
  let ends := placed.current.ends
  { placed with
    active := true
    stepStart := t.now - jsonNum rc ["step_elapsed"] 0
    atTempSince := if atTemp ≥ 0 then t.now - atTemp else 0
    triggered := jsonBool rc ["triggered"] false
    waiting := jsonBool rc ["waiting"] false
    leadFired := jsonBool rc ["lead_fired"] false
    said := jsonBool rc ["said"] false
    promptGiven := jsonBool rc ["prompt_given"] false
    flags := restoreFlags (((rc.memberAnyCase? "flags").map Json.children).getD []) run.flags
    lidSeen := jsonBool rc ["lid_seen"] false
    ends := ends
    wantsPrompt := endsMention "prompt" ends || endsMention "lid" ends
    lastEval := 0
    etaS := -1 }

/-- The recipe, loaded again by its id and put back in its place. -/
def restoreRecipe (t : Tick) (o : Json) (c : Control) : Control :=
  match o.memberAnyCase? "recipe" with
  | none => c
  | some rc =>
      let id := jsonInt rc ["id"] 0
      if id > 0 then
        let load := recipeLoad t.services.recipes (settingsUnits t.settings) id
        let run := { c.recipe with r := load.1 }
        let step := jsonInt rc ["step"] 0
        if load.2 ∧ 0 ≤ step ∧ step < load.1.nsteps then
          { c with recipe := restoreRun t rc step.toNat run }
        else { c with recipe := run }
      else c

/-- The light carries on with the proof and the time it had. -/
def restoreLight (t : Tick) (o : Json) (s : Safety) : Safety :=
  let base := jsonNum o ["ss_baseline_c"] (-1000)
  let left := jsonNum o ["ss_left_s"] 0
  let elapsed := jsonNum o ["ss_elapsed_s"] 0
  let entry := jsonNum o ["ss_entry_c"] (-1000)
  { s with
    ssBaselineC := if base > -999 then some (lower base s.ssBaselineC) else s.ssBaselineC
    ssProven := jsonBool o ["ss_proven"] false
    ssDeadline := if left > 0 then t.now + left else s.ssDeadline
    ssStart := if elapsed > 0 ∧ entry > -999 then t.now - elapsed else s.ssStart
    ssEntryC := if elapsed > 0 ∧ entry > -999 then some entry else s.ssEntryC
    ssHeld := jsonBool o ["ss_held"] false }
where
  /-- The lower of two readings, when the second is one. -/
  lower (base : ℚ) (current : Option ℚ) : ℚ :=
    match current with
    | some b => min base b
    | none => base

/-- The fire carries on with the peak it had. -/
def restoreFire (o : Json) (pitC : Option ℚ) (s : Safety) : Safety :=
  let peak := jsonNum o ["peak_c"] (-1000)
  { s with
    heating := jsonBool o ["heating"] false
    established := jsonBool o ["established"] true
    handoverC := (jsonNum? o ["handover_c"]).or pitC
    peakC := if peak > -999 then some peak else s.peakC }

/-- The supervision of the mode taken up. -/
def restoreSafety (t : Tick) (o : Json) (c : Control) : Control :=
  let s :=
    if c.mode.isLighting then restoreLight t o c.safety
    else if c.mode.isRunning then restoreFire o c.pitC c.safety
    else c.safety
  { c with
    safety := { s with
      reigniteRetriesLeft :=
        truncate (jsonNum o ["reignite_retries_left"] s.reigniteRetriesLeft) } }

/-- Hold goes on from the feed it had. -/
def restoreFeed (o : Json) (c : Control) : Control :=
  let u := jsonNum o ["u_applied"] c.uApplied
  if c.mode = .hold ∧ 0 < u ∧ u ≤ 1 then { c with uRaw := u, uApplied := u } else c

/-- One saved probe: its target or its rest, the words behind it, its limits. -/
def restoreProbe (estimates : RestEstimates) (n : Notify) (po : Json) : Notify :=
  let label := jsonStr po ["label"] ""
  let rest := jsonNum po ["rest_c"] 0
  let after := jsonInt po ["after"] 0
  let targeted :=
    if rest > 0 then notifySetRest estimates label rest after n
    else notifySetTarget label (jsonNum po ["target_c"] 0) after n
  let noted := notifySetTargetNote label (jsonStr po ["meat"] "") (jsonStr po ["done"] "")
    (jsonNum po ["finish_c"] 0) targeted
  notifySetLimits label (jsonNum po ["limit_high_c"] 0) (jsonNum po ["limit_low_c"] 0) noted

/-- The saved timer, when anything is left on it. -/
def restoreTimer (now : ℚ) (saved : Option Json) (timer : Timer) : Timer :=
  match saved with
  | none => timer
  | some t =>
      let remaining := jsonNum t ["remaining"] 0
      if remaining > 0 then
        let started := { timerStart remaining (jsonInt t ["after"] 0) now timer with
          duration := jsonNum t ["duration"] remaining }
        if jsonBool t ["paused"] false then timerPause now started else started
      else timer

/-- The probe targets and the timer. -/
def restoreNotify (t : Tick) (o : Json) (c : Control) : Control :=
  let saved := ((o.memberAnyCase? "probes").map Json.children).getD []
  let probed := saved.foldl (restoreProbe t.services.estimates) (notifySync c.sensors c.notify)
  { c with
    notify := { probed with
      timer := restoreTimer t.now (o.memberAnyCase? "timer") probed.timer } }

/-- Take a cook up again after a warm restart. The flag says whether a mode was
entered. -/
def controlResume (t : Tick) (o : Json) (c : Control) : Control × Bool :=
  match resumedMode t o c with
  | none => (c, false)
  | some m =>
      let entered := enterMode t m (restoreAim o c)
      let placed := restoreRecipe t o (restoreBooks t o entered)
      (restoreNotify t o (restoreFeed o (restoreSafety t o placed)), true)

end PiFire

/-!
# Recovery after a power loss

A daemon that starts after an unclean end reads the checkpoint of the cook.
Relighting is safe only when the grill knows how long it was out and what the
pot was doing; everything else ends in Error with nothing lit.
-/

namespace PiFire

/-- What a start-up knows of the machine besides the input of a step. -/
structure Boot where
  tick : Tick
  /-- A tuning run was going when the daemon ended. -/
  tunerInterrupted : Bool
  /-- The clock is synchronised. -/
  synced : Bool

/-- Whether the pit kept its heat over the outage: it has lost no more than
three tenths of what it had above the air. -/
def heatKept (o : Json) (c : Control) : Bool :=
  let was := jsonNum o ["pit_c"] (-1000)
  let saved := jsonNum o ["ambient_c"] 20
  let amb := if saved < -40 ∨ saved > 60 then 20 else saved
  was > amb + 20 && c.validPit.any fun pit => pit - amb ≥ 7 / 10 * (was - amb)

/-- A light that was never confirmed: relighting it is how a grill flares. -/
def unprovenLight (o : Json) (m : Mode) : Bool :=
  m == .startup &&
    ((jsonBool o ["ss_active"] false && !jsonBool o ["ss_proven"] false) ||
      (jsonBool o ["coldstart_active"] false && !jsonBool o ["coldstart_reached"] false))

/-- Whether the length of the outage can be told: the machine kept running, its
clock is synchronised, or the pit kept its heat. -/
def outageKnown (b : Boot) (o : Json) (c : Control) : Bool :=
  b.tick.bootId == jsonStr o ["boot_id"] "" || b.synced || heatKept o c

/-- Why a cook in mode `m` is not lit again. A tuning run is not among the
reasons: it is put out instead. -/
def refusal (b : Boot) (o : Json) (m : Mode) (c : Control) : Option Refusal :=
  if jsonInt o ["recoveries"] 0 ≥ 1 then some .repeatedRestarts
  else if unprovenLight o m then some .unprovenIgnition
  else if !outageKnown b o c then some .outageUnknown
  else if snapshotAge b.tick o > c.cfg.powerLossMaxS then some (.tooLong (snapshotAge b.tick o))
  else none

/-- Whether the snapshot shows a tuning run that was interrupted, and nothing
that refuses the recovery before that is asked. -/
def tuningInterrupted (b : Boot) (o : Json) (m : Mode) : Bool :=
  b.tunerInterrupted && !(jsonInt o ["recoveries"] 0 ≥ 1) && !unprovenLight o m

/-- The mode to go back to after relighting a cook that was in mode `m`. -/
def relightTarget (o : Json) (m : Mode) : Mode :=
  if m = .reignite then (if snapshotNextMode o = some .hold then .hold else .smoke) else m

/-- Count the recovery, and take what the cook aimed at. -/
def countRecovery (o : Json) (c : Control) : Control :=
  let sp := jsonNum o ["setpoint_c"] 0
  { c with
    recoveries := jsonInt o ["recoveries"] 0 + 1
    safety := { c.safety with
      reigniteRetriesLeft :=
        truncate (jsonNum o ["reignite_retries_left"] c.safety.reigniteRetriesLeft) }
    setpointC := if sp > 0 then sp else c.setpointC
    sPlus := jsonBool o ["s_plus"] c.sPlus
    pwmControl := jsonBool o ["pwm_control"] c.pwmControl }

/-- Enter the light: a first Startup again, or a relight back to the mode. -/
def enterLight (b : Boot) (o : Json) (m : Mode) (c : Control) : Control :=
  if m = .startup then
    enterMode b.tick .startup { c with nextMode := (snapshotNextMode o).getD .smoke }
  else
    enterMode b.tick .reignite
      (mapSafety (fun s => { s with reigniteLast := relightTarget o m }) c)

/-- The cook's clock and totals go on. -/
def restoreTotals (o : Json) (c : Control) : Control :=
  let started := jsonNum o ["cook_start_wall"] 0
  { c with
    cookStartWall := if started > 0 then started else c.cookStartWall
    augerTotalOnS := jsonNum o ["auger_total_on_s"] 0
    cookMaxPitC := jsonNum o ["cook_max_pit_c"] 0
    restartResumed := true }

/-- Light the grill again for the cook of a snapshot. -/
def relight (b : Boot) (o : Json) (m : Mode) (c : Control) : Control :=
  restoreTotals o (enterLight b o m (countRecovery o c))

/-- The mode of a cook that a recovery takes up. -/
def recoveredMode (b : Boot) (o : Json) (c : Control) : Option Mode :=
  (snapshotMode o).filter fun m =>
    m.isFiring && 0 ≤ snapshotAge b.tick o && c.cfg.powerLossRecovery

/-- Recover a cook after a power loss. The flag says whether the recovery
decided the mode, either way. -/
def controlRecover (b : Boot) (o : Json) (c : Control) : Control × Bool :=
  match recoveredMode b o c with
  | none => (c, false)
  | some m =>
      if tuningInterrupted b o m then (enterMode b.tick .shutdown c, true)
      else
        match refusal b o m c with
        | some why => (enterMode b.tick .error (setError (.powerLoss why) c), true)
        | none => (relight b o m c, true)

/-- A start that picks no cook up runs the cool-down fan for a hot pit. -/
def controlBootCheck (t : Tick) (resuming : Bool) (c : Control) : Control :=
  if resuming then c
  else if readsAbove c.validPit c.cfg.restartHotC then enterMode t .shutdown c
  else c

end PiFire
