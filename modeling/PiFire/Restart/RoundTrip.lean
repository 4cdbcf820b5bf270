import PiFire.Restart.Books

/-!
# A warm restart

The snapshot of a cook is written by one process and read by the next. This file
compares the cook before with the cook after, field by field, and says exactly
when nothing is lost.
-/

namespace PiFire

/-! ## The cook before and after -/

/-- What a probe is asked for: a rested temperature or a take-off, with what
comes after it, and its limits. -/
@[ext]
structure Asking where
  /-- Whether it is a rested temperature, the temperature, the action. -/
  aim : Option (Bool × ℚ × ℤ)
  limitHighC : ℚ
  limitLowC : ℚ
  deriving DecidableEq

/-- What a probe is asked for. -/
def NotifyProbe.asking (p : NotifyProbe) : Asking :=
  { aim :=
      if p.restC > 0 then some (true, p.restC, p.after)
      else if p.targetC > 0 then some (false, p.targetC, p.after)
      else none
    limitHighC := if p.limitHighC > 0 then p.limitHighC else 0
    limitLowC := if p.limitLowC > 0 then p.limitLowC else 0 }

/-- Whether a probe is asked for anything. -/
def NotifyProbe.asked (p : NotifyProbe) : Bool :=
  p.restC > 0 || p.targetC > 0 || p.limitHighC > 0 || p.limitLowC > 0

/-- A state in which no cook has begun. -/
structure Fresh (c : Control) : Prop where
  mode : c.mode = .stop
  recoveries : c.recoveries = 0
  reigniteLast : c.safety.reigniteLast = .stop
  inactive : c.recipe.active = false
  stopped : c.notify.timer.running = false
  unasked : ∀ p ∈ c.notify.probes, p.asked = false

theorem fresh_controlInit (settings : Json) (loadController : String → Option String) :
    Fresh (controlInit settings loadController) :=
  ⟨rfl, rfl, rfl, rfl, rfl, by simp [controlInit, Notify.init]⟩

/-- The recipes of two runs are at the same place: the same recipe, the same
step for as long, with the same said and done in it. -/
structure SamePlace (now : ℚ) (run : RecipeRun) (now' : ℚ) (run' : RecipeRun) : Prop where
  id : run'.r.id = run.r.id
  step : run'.step = run.step
  elapsed : now' - run'.stepStart = now - run.stepStart
  waiting : run'.waiting = run.waiting
  triggered : run'.triggered = run.triggered
  leadFired : run'.leadFired = run.leadFired
  said : run'.said = run.said
  promptGiven : run'.promptGiven = run.promptGiven
  lidSeen : run'.lidSeen = run.lidSeen
  flags : ∀ i < min run.r.nsteps recipeMaxSteps, run'.flagAt i = run.flagAt i

/-- The cook of `r` at `t'` is the cook of `c` at `t`. -/
structure SameCook (t : Tick) (c : Control) (t' : Tick) (r : Control) : Prop where
  mode : r.mode = c.mode
  nextMode : r.nextMode = c.nextMode
  handover : c.mode.isLighting → handoverMode r = handoverMode c
  setpointC : r.setpointC = c.setpointC
  retries : r.safety.reigniteRetriesLeft = c.safety.reigniteRetriesLeft
  recoveries : r.recoveries = c.recoveries
  modeElapsed : t'.now - r.modeStart = t.now - c.modeStart
  cookStart : r.cookStartWall = c.cookStartWall
  augerTotal : r.augerTotalOnS = c.augerTotalOnS
  maxPit : r.cookMaxPitC = c.cookMaxPitC
  active : r.recipe.active = c.recipe.active
  place : c.recipe.active → SamePlace t.now c.recipe t'.now r.recipe
  running : r.notify.timer.running = c.notify.timer.running
  timer : c.notify.timer.running →
    r.notify.timer.paused = c.notify.timer.paused ∧
      r.notify.timer.left t'.now = c.notify.timer.left t.now
  targets : ∀ p ∈ c.notify.probes, p.asked →
    (notifyFind r.notify p.label).map NotifyProbe.asking = some p.asking

/-- The last of the probes saved under a label. -/
def lastSaved (probes : List NotifyProbe) (label : String) : Option NotifyProbe :=
  (probes.filter NotifyProbe.saved).reverse.find? fun p => p.label == label

/-- What it takes for a warm restart at `t'` from the fresh state `c'` to lose
nothing of the cook of `c` at `t`. -/
structure Restorable (t : Tick) (c : Control) (t' : Tick) (c' : Control) : Prop where
  handover : c.mode = .reignite → c.safety.reigniteLast ≠ .hold
  setpointC : 0 < c.setpointC ∨ c'.setpointC = c.setpointC
  recoveries : c.recoveries = 0
  begun : c.modeStart ≤ t.now
  cookStart : 0 < c.cookStartWall ∨
    (if c.mode = .startup then t'.wall else c'.cookStartWall) = c.cookStartWall
  recipe : c.recipe.active →
    let load := recipeLoad t'.services.recipes (settingsUnits t'.settings) c.recipe.r.id
    0 < c.recipe.r.id ∧ load.2 ∧ c.recipe.step < load.1.nsteps
  timer : c.notify.timer.running → 0 < c.notify.timer.left t.now
  targets : ∀ p ∈ c.notify.probes, p.asked →
    p.label ∈ (c'.sensors.readings.take maxProbes).map Reading.label ∧
      (lastSaved c.notify.probes p.label).map NotifyProbe.asking = some p.asking

/-! ## Reading a snapshot -/

/-- The snapshot of a cook that is worth resuming. -/
def snapshotOf (t : Tick) (c : Control) : Json :=
  .obj (baseMembers t c ++
      (if c.recipe.active then [("recipe", recipeJson t.now c.recipe)] else []) ++
      [("probes", .arr ((c.notify.probes.filter NotifyProbe.saved).map probeJson))] ++
      (if c.notify.timer.running then [("timer", timerJson t.now c.notify.timer)] else []))

section Snapshot

variable (t : Tick) (c : Control)

theorem resumeJson_eq_some {o : Json} (written : resumeJson t c = some o) : o = snapshotOf t c := by
  unfold resumeJson at written
  split at written
  · exact (Option.some.inj written).symm
  · cases written

theorem snapshotOf_parts :
    (snapshotOf t c).memberAnyCase? "recipe" =
        (if c.recipe.active then some (recipeJson t.now c.recipe) else none) ∧
      (snapshotOf t c).memberAnyCase? "probes" =
        some (.arr ((c.notify.probes.filter NotifyProbe.saved).map probeJson)) ∧
      (snapshotOf t c).memberAnyCase? "timer" =
        (if c.notify.timer.running then some (timerJson t.now c.notify.timer) else none) := by
  have base (name : String) (other : name = "recipe" ∨ name = "probes" ∨ name = "timer") :
      (baseMembers t c).find? (fun entry => strcasecmp name entry.1) = none := by
    rw [List.find?_eq_none]
    simp only [baseMembers, List.forall_mem_cons]
    rcases other with rfl | rfl | rfl <;> decide
  have parts : strcasecmp "recipe" "probes" = false ∧ strcasecmp "recipe" "timer" = false ∧
      strcasecmp "probes" "recipe" = false ∧ strcasecmp "timer" "recipe" = false ∧
      strcasecmp "timer" "probes" = false := by
    decide
  simp only [snapshotOf, Json.memberAnyCase?, List.append_assoc, List.find?_append, base, true_or,
    or_true, Option.none_or]
  refine ⟨?_, ?_, ?_⟩
  · cases c.recipe.active <;> cases c.notify.timer.running <;>
      simp [strcasecmp_self, parts]
  · cases c.recipe.active <;> cases c.notify.timer.running <;>
      simp [strcasecmp_self, parts]
  · cases c.recipe.active <;> cases c.notify.timer.running <;>
      simp [strcasecmp_self, parts]

end Snapshot

/-! ## The recipe -/

section Recipe

variable (now : ℚ) (run : RecipeRun)

theorem recipeJson_flags :
    (recipeJson now run).memberAnyCase? "flags" =
      some (.arr ((List.range (min run.r.nsteps recipeMaxSteps)).map fun i =>
        .num (run.flagAt i).toNat)) := by
  have others : ∀ name ∈ ["id", "step", "step_elapsed", "at_temp_elapsed", "triggered", "waiting",
      "lead_fired", "lid_seen"], strcasecmp "flags" name = false := by
    decide
  simp only [List.forall_mem_cons] at others
  simp [recipeJson, Json.memberAnyCase?, others, strcasecmp_self]

theorem valueInt_flag (flag : StepFlag) :
    ((Json.num flag.toNat).valueInt % 256).toNat.toUInt8 = flag := by
  have small : flag.toNat < 256 := flag.toNat_lt
  have read : (Json.num flag.toNat).valueInt = flag.toNat := by
    have whole : truncate (flag.toNat : ℚ) = flag.toNat := truncate_intCast flag.toNat
    rw [Json.valueInt, whole, Json.valueInt.clampInt]
    omega
  rw [read]
  have kept : ((flag.toNat : ℤ) % 256).toNat = flag.toNat := by omega
  rw [kept]
  exact UInt8.ofNat_toNat

theorem restoreFlags_snapshot (flags : List StepFlag) {n : ℕ} (few : n ≤ recipeMaxSteps) {i : ℕ}
    (inside : i < n) :
    (restoreFlags ((List.range n).map fun i => .num (run.flagAt i).toNat) flags).getD i 0 =
      run.flagAt i := by
  have read : (((List.range n).map fun i => Json.num (run.flagAt i).toNat).take
      recipeMaxSteps).map (fun v => (v.valueInt % 256).toNat.toUInt8) =
        (List.range n).map run.flagAt := by
    rw [List.take_of_length_le (by simpa using few), List.map_map]
    apply List.map_congr_left
    intro i _
    exact valueInt_flag (run.flagAt i)
  rw [restoreFlags, read]
  simp [List.getD_eq_getElem?_getD, List.getElem?_append, inside]

theorem samePlace_restoreRun (t' : Tick) {placed : RecipeRun} (same : placed.r.id = run.r.id) :
    SamePlace now run t'.now (restoreRun t' (recipeJson now run) run.step placed) where
  id := same
  step := rfl
  elapsed := by
    have read : jsonNum (recipeJson now run) ["step_elapsed"] 0 = now - run.stepStart := rfl
    simp only [restoreRun, read]
    ring
  waiting := rfl
  triggered := rfl
  leadFired := rfl
  said := rfl
  promptGiven := rfl
  lidSeen := rfl
  flags := by
    intro i inside
    have few : min run.r.nsteps recipeMaxSteps ≤ recipeMaxSteps := min_le_right _ _
    simp only [RecipeRun.flagAt, restoreRun, recipeJson_flags, Option.map_some, Option.getD_some,
      Json.children]
    exact restoreFlags_snapshot run placed.flags few inside

end Recipe

/-! ## The targets and the timer -/

section Probes

variable (p : NotifyProbe)

theorem probeJson_fields :
    jsonStr (probeJson p) ["label"] "" = p.label ∧
      jsonNum (probeJson p) ["target_c"] 0 = p.targetC ∧
      jsonInt (probeJson p) ["after"] 0 = p.after ∧
      jsonNum (probeJson p) ["rest_c"] 0 = (if p.restC > 0 then p.restC else 0) ∧
      jsonNum (probeJson p) ["limit_high_c"] 0 = p.limitHighC ∧
      jsonNum (probeJson p) ["limit_low_c"] 0 = p.limitLowC := by
  refine ⟨rfl, rfl, truncate_intCast p.after, ?_, ?_, ?_⟩
  · unfold probeJson textMember positiveMember
    split <;> split <;> split <;> split <;> rfl
  · unfold probeJson textMember positiveMember
    split <;> split <;> split <;> split <;> rfl
  · unfold probeJson textMember positiveMember
    split <;> split <;> split <;> split <;> rfl

/-- The entry a saved probe makes of the one it finds. -/
def takeProbe (estimates : RestEstimates) (saved p : NotifyProbe) : NotifyProbe :=
  let targeted :=
    if saved.restC > 0 then p.setRest estimates saved.restC saved.after
    else p.setTarget saved.targetC saved.after
  let noted := targeted.setNote (jsonStr (probeJson saved) ["meat"] "")
    (jsonStr (probeJson saved) ["done"] "") (jsonNum (probeJson saved) ["finish_c"] 0)
  { noted with
    limitHighC := if saved.limitHighC > 0 then saved.limitHighC else 0
    limitLowC := if saved.limitLowC > 0 then saved.limitLowC else 0
    highTripped := false
    lowTripped := false }

theorem setTarget_label (targetC : ℚ) (after : ℤ) : (p.setTarget targetC after).label = p.label := by
  unfold NotifyProbe.setTarget
  split <;> rfl

theorem setNote_label (meat done : String) (finishC : ℚ) :
    (p.setNote meat done finishC).label = p.label := by
  unfold NotifyProbe.setNote
  split <;> rfl

theorem setNote_asking (meat done : String) (finishC : ℚ) :
    (p.setNote meat done finishC).asking = p.asking := by
  unfold NotifyProbe.setNote
  split <;> rfl

theorem takeProbe_label (estimates : RestEstimates) (saved : NotifyProbe) :
    (takeProbe estimates saved p).label = p.label := by
  unfold takeProbe
  simp only [setNote_label]
  split
  · exact setTarget_label p _ _
  · exact setTarget_label p _ _

theorem takeProbe_asking (estimates : RestEstimates) (saved : NotifyProbe) :
    (takeProbe estimates saved p).asking = saved.asking := by
  have limited (x : ℚ) : (if (if x > 0 then x else 0) > 0 then (if x > 0 then x else 0) else 0) =
      if x > 0 then x else 0 := by
    split_ifs <;> rfl
  have aimed : (if saved.restC > 0 then p.setRest estimates saved.restC saved.after
      else p.setTarget saved.targetC saved.after).asking.aim = saved.asking.aim := by
    by_cases rested : saved.restC > 0
    · have after : (p.setRest estimates saved.restC saved.after).after = saved.after := by
        unfold NotifyProbe.setRest NotifyProbe.setTarget
        split <;> rfl
      have rest : (p.setRest estimates saved.restC saved.after).restC = saved.restC := rfl
      simp only [if_pos rested, NotifyProbe.asking, rest, after]
    · by_cases targeted : saved.targetC > 0
      · simp [NotifyProbe.asking, NotifyProbe.setTarget, rested, targeted]
      · simp [NotifyProbe.asking, NotifyProbe.setTarget, rested, targeted]
  have noted (q : NotifyProbe) (meat done : String) (finishC : ℚ) :
      (q.setNote meat done finishC).asking.aim = q.asking.aim :=
    congrArg Asking.aim (setNote_asking q meat done finishC)
  have aim : (takeProbe estimates saved p).asking.aim = saved.asking.aim :=
    (noted _ _ _ _).trans aimed
  have high : (takeProbe estimates saved p).asking.limitHighC = saved.asking.limitHighC :=
    limited saved.limitHighC
  have low : (takeProbe estimates saved p).asking.limitLowC = saved.asking.limitLowC :=
    limited saved.limitLowC
  exact Asking.ext aim high low

theorem modifyProbe_comp {label : String} {f g : NotifyProbe → NotifyProbe}
    (kept : ∀ p, (f p).label = p.label) (probes : List NotifyProbe) :
    modifyProbe label g (modifyProbe label f probes) = modifyProbe label (g ∘ f) probes := by
  induction probes with
  | nil => rfl
  | cons p rest ih =>
      simp only [modifyProbe]
      split
      next same => simp [modifyProbe, kept, same]
      next other => simp [modifyProbe, other, ih]

theorem restoreProbe_probeJson (estimates : RestEstimates) (n : Notify) :
    restoreProbe estimates n (probeJson p) =
      { n with probes := modifyProbe p.label (takeProbe estimates p) n.probes } := by
  obtain ⟨label, target, after, rest, high, low⟩ := probeJson_fields p
  simp only [restoreProbe, label, target, after, rest, high, low]
  have targeted :
      (if (if p.restC > 0 then p.restC else 0) > 0 then
        notifySetRest estimates p.label (if p.restC > 0 then p.restC else 0) p.after n
      else notifySetTarget p.label p.targetC p.after n) =
        { n with
          probes := modifyProbe p.label (fun q =>
            if p.restC > 0 then q.setRest estimates p.restC p.after
            else q.setTarget p.targetC p.after) n.probes } := by
    by_cases rested : p.restC > 0
    · simp [rested, notifySetRest]
    · simp [rested, notifySetTarget]
  rw [targeted, notifySetLimits, notifySetTargetNote]
  simp only
  rw [modifyProbe_comp, modifyProbe_comp]
  · rfl
  · intro q
    split
    · exact setTarget_label q _ _
    · exact setTarget_label q _ _
  · intro q
    exact setNote_label q _ _ _

theorem notifyFind_modifyProbe {label : String} {f : NotifyProbe → NotifyProbe}
    (kept : ∀ p, (f p).label = p.label) (probes : List NotifyProbe) (other : String) :
    (modifyProbe label f probes).find? (fun p => p.label == other) =
      (probes.find? fun p => p.label == other).map fun p =>
        if label = other then f p else p := by
  induction probes with
  | nil => rfl
  | cons p rest ih =>
      by_cases here : p.label = label
      · by_cases found : p.label = other
        · simp [modifyProbe, kept, here, ← found]
        · have apart : label ≠ other := here ▸ found
          simp [modifyProbe, kept, here, apart]
      · by_cases found : p.label = other
        · have apart : other ≠ label := fun same => here (found.trans same)
          simp [modifyProbe, found, apart, apart.symm]
        · simp [modifyProbe, here, found, ih]

theorem foldl_restoreProbe (estimates : RestEstimates) (saved : List NotifyProbe) (n : Notify)
    (label : String) :
    (notifyFind ((saved.map probeJson).foldl (restoreProbe estimates) n) label).map
        NotifyProbe.asking =
      (notifyFind n label).map fun p =>
        ((saved.reverse.find? fun q => q.label == label).getD p).asking := by
  induction saved generalizing n with
  | nil => simp
  | cons q rest ih =>
      rw [List.map_cons, List.foldl_cons, ih, restoreProbe_probeJson]
      simp only [notifyFind, notifyFind_modifyProbe fun p => takeProbe_label p estimates q,
        Option.map_map, List.reverse_cons, List.find?_append]
      congr 1
      funext p
      cases (rest.reverse.find? fun q => q.label == label) with
      | some last => rfl
      | none =>
          by_cases same : q.label = label
          · simp [same, takeProbe_asking]
          · simp [same]

theorem restoreTimer_timerJson (now now' : ℚ) (timer fresh : Timer) :
    let restored := restoreTimer now' (some (timerJson now timer)) fresh
    (restored.running = true ∧ restored.paused = timer.paused ∧
      restored.left now' = timer.left now ∧ 0 < timer.left now) ∨
    (restored = fresh ∧ ¬0 < timer.left now) := by
  have remaining : jsonNum (timerJson now timer) ["remaining"] 0 = timer.left now := rfl
  have paused : jsonBool (timerJson now timer) ["paused"] false = timer.paused := rfl
  simp only [restoreTimer, remaining, paused]
  by_cases left : 0 < timer.left now
  · refine Or.inl ?_
    rw [if_pos left]
    cases timer.paused with
    | true => simp [timerPause, timerStart, Timer.left] ; exact left
    | false => simp [timerStart, Timer.left] ; exact left
  · exact Or.inr ⟨if_neg left, left⟩

end Probes

/-! ## The cook taken up -/

section Resume

variable (t : Tick) (c : Control) (t' : Tick)

/-- The recipe a fresh run becomes. -/
def takenRecipe (run : RecipeRun) : RecipeRun :=
  let load := recipeLoad t'.services.recipes (settingsUnits t'.settings) c.recipe.r.id
  if c.recipe.active ∧ 0 < c.recipe.r.id then
    if load.2 ∧ c.recipe.step < load.1.nsteps then
      restoreRun t' (recipeJson t.now c.recipe) c.recipe.step { run with r := load.1 }
    else { run with r := load.1 }
  else run

/-- The targets and the timer fresh ones become. -/
def takenNotify (sensors : Sensors) (n : Notify) : Notify :=
  let probed := ((c.notify.probes.filter NotifyProbe.saved).map probeJson).foldl
    (restoreProbe t'.services.estimates) (notifySync sensors n)
  let saved := if c.notify.timer.running then some (timerJson t.now c.notify.timer) else none
  { probed with timer := restoreTimer t'.now saved probed.timer }

theorem booksOf_restoreRecipe (r : Control) :
    booksOf (restoreRecipe t' (snapshotOf t c) r) =
      { booksOf r with recipe := takenRecipe t c t' r.recipe } := by
  have id : jsonInt (recipeJson t.now c.recipe) ["id"] 0 = c.recipe.r.id :=
    truncate_intCast c.recipe.r.id
  have step : jsonInt (recipeJson t.now c.recipe) ["step"] 0 = c.recipe.step :=
    truncate_intCast c.recipe.step
  rw [restoreRecipe, (snapshotOf_parts t c).1]
  cases active : c.recipe.active with
  | false => simp [takenRecipe, active, booksOf]
  | true =>
      simp only [if_true, id, step, takenRecipe, active, true_and, gt_iff_lt, Int.toNat_natCast,
        Int.natCast_nonneg, Nat.cast_lt]
      by_cases named : 0 < c.recipe.r.id
      · simp only [if_pos named]
        split <;> rfl
      · simp only [if_neg named]
        rfl

theorem booksOf_restoreSafety (r : Control) :
    booksOf (restoreSafety t' (snapshotOf t c) r) =
      { booksOf r with reigniteRetriesLeft := c.safety.reigniteRetriesLeft } := by
  have left (x : ℚ) : truncate (jsonNum (snapshotOf t c) ["reignite_retries_left"] x) =
      c.safety.reigniteRetriesLeft :=
    truncate_intCast c.safety.reigniteRetriesLeft
  unfold restoreSafety
  simp only [left]
  split
  · rfl
  · split <;> rfl

theorem booksOf_restoreFeed (o : Json) (r : Control) : booksOf (restoreFeed o r) = booksOf r := by
  unfold restoreFeed
  extract_lets u
  split <;> rfl

theorem booksOf_restoreNotify (r : Control) :
    booksOf (restoreNotify t' (snapshotOf t c) r) =
      { booksOf r with notify := takenNotify t c t' r.sensors r.notify } := by
  rw [restoreNotify, (snapshotOf_parts t c).2.1, (snapshotOf_parts t c).2.2]
  rfl

theorem booksOf_controlResume {m : Mode} {c' : Control}
    (accepted : resumedMode t' (snapshotOf t c) c' = some m) :
    booksOf (controlResume t' (snapshotOf t c) c').1 =
      let b := ({ booksOf c' with nextMode := c.nextMode } : Books).enter t' m c'.cfg
      { b with
        modeStart := if t.now - c.modeStart > 0 then t'.now - (t.now - c.modeStart) else b.modeStart
        cookStartWall := if c.cookStartWall > 0 then c.cookStartWall else b.cookStartWall
        augerTotalOnS := c.augerTotalOnS
        cookMaxPitC := c.cookMaxPitC
        recipe := takenRecipe t c t' b.recipe
        reigniteRetriesLeft := c.safety.reigniteRetriesLeft
        notify := takenNotify t c t' b.sensors b.notify } := by
  have next : (snapshotNextMode (snapshotOf t c)).getD .stop = c.nextMode :=
    congrArg (fun m => m.getD .stop) (modeFromName_name c.nextMode)
  have aimed : booksOf (restoreAim (snapshotOf t c) c') =
      { booksOf c' with nextMode := c.nextMode } := by
    rw [← next]
    rfl
  have entered := booksOf_enterMode t' (restoreAim (snapshotOf t c) c') m
  have limits : (restoreAim (snapshotOf t c) c').cfg = c'.cfg := rfl
  rw [aimed, limits] at entered
  simp only [controlResume, accepted]
  generalize enterMode t' m (restoreAim (snapshotOf t c) c') = r at entered ⊢
  let booked := restoreBooks t' (snapshotOf t c) r
  have placed : booksOf (restoreFeed (snapshotOf t c) (restoreSafety t' (snapshotOf t c)
      (restoreRecipe t' (snapshotOf t c) booked))) =
        { booksOf booked with
          recipe := takenRecipe t c t' booked.recipe
          reigniteRetriesLeft := c.safety.reigniteRetriesLeft } := by
    rw [booksOf_restoreFeed, booksOf_restoreSafety, booksOf_restoreRecipe]
  have sensors := congrArg Books.sensors placed
  have notify := congrArg Books.notify placed
  rw [booksOf_restoreNotify, placed, ← entered]
  exact congrArg₂ (fun sensors notify =>
    { booksOf booked with
      recipe := takenRecipe t c t' booked.recipe
      reigniteRetriesLeft := c.safety.reigniteRetriesLeft
      notify := takenNotify t c t' sensors notify }) sensors notify

end Resume

section Taken

variable (t : Tick) (c : Control) (t' : Tick)

theorem takenRecipe_iff {run : RecipeRun} (inactive : run.active = false) :
    ((takenRecipe t c t' run).active = c.recipe.active ∧
      (c.recipe.active → SamePlace t.now c.recipe t'.now (takenRecipe t c t' run))) ↔
    (c.recipe.active →
      let load := recipeLoad t'.services.recipes (settingsUnits t'.settings) c.recipe.r.id
      0 < c.recipe.r.id ∧ load.2 ∧ c.recipe.step < load.1.nsteps) := by
  cases active : c.recipe.active with
  | false => simp [takenRecipe, active, inactive]
  | true =>
      simp only [takenRecipe, active, true_and, forall_const]
      by_cases named : 0 < c.recipe.r.id
      · simp only [named, true_and, if_true]
        by_cases loaded :
          (recipeLoad t'.services.recipes (settingsUnits t'.settings) c.recipe.r.id).2 = true ∧
            c.recipe.step <
              (recipeLoad t'.services.recipes (settingsUnits t'.settings) c.recipe.r.id).1.nsteps
        · rw [if_pos loaded]
          refine iff_of_true ⟨rfl, ?_⟩ loaded
          exact samePlace_restoreRun t.now c.recipe t' (recipeLoad_id loaded.1)
        · rw [if_neg loaded]
          refine iff_of_false ?_ loaded
          rintro ⟨taken, -⟩
          exact absurd (inactive.symm.trans taken) (by decide)
      · simp only [named, false_and, iff_false, not_and, if_false]
        intro taken
        exact absurd (inactive.symm.trans taken) (by decide)

theorem foldl_restoreProbe_timer (estimates : RestEstimates) (saved : List NotifyProbe)
    (n : Notify) :
    ((saved.map probeJson).foldl (restoreProbe estimates) n).timer = n.timer := by
  induction saved generalizing n with
  | nil => rfl
  | cons q rest ih =>
      rw [List.map_cons, List.foldl_cons, ih, restoreProbe_probeJson]

theorem takenNotify_timer_iff (sensors : Sensors) {n : Notify} (stopped : n.timer.running = false) :
    (((takenNotify t c t' sensors n).timer.running = c.notify.timer.running) ∧
      (c.notify.timer.running →
        (takenNotify t c t' sensors n).timer.paused = c.notify.timer.paused ∧
          (takenNotify t c t' sensors n).timer.left t'.now = c.notify.timer.left t.now)) ↔
    (c.notify.timer.running → 0 < c.notify.timer.left t.now) := by
  have kept := foldl_restoreProbe_timer t'.services.estimates
    (c.notify.probes.filter NotifyProbe.saved) (notifySync sensors n)
  simp only [takenNotify, kept]
  cases running : c.notify.timer.running with
  | false => simp [restoreTimer, notifySync, stopped]
  | true =>
      simp only [if_true, forall_const]
      rcases restoreTimer_timerJson t.now t'.now c.notify.timer (notifySync sensors n).timer with ⟨runs, paused, left, positive⟩ | ⟨same, isOver⟩
      · exact iff_of_true ⟨runs, paused, left⟩ positive
      · rw [same]
        refine iff_of_false ?_ isOver
        rintro ⟨runs, -⟩
        exact absurd (stopped.symm.trans runs) (by decide)

theorem asking_ne_of_asked {p q : NotifyProbe} (asked : p.asked = true)
    (unasked : q.asked = false) : q.asking ≠ p.asking := by
  intro same
  have aim := congrArg Asking.aim same
  have high := congrArg Asking.limitHighC same
  have low := congrArg Asking.limitLowC same
  simp only [NotifyProbe.asked, Bool.or_eq_true, Bool.or_eq_false_iff, decide_eq_true_eq,
    decide_eq_false_iff_not] at asked unasked
  obtain ⟨⟨⟨rest, target⟩, noHigh⟩, noLow⟩ := unasked
  simp only [NotifyProbe.asking, rest, target, noHigh, noLow, if_false] at aim high low
  rcases asked with ((rested | targeted) | limited) | limited
  · simp [rested] at aim
  · by_cases rested : p.restC > 0
    · simp [rested] at aim
    · simp [rested, targeted] at aim
  · rw [if_pos limited] at high
    exact absurd high limited.ne
  · rw [if_pos limited] at low
    exact absurd low limited.ne

theorem notifySync_find {sensors : Sensors} {n : Notify}
    (unasked : ∀ p ∈ n.probes, p.asked = false) (label : String) :
    (label ∈ (sensors.readings.take maxProbes).map Reading.label →
      ∃ p, notifyFind (notifySync sensors n) label = some p) ∧
    (∀ p, notifyFind (notifySync sensors n) label = some p →
      label ∈ (sensors.readings.take maxProbes).map Reading.label ∧ p.asked = false) := by
  have entry (label : String) :
      ((notifyFind n label).getD (.fresh label)).label = label ∧
        ((notifyFind n label).getD (.fresh label)).asked = false := by
    cases found : notifyFind n label with
    | none => exact ⟨rfl, by simp [NotifyProbe.asked, NotifyProbe.fresh]⟩
    | some p =>
        have labelled := List.find?_some found
        exact ⟨by simpa using labelled, unasked p (List.mem_of_find?_eq_some found)⟩
  constructor
  · intro inside
    obtain ⟨reading, listed, rfl⟩ := List.mem_map.mp inside
    apply Option.isSome_iff_exists.mp
    rw [notifyFind, List.find?_isSome]
    refine ⟨_, List.mem_map_of_mem listed, ?_⟩
    simpa using (entry reading.label).1
  · intro p found
    have labelled := List.find?_some found
    obtain ⟨reading, listed, rfl⟩ := List.mem_map.mp (List.mem_of_find?_eq_some found)
    have same : reading.label = label := by
      rw [← (entry reading.label).1]
      simpa using labelled
    exact ⟨List.mem_map.mpr ⟨reading, listed, same⟩, (entry reading.label).2⟩

theorem takenNotify_targets_iff (sensors : Sensors) {n : Notify}
    (unasked : ∀ p ∈ n.probes, p.asked = false) {p : NotifyProbe} (asked : p.asked = true) :
    (notifyFind (takenNotify t c t' sensors n) p.label).map NotifyProbe.asking = some p.asking ↔
      p.label ∈ (sensors.readings.take maxProbes).map Reading.label ∧
        (lastSaved c.notify.probes p.label).map NotifyProbe.asking = some p.asking := by
  have restored : (notifyFind (takenNotify t c t' sensors n) p.label).map NotifyProbe.asking =
      (notifyFind (notifySync sensors n) p.label).map fun q =>
        ((lastSaved c.notify.probes p.label).getD q).asking :=
    foldl_restoreProbe t'.services.estimates _ (notifySync sensors n) p.label
  obtain ⟨known, found⟩ := notifySync_find unasked p.label
  rw [restored]
  cases find : notifyFind (notifySync sensors n) p.label with
  | none =>
      refine iff_of_false (by simp) ?_
      rintro ⟨inside, -⟩
      obtain ⟨q, isSome⟩ := known inside
      rw [find] at isSome
      cases isSome
  | some q =>
      obtain ⟨inside, plain⟩ := found q find
      cases lastSaved c.notify.probes p.label with
      | some last =>
          simp only [inside, true_and]
          rfl
      | none => simpa using asking_ne_of_asked asked plain

end Taken

/-! ## The round trip -/

theorem handoverMode_iff {c r : Control} (mode : r.mode = c.mode) (next : r.nextMode = c.nextMode)
    (forgot : r.safety.reigniteLast = .stop) :
    (c.mode.isLighting → handoverMode r = handoverMode c) ↔
      (c.mode = .reignite → c.safety.reigniteLast ≠ .hold) := by
  by_cases relit : c.mode = .reignite
  · simp only [handoverMode, mode, relit, forgot, if_true, forall_const, Mode.isLighting]
    cases c.safety.reigniteLast <;> simp [Mode.isRunning]
  · simp [handoverMode, mode, relit, next]

theorem Books.enter_firing (t : Tick) {m : Mode} (firing : m.isFiring) (cfg : Cfg) (b : Books) :
    (b.enter t m cfg).nextMode = b.nextMode ∧ (b.enter t m cfg).modeStart = t.now ∧
      (b.enter t m cfg).recoveries = b.recoveries ∧
      (b.enter t m cfg).cookStartWall = (if m = .startup then t.wall else b.cookStartWall) ∧
      (b.enter t m cfg).reigniteLast = (if m = .startup then .stop else b.reigniteLast) ∧
      (b.enter t m cfg).recipe = b.recipe ∧ (b.enter t m cfg).notify = b.notify ∧
      (b.enter t m cfg).sensors = b.sensors := by
  cases m with
  | startup | reignite | smoke | hold => exact ⟨rfl, rfl, rfl, rfl, rfl, rfl, rfl, rfl⟩
  | _ => simp [Mode.isFiring] at firing

/-- A warm restart within the accepted window, from a state in which no cook has
begun, takes up the same cook exactly when it is restorable. -/
theorem warm_restart_round_trip {t : Tick} {c : Control} (cooking : c.mode.isFiring) {o : Json}
    (written : resumeJson t c = some o) {t' : Tick} {c' : Control} (fresh : Fresh c')
    (young : 0 ≤ snapshotAge t' o) (inTime : snapshotAge t' o ≤ resumeMaxAgeS) :
    SameCook t c t' (controlResume t' o c').1 ↔ Restorable t c t' c' := by
  obtain rfl := resumeJson_eq_some t c written
  have accepted : resumedMode t' (snapshotOf t c) c' = some c.mode := by
    have named : snapshotMode (snapshotOf t c) = some c.mode := modeFromName_name c.mode
    rw [resumedMode, named, Option.filter_some]
    simp [resumable, cooking, young, inTime, fresh.mode]
  have books := booksOf_controlResume t c t' accepted
  have relay := relayOf_controlResume t' (snapshotOf t c) c'
  rw [accepted] at relay
  generalize (controlResume t' (snapshotOf t c) c').1 = r at books relay ⊢
  have mode : r.mode = c.mode := congrArg Relay.mode relay
  have aim : r.setpointC = if c.setpointC > 0 then c.setpointC else c'.setpointC :=
    congrArg Relay.setpointC relay
  obtain ⟨next, begun, recoveries, started, last, recipe, notify, sensors⟩ :=
    Books.enter_firing t' cooking c'.cfg { booksOf c' with nextMode := c.nextMode }
  simp only [begun, recoveries, started, last, recipe, notify, sensors, next] at books
  have nextMode : r.nextMode = c.nextMode := congrArg Books.nextMode books
  have forgot : r.safety.reigniteLast = .stop := by
    have last : r.safety.reigniteLast = if c.mode = .startup then .stop else c'.safety.reigniteLast :=
      congrArg Books.reigniteLast books
    rw [last, fresh.reigniteLast, ite_self]
  have counted : r.recoveries = 0 := (congrArg Books.recoveries books).trans fresh.recoveries
  have place : r.recipe = takenRecipe t c t' c'.recipe := congrArg Books.recipe books
  have asks : r.notify = takenNotify t c t' c'.sensors c'.notify := congrArg Books.notify books
  have clock : r.modeStart = if t.now - c.modeStart > 0 then t'.now - (t.now - c.modeStart)
      else t'.now :=
    congrArg Books.modeStart books
  have cookStart : r.cookStartWall = if c.cookStartWall > 0 then c.cookStartWall
      else if c.mode = .startup then t'.wall else c'.cookStartWall :=
    congrArg Books.cookStartWall books
  have handover := handoverMode_iff mode nextMode forgot
  have aimed : r.setpointC = c.setpointC ↔ 0 < c.setpointC ∨ c'.setpointC = c.setpointC := by
    rw [aim]
    split
    next positive => exact iff_of_true rfl (Or.inl positive)
    next not => exact (or_iff_right not).symm
  have elapsed : t'.now - r.modeStart = t.now - c.modeStart ↔ c.modeStart ≤ t.now := by
    rw [clock]
    split
    next later => exact iff_of_true (by ring) (by linarith)
    next not =>
      constructor
      · intro same
        linarith
      · intro begun
        linarith
  have wall : r.cookStartWall = c.cookStartWall ↔ 0 < c.cookStartWall ∨
      (if c.mode = .startup then t'.wall else c'.cookStartWall) = c.cookStartWall := by
    rw [cookStart]
    split
    next positive => exact iff_of_true rfl (Or.inl positive)
    next not => exact (or_iff_right not).symm
  have placed := takenRecipe_iff t c t' fresh.inactive
  have timed := takenNotify_timer_iff t c t' c'.sensors fresh.stopped
  rw [← place] at placed
  rw [← asks] at timed
  have targeted (p : NotifyProbe) (asked : p.asked) :=
    takenNotify_targets_iff t c t' c'.sensors fresh.unasked asked
  simp only [← asks] at targeted
  constructor
  · intro same
    exact
      { handover := handover.mp same.handover
        setpointC := aimed.mp same.setpointC
        recoveries := same.recoveries.symm.trans counted
        begun := elapsed.mp same.modeElapsed
        cookStart := wall.mp same.cookStart
        recipe := placed.mp ⟨same.active, same.place⟩
        timer := timed.mp ⟨same.running, same.timer⟩
        targets := fun p inside asked => (targeted p asked).mp (same.targets p inside asked) }
  · intro restorable
    obtain ⟨active, there⟩ := placed.mpr restorable.recipe
    obtain ⟨running, left⟩ := timed.mpr restorable.timer
    exact
      { mode := mode
        nextMode := nextMode
        handover := handover.mpr restorable.handover
        setpointC := aimed.mpr restorable.setpointC
        retries := congrArg Books.reigniteRetriesLeft books
        recoveries := counted.trans restorable.recoveries.symm
        modeElapsed := elapsed.mpr restorable.begun
        cookStart := wall.mpr restorable.cookStart
        augerTotal := congrArg Books.augerTotalOnS books
        maxPit := congrArg Books.cookMaxPitC books
        active := active
        place := there
        running := running
        timer := left
        targets := fun p inside asked => (targeted p asked).mpr (restorable.targets p inside asked) }

/-! ## A cook that is lost -/

/-- The bench in a Hold whose light was ended by hand. -/
def benchHold : Control :=
  Transition.run controlStep
    [benchTick [] 1 (some 20) [.mode .hold 225 false],
      benchTick [] 2 (some 100) [.mode .hold 225 true]] benchInit

/-- A start on the bench with its clock synchronised. -/
def benchBoot (now : ℚ) : Boot :=
  { tick := benchTick [] now (some 100) [], tunerInterrupted := false, synced := true }

/-- The bench lit again for the Hold after a power cut. -/
def benchRelit : Control :=
  (controlRecover (benchBoot 20) (snapshotOf (benchTick [] 10 (some 100) []) benchHold)
    benchInit).1

theorem reachable_benchRelit : Reachable 20 benchRelit :=
  reachable_benchInit.move (.recover (benchBoot 20) _) (by decide) (by decide)

/-- A Hold is taken up again as it was. -/
theorem warm_restart_round_trip_on_bench :
    SameCook (benchTick [] 10 (some 100) []) benchHold (benchTick [] 20 (some 100) [])
      (controlResume (benchTick [] 20 (some 100) [])
        (snapshotOf (benchTick [] 10 (some 100) []) benchHold) benchInit).1 := by
  have written : resumeJson (benchTick [] 10 (some 100) []) benchHold =
      some (snapshotOf (benchTick [] 10 (some 100) []) benchHold) :=
    if_pos (by decide +kernel)
  apply (warm_restart_round_trip (by decide +kernel) written (fresh_controlInit (.obj []) some)
    (by decide +kernel) (by decide +kernel)).mpr
  exact
    { handover := by decide +kernel
      setpointC := by decide +kernel
      recoveries := by decide +kernel
      begun := by decide +kernel
      cookStart := by decide +kernel
      recipe := by
        intro active
        exact absurd active (by decide +kernel)
      timer := by decide +kernel
      targets := by
        have unasked : ∀ p ∈ benchHold.notify.probes, p.asked = false := by decide +kernel
        intro p inside asked
        exact absurd ((unasked p inside).symm.trans asked) (by decide) }

/-- A warm restart after a recovery forgets that there has been one, and that a
Hold is being lit for. -/
theorem warm_restart_forgets_recovery :
    ¬∀ (time : ℚ) (c : Control), Reachable time c → c.mode.isFiring → ∀ (t : Tick) (o : Json),
      time ≤ t.now → resumeJson t c = some o → ∀ (t' : Tick) (c' : Control), Fresh c' →
        0 ≤ snapshotAge t' o → snapshotAge t' o ≤ resumeMaxAgeS →
          SameCook t c t' (controlResume t' o c').1 := by
  intro always
  have written : resumeJson (benchTick [] 30 (some 100) []) benchRelit =
      some (snapshotOf (benchTick [] 30 (some 100) []) benchRelit) :=
    if_pos (by decide +kernel)
  have same := always 20 benchRelit reachable_benchRelit (by decide +kernel)
    (benchTick [] 30 (some 100) []) _ (by decide) written
    (benchTick [] 40 (some 100) []) benchInit (fresh_controlInit (.obj []) some)
    (by decide +kernel) (by decide +kernel)
  exact absurd same.recoveries (by decide +kernel)

end PiFire
