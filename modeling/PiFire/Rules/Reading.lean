import PiFire.Rules.Units

/-!
# Reading the status in the other unit

A trait reads in the other unit as the same temperature or difference, as long
as the sign it is read by is not lost on the way: zero of one unit is no zero of
the other. The instances a rule watches are the same ones.
-/

namespace PiFire.Rules

variable {u : Units} {status : Json} {i : Inst}

/-! ## Members of the status -/

theorem member?_expressedProbe {name : String} (probe : Json)
    (aside : name ∉ ["temp", "ambient"]) (unset : name ∉ ["target", "limit_high", "limit_low"]) :
    (expressedProbe u probe).member? name = probe.member? name := by
  rw [expressedProbe, Json.member?_mapMembers, if_neg aside, if_neg unset, Option.map_id, id]

theorem jget_expressedProbe_temp (probe : Json) {name : String}
    (temp : name ∈ ["temp", "ambient"]) :
    jget (some (expressedProbe u probe)) name =
      (jget (some probe) name).map (.onNumber (conv u false)) := by
  rw [jget, jget, Option.bind_some, Option.bind_some, expressedProbe, Json.member?_mapMembers,
    if_pos temp]

theorem jget_expressedProbe_set (probe : Json) {name : String}
    (set : name ∈ ["target", "limit_high", "limit_low"]) :
    jget (some (expressedProbe u probe)) name =
      (jget (some probe) name).map (.onNumber (convertSet u)) := by
  have apart : name ∉ ["temp", "ambient"] := by
    rintro temp
    simp only [List.mem_cons, List.not_mem_nil, or_false] at set temp
    rcases temp with rfl | rfl
    · exact absurd set (by decide)
    · exact absurd set (by decide)
  rw [jget, jget, Option.bind_some, Option.bind_some, expressedProbe, Json.member?_mapMembers,
    if_neg apart, if_pos set]

theorem jget_expressedProbe {name : String} (probe : Json)
    (aside : name ∉ ["temp", "ambient"]) (unset : name ∉ ["target", "limit_high", "limit_low"]) :
    jget (some (expressedProbe u probe)) name = jget (some probe) name :=
  member?_expressedProbe probe aside unset

theorem jsonStr_expressedProbe {name : String} (probe : Json) (dflt : String)
    (named : name.toList.all Char.isDigit = false) (aside : name ∉ ["temp", "ambient"])
    (unset : name ∉ ["target", "limit_high", "limit_low"]) :
    jsonStr (expressedProbe u probe) [name] dflt = jsonStr probe [name] dflt := by
  simp only [jsonStr, jsonPath, Json.enter?_name named, member?_expressedProbe probe aside unset]

theorem member?_expressed {name : String} (status : Json)
    (aside : name ∉ ["setpoint", "probes", "weather", "controller", "step"]) :
    (expressed u status).member? name = status.member? name := by
  simp only [List.mem_cons, List.not_mem_nil, or_false, not_or] at aside
  obtain ⟨setpoint, probes, weather, controller, step⟩ := aside
  rw [expressed, Json.member?_mapMembers]
  simp [expressedMember, setpoint, probes, weather, controller, step]

theorem jsonPath_expressed {name : String} {rest : List String} (status : Json)
    (named : name.toList.all Char.isDigit = false)
    (aside : name ∉ ["setpoint", "probes", "weather", "controller", "step"]) :
    jsonPath (expressed u status) (name :: rest) = jsonPath status (name :: rest) := by
  rw [jsonPath, jsonPath, Json.enter?_name named, Json.enter?_name named,
    member?_expressed status aside]

theorem jsonPath_expressed_setpoint (status : Json) :
    jsonPath (expressed u status) ["setpoint"] =
      (jsonPath status ["setpoint"]).map (.onNumber (conv u false)) := by
  have named : "setpoint".toList.all Char.isDigit = false := by decide
  simp only [jsonPath, Json.enter?_name named, expressed, Json.member?_mapMembers,
    expressedMember, if_true]
  cases status.member? "setpoint" <;> rfl

theorem jsonPath_part {part name : String} {root moved : Json} {g : String → Json → Json}
    (outer : part.toList.all Char.isDigit = false) (inner : name.toList.all Char.isDigit = false)
    (found : moved.member? part = (root.member? part).map (.mapMembers g)) :
    jsonPath moved [part, name] = (jsonPath root [part, name]).map (g name) := by
  simp only [jsonPath, Json.enter?_name outer, found]
  cases root.member? part with
  | none => rfl
  | some child =>
      simp only [Option.map_some, Option.bind_some, Json.enter?_name inner,
        Json.member?_mapMembers]
      cases child.member? name <;> rfl

/-! ## Traits -/

theorem ofScalar_onScale (scale : Option Bool) (o : Option Json) :
    Val.ofScalar (o.map (.onNumber (onScale u scale))) = (Val.ofScalar o).onScale u scale := by
  cases o with
  | none => rfl
  | some v => cases v <;> rfl

theorem ofNumber_onScale (scale : Option Bool) (o : Option Json) :
    Val.ofNumber (o.map (.onNumber (onScale u scale))) = (Val.ofNumber o).onScale u scale := by
  cases o with
  | none => rfl
  | some v => cases v <;> rfl

@[simp] theorem onScale_none (v : Val) : v.onScale u none = v := by
  cases v <;> rfl

/-- The sign a probe's target is read by is the same in both units. -/
def targetKept (u : Units) (probe : Json) : Bool :=
  match jget (some probe) "target" with
  | some (.num t) => !decide (0 < t) || decide (0 < conv u false t)
  | _ => true

/-- A limit of the probe is set. -/
def limitKept (probe : Json) (limit : String) : Bool :=
  match jget (some probe) limit with
  | some (.num t) => decide (0 < t)
  | _ => true

/-- The sign the set point is read by is the same in both units. -/
def setpointKept (u : Units) (status : Json) : Bool :=
  match jsonPath status ["setpoint"] with
  | some (.num s) => decide (0 < s) == decide (0 < conv u false s)
  | some _ => decide (jsonNum status ["setpoint"] 0 ≤ 0)
  | none => true

/-- The domain a condition about an entity reads. -/
def domainOf (i : Inst) (entity : String) : String :=
  if entity ≠ "" ∧ entity ≠ "this" then entity else i.domain

/-- The probe a condition about an entity reads, if it reads one. -/
def probeOf (i : Inst) (entity : String) : Option Json :=
  if domainOf i entity = "probe" then
    if entity ≠ "" ∧ entity ≠ "this" then none else i.obj
  else none

/-- Whether the signs a trait is read by are the same in both units. -/
def steady (u : Units) (status : Json) (i : Inst) (entity trait : String) : Bool :=
  match probeOf i entity with
  | some probe =>
      if trait ∈ ["target", "over"] then targetKept u probe
      else if trait ∈ ["limit_high", "limit_low"] then limitKept probe trait
      else true
  | none =>
      if domainOf i entity = "grill" ∧ trait = "over" then
        jsonBool status ["autotune", "active"] false || setpointKept u status
      else true

theorem scaleOf_eq_none {domain trait : String}
    (absent : ∀ row ∈ publishedTraits, ¬(row.1 = domain ∧ row.2.1 = trait)) :
    scaleOf domain trait = none := by
  rw [scaleOf, traitRow, List.find?_eq_none.mpr, Option.map_none]
  rintro row inside
  simpa using absent row inside

theorem conv_sub (x y : ℚ) : conv u false x - conv u false y = conv u true (x - y) := by
  cases u <;> simp only [conv, if_true, Bool.false_eq_true, if_false] <;> ring

theorem ofTarget_expressed {probe : Json} (kept : targetKept u probe = true) :
    Val.ofNumberWhere (0 < ·) (jget (some (expressedProbe u probe)) "target") =
      (Val.ofNumberWhere (0 < ·) (jget (some probe) "target")).onScale u (some false) := by
  rw [jget_expressedProbe_set probe (by decide)]
  rw [targetKept] at kept
  cases found : jget (some probe) "target" with
  | none => rfl
  | some v =>
      cases v with
      | num t =>
          rw [found] at kept
          by_cases positive : 0 < t
          · have still : 0 < conv u false t := by simpa [positive] using kept
            simp [Json.onNumber, Val.ofNumberWhere, convertSet, positive, still, Val.onScale,
              onScale]
          · simp [Json.onNumber, Val.ofNumberWhere, convertSet, positive, Val.onScale]
      | _ => rfl

theorem probeOver_expressed {probe : Json} (kept : targetKept u probe = true) :
    probeTrait (expressedProbe u probe) "over" =
      (probeTrait probe "over").onScale u (some true) := by
  have isTemp : "temp" ∈ ["temp", "ambient"] := by decide
  have isSet : "target" ∈ ["target", "limit_high", "limit_low"] := by decide
  rw [targetKept] at kept
  simp only [probeTrait, reduceIte, String.reduceEq, List.mem_cons, List.not_mem_nil, or_self,
    jget_expressedProbe_temp probe isTemp, jget_expressedProbe_set probe isSet]
  cases temp : jget (some probe) "temp" with
  | none => rfl
  | some v =>
      cases v with
      | num x =>
          cases target : jget (some probe) "target" with
          | none => rfl
          | some w =>
              cases w with
              | num t =>
                  rw [target] at kept
                  by_cases positive : 0 < t
                  · have still : 0 < conv u false t := by simpa [positive] using kept
                    simp [Json.onNumber, convertSet, positive, not_le.mpr positive,
                      not_le.mpr still, Val.onScale, onScale, conv_sub]
                  · have none : t ≤ 0 := not_lt.mp positive
                    simp [Json.onNumber, convertSet, positive, none, Val.onScale]
              | _ => rfl
      | _ => rfl

theorem probeNumber_expressed {probe : Json} {trait : String}
    (number : trait ∈ ["temp", "battery", "signal", "rssi", "limit_high", "limit_low", "ambient"])
    (limit : trait ∈ ["limit_high", "limit_low"] → limitKept probe trait = true) :
    Val.ofNumber (jget (some (expressedProbe u probe)) trait) =
      (Val.ofNumber (jget (some probe) trait)).onScale u (scaleOf "probe" trait) := by
  by_cases temp : trait ∈ ["temp", "ambient"]
  · have row : scaleOf "probe" trait = some false :=
      (by decide : ∀ name ∈ ["temp", "ambient"], scaleOf "probe" name = some false) trait temp
    rw [jget_expressedProbe_temp probe temp, row]
    exact ofNumber_onScale (some false) _
  by_cases bound : trait ∈ ["limit_high", "limit_low"]
  · have row : scaleOf "probe" trait = some false :=
      (by decide : ∀ name ∈ ["limit_high", "limit_low"], scaleOf "probe" name = some false) trait
        bound
    have set := limit bound
    rw [jget_expressedProbe_set probe (List.mem_cons_of_mem _ bound), row]
    rw [limitKept] at set
    cases found : jget (some probe) trait with
    | none => rfl
    | some v =>
        cases v with
        | num t =>
            rw [found] at set
            have positive : 0 < t := by simpa using set
            simp [Json.onNumber, Val.ofNumber, convertSet, positive, Val.onScale, onScale]
        | _ => rfl
  · have other : ∀ name ∈
        ["temp", "battery", "signal", "rssi", "limit_high", "limit_low", "ambient"],
        name ∉ ["temp", "ambient"] → name ∉ ["limit_high", "limit_low"] →
          scaleOf "probe" name = none ∧ name ∉ ["target", "limit_high", "limit_low"] := by
      decide
    obtain ⟨row, unset⟩ := other trait number temp bound
    rw [jget_expressedProbe probe temp unset, row, onScale_none]

theorem probeTrait_expressed (probe : Json) {trait : String}
    (target : trait ∈ ["target", "over"] → targetKept u probe = true)
    (limit : trait ∈ ["limit_high", "limit_low"] → limitKept probe trait = true) :
    probeTrait (expressedProbe u probe) trait =
      (probeTrait probe trait).onScale u (scaleOf "probe" trait) := by
  by_cases isOver : trait = "over"
  · subst isOver
    exact probeOver_expressed (target (by decide))
  have flag : ∀ name, name ∉ ["temp", "ambient"] → name ∉ ["target", "limit_high", "limit_low"] →
      jget (some (expressedProbe u probe)) name = jget (some probe) name :=
    fun name aside unset => jget_expressedProbe probe aside unset
  simp only [probeTrait]
  split_ifs with isTarget nextStep etaStep eta number isValid wireless text
  · subst isTarget
    exact ofTarget_expressed (target (by decide))
  · subst nextStep
    rw [flag "next_step" (by decide) (by decide)]
    exact (onScale_none _).symm
  · subst etaStep
    rw [flag "eta_step_s" (by decide) (by decide)]
    exact (onScale_none _).symm
  · subst eta
    rw [flag "eta_s" (by decide) (by decide)]
    exact (onScale_none _).symm
  · exact probeNumber_expressed number limit
  · rw [flag "valid" (by decide) (by decide)]
    rfl
  · have other : ∀ name ∈ ["wireless", "in_use", "enabled"],
        name ∉ ["temp", "ambient"] ∧ name ∉ ["target", "limit_high", "limit_low"] := by
      decide
    obtain ⟨aside, unset⟩ := other trait wireless
    rw [flag trait aside unset]
    rfl
  · have other : ∀ name ∈ ["name", "role"], name.toList.all Char.isDigit = false ∧
        name ∉ ["temp", "ambient"] ∧ name ∉ ["target", "limit_high", "limit_low"] := by
      decide
    obtain ⟨named, aside, unset⟩ := other trait text
    simp only [strAt, Option.map_some, jsonStr_expressedProbe probe "" named aside unset]
    rfl
  · rfl

/-! ## The pit -/

theorem find?_primary (probes : List Json) :
    (probes.map (expressedProbe u)).find? (fun p => jsonStr p ["role"] "" == "Primary") =
      (probes.find? fun p => jsonStr p ["role"] "" == "Primary").map (expressedProbe u) := by
  rw [List.find?_map]
  congr 1
  refine congrArg (List.find? · probes) (funext fun p => ?_)
  rw [Function.comp_apply,
    jsonStr_expressedProbe p "" (by decide) (by decide) (by decide)]

theorem elements_probes (status : Json) :
    elements (jget (some (expressed u status)) "probes") =
      (elements (jget (some status) "probes")).map (expressedProbe u) := by
  rw [jget, jget, Option.bind_some, Option.bind_some, expressed, Json.member?_mapMembers]
  cases status.member? "probes" with
  | none => rfl
  | some probes => exact Json.children_mapChildren (expressedProbe u) probes

theorem setpoint_cases (kept : setpointKept u status = true) :
    (jsonNum status ["setpoint"] 0 ≤ 0 ∧ jsonNum (expressed u status) ["setpoint"] 0 ≤ 0) ∨
      (0 < jsonNum status ["setpoint"] 0 ∧ 0 < jsonNum (expressed u status) ["setpoint"] 0 ∧
        jsonNum (expressed u status) ["setpoint"] 0 =
          conv u false (jsonNum status ["setpoint"] 0)) := by
  have moved := jsonPath_expressed_setpoint (u := u) status
  cases found : jsonPath status ["setpoint"] with
  | none => simp [jsonNum, jsonNum?, moved, found]
  | some v =>
      rw [found] at moved
      cases v with
      | num s =>
          have sign : (0 < s) = (0 < conv u false s) := by simpa [setpointKept, found] using kept
          simp only [jsonNum, jsonNum?, moved, found, Option.map_some, Json.onNumber,
            Option.getD_some]
          by_cases positive : 0 < s
          · exact Or.inr ⟨positive, sign ▸ positive, trivial⟩
          · exact Or.inl ⟨not_lt.mp positive, not_lt.mp (sign ▸ positive)⟩
      | _ =>
          have unset : jsonNum status ["setpoint"] 0 ≤ 0 := by
            simpa [setpointKept, found] using kept
          refine Or.inl ⟨unset, ?_⟩
          simpa only [jsonNum, jsonNum?, moved, found, Option.map_some, Json.onNumber] using unset

theorem pitTrait_over (status : Json) :
    pitTrait status true =
      if jsonNum status ["setpoint"] 0 ≤ 0 ∨
          jsonBool status ["autotune", "active"] false = true then
        .none
      else
        match pitTrait status false with
        | .num t => .num (t - jsonNum status ["setpoint"] 0)
        | v => v := by
  simp only [pitTrait, Bool.true_and, Bool.false_and, Bool.or_eq_true, decide_eq_true_eq, if_true,
    Bool.false_eq_true, if_false]
  split_ifs with silent
  · rfl
  · cases (elements (jget (some status) "probes")).find?
        fun p => jsonStr p ["role"] "" == "Primary" with
    | none => rfl
    | some p =>
        cases found : jget (some p) "temp" with
        | none => simp only [found]
        | some v => cases v <;> simp only [found]

theorem pitTemp_expressed (status : Json) :
    pitTrait (expressed u status) false = (pitTrait status false).onScale u (some false) := by
  have primary := find?_primary (u := u) (elements (jget (some status) "probes"))
  rw [← elements_probes] at primary
  simp only [pitTrait, Bool.false_and, Bool.false_eq_true, if_false, primary]
  cases (elements (jget (some status) "probes")).find?
      fun p => jsonStr p ["role"] "" == "Primary" with
  | none => rfl
  | some p =>
      have isTemp : "temp" ∈ ["temp", "ambient"] := by decide
      simp only [Option.map_some, jget_expressedProbe_temp p isTemp]
      cases jget (some p) "temp" with
      | none => rfl
      | some v => cases v <;> rfl

theorem pitOver_expressed
    (kept : (jsonBool status ["autotune", "active"] false || setpointKept u status) = true) :
    pitTrait (expressed u status) true = (pitTrait status true).onScale u (some true) := by
  have active : jsonBool (expressed u status) ["autotune", "active"] false =
      jsonBool status ["autotune", "active"] false := by
    rw [jsonBool, jsonBool, jsonPath_expressed status (by decide) (by decide)]
  rw [pitTrait_over, pitTrait_over, active, pitTemp_expressed]
  by_cases tuning : jsonBool status ["autotune", "active"] false = true
  · simp [tuning, Val.onScale]
  rw [Bool.not_eq_true] at tuning
  rw [tuning, Bool.false_or] at kept
  rcases setpoint_cases kept with ⟨unset, still⟩ | ⟨positive, still, same⟩
  · simp [unset, still, Val.onScale]
  · rw [same] at still ⊢
    simp only [tuning, Bool.false_eq_true, or_false, not_le.mpr positive, not_le.mpr still,
      if_false]
    cases pitTrait status false with
    | num t => simp [Val.onScale, onScale, conv_sub]
    | _ => rfl

/-! ## Any trait -/

/-- A trait that no probe is read for. -/
def fixedTrait (status : Json) (label domain trait : String) : Val :=
  if domain = "output" then
    if trait = "state" then .bool (jsonBool status (tokens ("outputs." ++ short 24 label)) false)
    else if trait = "percent" then .num (jsonNum status ["outputs", "fan_pct"] 0)
    else .none
  else if domain = "grill" ∧ (trait = "temp" ∨ trait = "over") then
    pitTrait status (trait == "over")
  else
    match traitPaths.find? fun row => row.1 == domain && row.2.1 == trait with
    | some row => .ofScalar (jsonPath status row.2.2)
    | none => .none

theorem traitOf_eq (status : Json) (i : Inst) (entity trait : String) :
    traitOf status i entity trait =
      match probeOf i entity with
      | some probe => probeTrait probe trait
      | none => fixedTrait status i.label (domainOf i entity) trait := rfl

theorem tokens_outputs (label : String) :
    tokens ("outputs." ++ label) = "outputs" :: tokens label := by
  have pieces : ("outputs." ++ label).toList.splitOn '.' =
      "outputs".toList :: label.toList.splitOn '.' := by
    rw [String.toList_append, show "outputs.".toList = "outputs".toList ++ ['.'] by decide,
      List.append_assoc, List.singleton_append]
    refine List.splitOnP_append_cons_of_forall_mem ?_ '.' (by decide) _
    intro c member
    have solid : "outputs".toList.all (fun c => !(c == '.')) = true := by decide
    simpa using List.all_eq_true.mp solid c member
  rw [tokens, tokens, pieces, List.filter_cons_of_pos (by decide), List.map_cons,
    String.ofList_toList]

/-- The rows that hold no temperature, and are in no part that has one. -/
def asideRow (row : String × String × List String) : Bool :=
  match row.2.2 with
  | name :: _ =>
      !name.toList.all Char.isDigit &&
        !decide (name ∈ ["setpoint", "probes", "weather", "controller", "step"]) &&
        scaleOf row.1 row.2.1 == none
  | [] => false

/-- The rows that hold a temperature, or are in a part that has one. -/
def nearRows : List (String × String × List String) :=
  [("grill", "setpoint", ["setpoint"]), ("controller", "error", ["controller", "error"]),
    ("weather", "temp", ["weather", "temp"]), ("weather", "wind", ["weather", "wind_kmh"]),
    ("weather", "humidity", ["weather", "humidity"]), ("step", "elapsed", ["step", "elapsed"]),
    ("step", "food_max", ["step", "food_max"]), ("step", "food_min", ["step", "food_min"]),
    ("step", "food_rested", ["step", "food_rested"]), ("step", "food_avg", ["step", "food_avg"]),
    ("step", "food_battery", ["step", "food_battery"]), ("step", "food_eta", ["step", "food_eta"]),
    ("step", "prompt", ["step", "prompt"]), ("step", "lid", ["step", "lid"])]

theorem row_cases : ∀ row ∈ traitPaths, asideRow row = true ∨ row ∈ nearRows := by decide

theorem ofScalar_moved {o : Option Json} {scale : Option Bool} {move : Json → Json}
    (moved : move = .onNumber (onScale u scale) ∨ scale = none ∧ move = id) :
    Val.ofScalar (o.map move) = (Val.ofScalar o).onScale u scale := by
  rcases moved with rfl | ⟨rfl, rfl⟩
  · exact ofScalar_onScale scale o
  · rw [Option.map_id, id, onScale_none]

theorem near_expressed :
    ∀ row ∈ nearRows, Val.ofScalar (jsonPath (expressed u status) row.2.2) =
      (Val.ofScalar (jsonPath status row.2.2)).onScale u (scaleOf row.1 row.2.1) := by
  have weather : ∀ name, name.toList.all Char.isDigit = false →
      jsonPath (expressed u status) ["weather", name] =
        (jsonPath status ["weather", name]).map
          (if name = "temp" then .onNumber (conv u false) else id) := by
    rintro name named
    have part := Json.member?_mapMembers (expressedMember u) status "weather"
    exact jsonPath_part (g := fun name => if name = "temp" then .onNumber (conv u false) else id)
      (by decide) named part
  have controller : ∀ name, name.toList.all Char.isDigit = false →
      jsonPath (expressed u status) ["controller", name] =
        (jsonPath status ["controller", name]).map
          (if name = "error" then .onNumber (conv u true) else id) := by
    rintro name named
    have part := Json.member?_mapMembers (expressedMember u) status "controller"
    exact jsonPath_part (g := fun name => if name = "error" then .onNumber (conv u true) else id)
      (by decide) named part
  have step : ∀ name, name.toList.all Char.isDigit = false →
      jsonPath (expressed u status) ["step", name] =
        (jsonPath status ["step", name]).map
          (if name ∈ ["food_max", "food_min", "food_rested", "food_avg"] then
            .onNumber (conv u false) else id) := by
    rintro name named
    have part := Json.member?_mapMembers (expressedMember u) status "step"
    exact jsonPath_part (g := fun name => 
      if name ∈ ["food_max", "food_min", "food_rested", "food_avg"] then .onNumber (conv u false)
      else id) (by decide) named part
  rintro row inside
  simp only [nearRows, List.mem_cons, List.not_mem_nil, or_false] at inside
  rcases inside with
    rfl | rfl | rfl | rfl | rfl | rfl | rfl | rfl | rfl | rfl | rfl | rfl | rfl | rfl
  · rw [jsonPath_expressed_setpoint]
    exact ofScalar_moved (Or.inl rfl)
  · rw [controller _ (by decide)]
    exact ofScalar_moved (Or.inl rfl)
  all_goals first
    | rw [weather _ (by decide)]
    | rw [step _ (by decide)]
  all_goals first
    | exact ofScalar_moved (Or.inl rfl)
    | exact ofScalar_moved (Or.inr ⟨by decide, rfl⟩)

theorem fixedRow_expressed {row : String × String × List String} (inside : row ∈ traitPaths) :
    Val.ofScalar (jsonPath (expressed u status) row.2.2) =
      (Val.ofScalar (jsonPath status row.2.2)).onScale u (scaleOf row.1 row.2.1) := by
  rcases row_cases row inside with aside | near
  · obtain ⟨domain, trait, path⟩ := row
    cases path with
    | nil => simp [asideRow] at aside
    | cons name rest =>
        simp only [asideRow, Bool.and_eq_true, Bool.not_eq_true', decide_eq_false_iff_not,
          beq_iff_eq] at aside
        obtain ⟨⟨named, apart⟩, unscaled⟩ := aside
        rw [jsonPath_expressed status named apart, unscaled, onScale_none]
  · exact near_expressed row near

theorem fixedTrait_expressed {label domain trait : String}
    (kept : domain = "grill" → trait = "over" →
      (jsonBool status ["autotune", "active"] false || setpointKept u status) = true) :
    fixedTrait (expressed u status) label domain trait =
      (fixedTrait status label domain trait).onScale u (scaleOf domain trait) := by
  by_cases output : domain = "output"
  · subst output
    have unscaled : scaleOf "output" trait = none := by
      refine scaleOf_eq_none ?_
      rintro row inside ⟨same, rfl⟩
      exact (by decide : ∀ row ∈ publishedTraits, row.1 ≠ "output") row inside same
    have outputs : ∀ rest, jsonPath (expressed u status) ("outputs" :: rest) =
        jsonPath status ("outputs" :: rest) :=
      fun rest => jsonPath_expressed status (by decide) (by decide)
    rw [unscaled, onScale_none]
    simp only [fixedTrait, tokens_outputs, jsonBool, jsonNum, jsonNum?, outputs, if_true]
  by_cases pit : domain = "grill" ∧ (trait = "temp" ∨ trait = "over")
  · obtain ⟨rfl, which⟩ := pit
    rcases which with rfl | rfl
    · exact pitTemp_expressed status
    · exact pitOver_expressed (kept rfl rfl)
  · simp only [fixedTrait, output, pit, if_false]
    cases found : traitPaths.find? fun row => row.1 == domain && row.2.1 == trait with
    | some row =>
        have names := List.find?_some found
        simp only [Bool.and_eq_true, beq_iff_eq] at names
        obtain ⟨rfl, rfl⟩ := names
        exact fixedRow_expressed (List.mem_of_find?_eq_some found)
    | none => rfl

theorem traitOf_expressed {entity trait : String} (kept : steady u status i entity trait = true) :
    traitOf (expressed u status) (i.expressed u) entity trait =
      (traitOf status i entity trait).onScale u (scaleOf (domainOf i entity) trait) := by
  have moved : probeOf (i.expressed u) entity = (probeOf i entity).map (expressedProbe u) := by
    simp only [probeOf, domainOf, Inst.expressed]
    split_ifs <;> rfl
  rw [traitOf_eq, traitOf_eq, moved]
  rw [steady] at kept
  cases found : probeOf i entity with
  | some probe =>
      rw [found] at kept
      have domain : domainOf i entity = "probe" := by
        by_contra other
        rw [probeOf, if_neg other] at found
        cases found
      rw [domain]
      refine probeTrait_expressed probe ?_ ?_
      · rintro target
        simpa only [target, if_true] using kept
      · rintro limit
        have apart : trait ∉ ["target", "over"] :=
          (by decide : ∀ name ∈ ["limit_high", "limit_low"], name ∉ ["target", "over"]) trait limit
        simpa only [apart, limit, if_false, if_true] using kept
  | none =>
      rw [found] at kept
      refine fixedTrait_expressed ?_
      rintro grill isOver
      have both : domainOf i entity = "grill" ∧ trait = "over" := ⟨grill, isOver⟩
      simpa only [both, and_self, if_true] using kept

/-! ## The instances of a rule -/

theorem watchesProbe_expressed (sel : Option Json) (probe : Json) :
    watchesProbe sel (expressedProbe u probe) = watchesProbe sel probe := by
  have flag : ∀ name, name ∉ ["temp", "ambient"] → name ∉ ["target", "limit_high", "limit_low"] →
      jget (some (expressedProbe u probe)) name = jget (some probe) name :=
    fun name aside unset => jget_expressedProbe probe aside unset
  have text : ∀ name dflt, name ∈ ["label", "name", "role"] →
      jsonStr (expressedProbe u probe) [name] dflt = jsonStr probe [name] dflt := by
    rintro name dflt inside
    have plain : ∀ name ∈ ["label", "name", "role"], name.toList.all Char.isDigit = false ∧
        name ∉ ["temp", "ambient"] ∧ name ∉ ["target", "limit_high", "limit_low"] := by
      decide
    obtain ⟨named, aside, unset⟩ := plain name inside
    exact jsonStr_expressedProbe probe dflt named aside unset
  simp only [watchesProbe, probeNames, flag "wireless" (by decide) (by decide),
    flag "enabled" (by decide) (by decide), flag "companion" (by decide) (by decide),
    text "label" _ (by decide), text "name" _ (by decide), text "role" _ (by decide)]

theorem selectInstances_expressed (status rule : Json) :
    selectInstances (expressed u status) rule =
      (selectInstances status rule).map (Inst.expressed u) := by
  have label : ∀ p, jsonStr (expressedProbe u p) ["label"] "" = jsonStr p ["label"] "" :=
    fun p => jsonStr_expressedProbe p "" (by decide) (by decide) (by decide)
  simp only [selectInstances, elements_probes]
  split_ifs
  · rw [List.filter_map, List.map_take, List.map_take, List.map_take, List.map_map, List.map_map]
    simp only [Function.comp_def, watchesProbe_expressed, label, Inst.expressed, Option.map_some]
  · rw [List.map_map]
    rfl
  · rfl

end PiFire.Rules
