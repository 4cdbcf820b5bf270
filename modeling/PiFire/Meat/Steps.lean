import PiFire.Control.Json
import PiFire.Text.Listed
import PiFire.Transition.Run
import Mathlib.Tactic.Linarith

/-!
# The steps of a cook

A step is a temperature on the way to the target with a name on it. The list is read
from the settings at every tick; whether a step has spoken is a latch beside it, which
the new list takes over by name and temperature. This file follows the latches of one
probe through ticks and restarts.
-/

namespace PiFire.Steps

open Transition

/-- `pf_notify_step`. -/
structure Step where
  name : String
  tempC : ℚ
  fired : Bool
  deriving DecidableEq

/-- `PF_MAX_STEPS`. -/
def maxSteps : ℕ := 4

/-- The room in `name`, less the end of the text. -/
def nameRoom : ℕ := 23

/-- A step as the settings have it: its name, cut to the room for it, and its
temperature in the user's units. -/
abbrev Key := String × ℚ

/-- The step's temperature. -/
def Key.tempC (units : Units) (κ : Key) : ℚ := toC κ.2 units

/-- A tick of `pf_notify_tick` as one probe finds it; there is no reading while the
probe is not valid. -/
structure Look where
  settings : Json
  units : Units
  cooking : Bool
  reading : Option ℚ

/-- `notify.probe_steps.<label>`, as `pf_json_path` takes it apart. -/
def stepsPath (label : String) : List String :=
  ["notify", "probe_steps"] ++
    ((Text.pieces '.' label.toList).filter (· ≠ [])).map String.ofList

/-- An entry of the list; without a positive temperature it is no step. -/
def readStep (item : Json) : Option Key :=
  let t := jsonNum item ["temp"] 0
  if t > 0 then some (String.ofList ((jsonStr item ["name"] "Step").toList.take nameRoom), t)
  else none

/-- The steps in a list of the settings. -/
def stepsAt (settings : Json) (path : List String) : List Key :=
  (((jsonPath settings path).map Json.children).getD []).filterMap readStep

/-- Two steps that `load_steps` takes for one. -/
def near (a : Step) (name : String) (tempC : ℚ) : Bool :=
  decide (|a.tempC - tempC| < 1 / 100) && a.name == name

/-- A step of the new list, with what it has said. -/
def loadStep (units : Units) (keep : List Step) (κ : Key) : Step :=
  { name := κ.1
    tempC := κ.tempC units
    fired := (keep.find? fun old => near old κ.1 (κ.tempC units)).any Step.fired }

/-- The entries that `load_steps` takes. -/
def loaded (label : String) (look : Look) : List Key :=
  (stepsAt look.settings (stepsPath label)).take maxSteps

/-- The step is announced at this reading. -/
def speaks (cooking : Bool) (t : ℚ) (st : Step) : Bool :=
  !st.fired && cooking && decide (t ≥ st.tempC)

/-- What the tick leaves of the latch. -/
def judge (units : Units) (cooking : Bool) (t : ℚ) (st : Step) : Step :=
  if speaks cooking t st then { st with fired := true }
  else if st.fired && decide (t < st.tempC - deltaToC 2 units) then { st with fired := false }
  else st

inductive Event
  | tick (look : Look)
  /-- The next process starts with no latch. -/
  | restart

/-- The steps of the probe after an event. -/
def happen (label : String) (event : Event) (steps : List Step) : List Step :=
  match event with
  | .tick look =>
    match look.reading with
    | some t =>
      (loaded label look).map fun κ =>
        judge look.units look.cooking t (loadStep look.units steps κ)
    | none => steps
  | .restart => []

/-- The steps announced at an event, in the list's order. -/
def announced (label : String) (event : Event) (steps : List Step) : List Key :=
  match event with
  | .tick look =>
    match look.reading with
    | some t =>
      (loaded label look).filter fun κ => speaks look.cooking t (loadStep look.units steps κ)
    | none => []
  | .restart => []

/-- The steps the user gave the probe. -/
def planned (label : String) (look : Look) : List Key :=
  stepsAt look.settings ["notify", "probe_steps", label]

/-- The step is in the list at this tick, if the probe reads. -/
def lists (label : String) (κ : Key) : Event → Prop
  | .tick look => look.reading ≠ none → κ ∈ planned label look
  | .restart => True

/-- The reading is two units below the step. -/
def falls (κ : Key) : Event → Prop
  | .tick look => ∃ t, look.reading = some t ∧ t ≤ κ.tempC look.units - deltaToC 2 look.units
  | .restart => False

/-- The reading has reached the step. -/
def reaches (κ : Key) : Event → Prop
  | .tick look => ∃ t, look.reading = some t ∧ κ.tempC look.units ≤ t
  | .restart => False

/-- In the run from these steps, each step speaks once at a tick, again only after the
reading was two units below it while it was in the list, and when the reading first
reaches it in the cook. -/
structure SpeakOnce (label : String) (events : List Event) (steps : List Step) : Prop where
  single : ∀ before e after, events = before ++ e :: after →
    (announced label e (run (happen label) before steps)).Nodup
  again : ∀ before first middle second after κ,
    events = before ++ (first :: middle) ++ second :: after →
    κ ∈ announced label first (run (happen label) before steps) →
    κ ∈ announced label second (run (happen label) (before ++ first :: middle) steps) →
    (∀ e ∈ middle, lists label κ e) → ∃ e ∈ middle, falls κ e
  reached : ∀ before look t after κ, events = before ++ .tick look :: after →
    look.reading = some t → look.cooking = true → κ ∈ planned label look →
    κ.tempC look.units ≤ t → (∀ e ∈ before, ¬reaches κ e) →
    κ ∈ announced label (.tick look) (run (happen label) before steps)

/-- The label names one member of the settings' object. -/
def Plain (label : String) : Prop :=
  label ≠ "" ∧ '.' ∉ label.toList

/-- A list is read whole and each step of it takes over its own latch: no more than
four steps, none given twice, none within a hundredth of a degree of another of its
name that was in the list before, all in the units of the run. A restart finds no
latch on. -/
def Apart (label : String) (units : Units) : Event → List Step → Prop
  | .tick look, steps =>
    look.reading ≠ none → look.units = units ∧ (planned label look).length ≤ maxSteps ∧
      (planned label look).Nodup ∧
      ∀ old ∈ steps, ∀ κ ∈ planned label look, near old κ.1 (κ.tempC units) = true →
        (old.name, old.tempC) = (κ.1, κ.tempC units)
  | .restart, steps => ∀ st ∈ steps, st.fired = false

instance (label : String) : Decidable (Plain label) :=
  inferInstanceAs (Decidable (_ ∧ _))

instance (label : String) (units : Units) :
    ∀ event steps, Decidable (Apart label units event steps)
  | .tick _, _ => inferInstanceAs (Decidable (_ → _))
  | .restart, steps => inferInstanceAs (Decidable (∀ st ∈ steps, st.fired = false))

section Latch

variable {label : String} {units : Units} {look : Look} {event : Event} {steps : List Step}
  {κ : Key} {t : ℚ}

/-- The step is in the list and has spoken. -/
def On (units : Units) (κ : Key) (steps : List Step) : Prop :=
  (∃ st ∈ steps, (st.name, st.tempC) = (κ.1, κ.tempC units)) ∧
    ∀ st ∈ steps, (st.name, st.tempC) = (κ.1, κ.tempC units) → st.fired = true

/-- The step has not spoken, or is not in the list. -/
def Off (units : Units) (κ : Key) (steps : List Step) : Prop :=
  ∀ st ∈ steps, (st.name, st.tempC) = (κ.1, κ.tempC units) → st.fired = false

theorem toC_injective (units : Units) : Function.Injective (toC · units) := by
  intro a b same
  cases units with
  | f =>
      simp only [toC] at same
      linarith
  | c => exact same

theorem stepsPath_of_plain (plain : Plain label) :
    stepsPath label = ["notify", "probe_steps", label] := by
  have whole : Text.pieces '.' (Text.joined '.' [label.toList]) = [label.toList] :=
    Text.pieces_joined (by simpa using plain.1) (by simpa using plain.2)
  rw [Text.joined] at whole
  rw [stepsPath, whole, List.filter_cons_of_pos (by simpa using plain.1), List.filter_nil]
  simp

theorem loaded_eq (plain : Plain label) (few : (planned label look).length ≤ maxSteps) :
    loaded label look = planned label look := by
  rw [loaded, stepsPath_of_plain plain]
  exact List.take_of_length_le few

theorem loadStep_fired_of_on (own : ∀ old ∈ steps, near old κ.1 (κ.tempC units) = true →
      (old.name, old.tempC) = (κ.1, κ.tempC units)) (on : On units κ steps) :
    (loadStep units steps κ).fired = true := by
  obtain ⟨⟨st, inside, same⟩, all⟩ := on
  have itself : near st κ.1 (κ.tempC units) = true := by
    obtain ⟨sameName, sameTemp⟩ := Prod.ext_iff.mp same
    simp only at sameName sameTemp
    simp [near, sameName, sameTemp]
  cases found : steps.find? fun old => near old κ.1 (κ.tempC units) with
  | none => exact absurd itself (by simpa using List.find?_eq_none.mp found st inside)
  | some old =>
      have oldNear : near old κ.1 (κ.tempC units) = true := by simpa using List.find?_some found
      have oldInside := List.mem_of_find?_eq_some found
      simp only [loadStep, found, Option.any_some]
      exact all old oldInside (own old oldInside oldNear)

theorem loadStep_fired_of_off (own : ∀ old ∈ steps, near old κ.1 (κ.tempC units) = true →
      (old.name, old.tempC) = (κ.1, κ.tempC units)) (off : Off units κ steps) :
    (loadStep units steps κ).fired = false := by
  cases found : steps.find? fun old => near old κ.1 (κ.tempC units) with
  | none => simp [loadStep, found]
  | some old =>
      have oldNear : near old κ.1 (κ.tempC units) = true := by simpa using List.find?_some found
      have oldInside := List.mem_of_find?_eq_some found
      simp only [loadStep, found, Option.any_some]
      exact off old oldInside (own old oldInside oldNear)

theorem judge_name {cooking : Bool} (st : Step) :
    ((judge units cooking t st).name, (judge units cooking t st).tempC) =
      (st.name, st.tempC) := by
  unfold judge
  split_ifs <;> rfl

theorem entry_after_tick (plain : Plain label) (apart : Apart label units (.tick look) steps)
    (reads : look.reading = some t) {st : Step}
    (inside : st ∈ happen label (.tick look) steps)
    (same : (st.name, st.tempC) = (κ.1, κ.tempC units)) :
    κ ∈ planned label look ∧ st = judge units look.cooking t (loadStep units steps κ) := by
  obtain ⟨sameUnits, few, -⟩ := apart (by simp [reads])
  simp only [happen, reads, loaded_eq plain few, sameUnits, List.mem_map] at inside
  obtain ⟨other, given, rfl⟩ := inside
  rw [judge_name] at same
  obtain ⟨sameName, sameTemp⟩ := Prod.ext_iff.mp same
  have itself : other = κ := Prod.ext sameName (toC_injective units sameTemp)
  rw [itself] at given ⊢
  exact ⟨given, rfl⟩

theorem mem_announced (plain : Plain label) (apart : Apart label units (.tick look) steps)
    (reads : look.reading = some t) :
    κ ∈ announced label (.tick look) steps ↔ κ ∈ planned label look ∧
      speaks look.cooking t (loadStep units steps κ) = true := by
  obtain ⟨sameUnits, few, -⟩ := apart (by simp [reads])
  simp only [announced, reads, loaded_eq plain few, sameUnits, List.mem_filter]

theorem on_of_announced (plain : Plain label) (apart : Apart label units event steps)
    (heard : κ ∈ announced label event steps) : On units κ (happen label event steps) := by
  cases event with
  | restart => exact absurd heard List.not_mem_nil
  | tick look =>
      cases reads : look.reading with
      | none => simp [announced, reads] at heard
      | some t =>
          rw [mem_announced plain apart reads] at heard
          obtain ⟨sameUnits, few, -⟩ := apart (by simp [reads])
          have fires : (judge units look.cooking t (loadStep units steps κ)).fired = true := by
            rw [judge, if_pos heard.2]
          constructor
          · refine ⟨judge units look.cooking t (loadStep units steps κ), ?_, judge_name _⟩
            simp only [happen, reads, loaded_eq plain few, sameUnits]
            exact List.mem_map_of_mem heard.1
          · intro st inside same
            rw [(entry_after_tick plain apart reads inside same).2]
            exact fires

theorem on_happen (plain : Plain label) (apart : Apart label units event steps)
    (listed : lists label κ event) (stays : ¬falls κ event) (on : On units κ steps) :
    On units κ (happen label event steps) := by
  cases event with
  | restart =>
      obtain ⟨⟨st, inside, same⟩, all⟩ := on
      have lit := all st inside same
      rw [apart st inside] at lit
      cases lit
  | tick look =>
      cases reads : look.reading with
      | none =>
          simp only [happen, reads]
          exact on
      | some t =>
          obtain ⟨sameUnits, few, -, own⟩ := apart (by simp [reads])
          have mine : κ ∈ planned label look := listed (by simp [reads])
          have was := loadStep_fired_of_on (own · · κ mine) on
          have above : ¬t < κ.tempC units - deltaToC 2 units := by
            intro below
            exact stays ⟨t, reads, by rw [sameUnits]; exact below.le⟩
          have fires : (judge units look.cooking t (loadStep units steps κ)).fired = true := by
            have quiet : speaks look.cooking t (loadStep units steps κ) = false := by
              simp [speaks, was]
            have temp : (loadStep units steps κ).tempC = κ.tempC units := rfl
            rw [judge, quiet, if_neg Bool.false_ne_true, was, temp]
            simp [above, was]
          constructor
          · refine ⟨judge units look.cooking t (loadStep units steps κ), ?_, judge_name _⟩
            simp only [happen, reads, loaded_eq plain few, sameUnits]
            exact List.mem_map_of_mem mine
          · intro st inside same
            rw [(entry_after_tick plain apart reads inside same).2]
            exact fires

theorem not_announced_of_on (plain : Plain label) (apart : Apart label units event steps)
    (on : On units κ steps) : κ ∉ announced label event steps := by
  intro heard
  cases event with
  | restart => exact absurd heard List.not_mem_nil
  | tick look =>
      cases reads : look.reading with
      | none => simp [announced, reads] at heard
      | some t =>
          rw [mem_announced plain apart reads] at heard
          obtain ⟨-, -, -, own⟩ := apart (by simp [reads])
          have was := loadStep_fired_of_on (own · · κ heard.1) on
          simp [speaks, was] at heard

theorem off_happen (plain : Plain label) (apart : Apart label units event steps)
    (under : ¬reaches κ event) (off : Off units κ steps) :
    Off units κ (happen label event steps) := by
  cases event with
  | restart => exact fun st inside => absurd inside List.not_mem_nil
  | tick look =>
      cases reads : look.reading with
      | none =>
          simp only [happen, reads]
          exact off
      | some t =>
          intro st inside same
          obtain ⟨mine, whole⟩ := entry_after_tick plain apart reads inside same
          obtain ⟨sameUnits, -, -, own⟩ := apart (by simp [reads])
          have was := loadStep_fired_of_off (own · · κ mine) off
          have below : ¬κ.tempC units ≤ t := by
            intro reach
            exact under ⟨t, reads, by rw [sameUnits]; exact reach⟩
          have temp : (loadStep units steps κ).tempC = κ.tempC units := rfl
          have quiet : speaks look.cooking t (loadStep units steps κ) = false := by
            simp [speaks, temp, below]
          rw [whole, judge, quiet, if_neg Bool.false_ne_true, was, Bool.false_and,
            if_neg Bool.false_ne_true]
          exact was

theorem announced_of_off (plain : Plain label) (apart : Apart label units (.tick look) steps)
    (reads : look.reading = some t) (cooks : look.cooking = true)
    (mine : κ ∈ planned label look) (reach : κ.tempC look.units ≤ t)
    (off : Off units κ steps) : κ ∈ announced label (.tick look) steps := by
  obtain ⟨sameUnits, -, -, own⟩ := apart (by simp [reads])
  have was := loadStep_fired_of_off (own · · κ mine) off
  have temp : (loadStep units steps κ).tempC = κ.tempC units := rfl
  rw [mem_announced plain apart reads]
  rw [sameUnits] at reach
  refine ⟨mine, ?_⟩
  simp [speaks, was, cooks, temp, reach]

theorem announced_nodup (plain : Plain label) (apart : Apart label units event steps) :
    (announced label event steps).Nodup := by
  cases event with
  | restart => exact List.nodup_nil
  | tick look =>
      cases reads : look.reading with
      | none => simp [announced, reads]
      | some t =>
          obtain ⟨-, few, nodup, -⟩ := apart (by simp [reads])
          simp only [announced, reads, loaded_eq plain few]
          exact nodup.filter _

end Latch

/-- Every step speaks once, in a run from a state where none has spoken, where the
probe's label is plain and each list is read whole and hands its latches on to the
next. -/
theorem steps_speak_once {label : String} (units : Units) {events : List Event}
    {steps : List Step} (plain : Plain label) (quiet : ∀ st ∈ steps, st.fired = false)
    (apart : Along (happen label) (Apart label units) events steps) :
    SpeakOnce label events steps where
  single := by
    intro before e after whole
    rw [whole, along_append, along_cons] at apart
    exact announced_nodup plain apart.2.1
  again := by
    intro before first middle second after κ whole heard again listed
    rw [whole, List.append_assoc, along_append, List.cons_append, along_cons, along_append,
      along_cons] at apart
    obtain ⟨-, firstApart, middleApart, secondApart, -⟩ := apart
    by_contra never
    rw [not_exists] at never
    have on := on_of_announced plain firstApart heard
    -- the latch stays on through all that lies between
    have still : On units κ (run (happen label) middle
        (happen label first (run (happen label) before steps))) := by
      refine run_preserves (fun e steps => e ∈ middle ∧ Apart label units e steps)
        (On units κ) ?_ on ((along_of_forall (fun e inside _ => inside) _).and middleApart)
      intro e steps on ok
      exact on_happen plain ok.2 (listed e ok.1) (fun low => never e ⟨ok.1, low⟩) on
    rw [run_append, run_cons] at again
    exact not_announced_of_on plain secondApart still again
  reached := by
    intro before look t after κ whole reads cooks mine reach under
    rw [whole, along_append, along_cons] at apart
    obtain ⟨beforeApart, lookApart, -⟩ := apart
    have off : Off units κ (run (happen label) before steps) := by
      refine run_preserves (fun e steps => e ∈ before ∧ Apart label units e steps)
        (Off units κ) ?_ (fun st inside _ => quiet st inside)
        ((along_of_forall (fun e inside _ => inside) _).and beforeApart)
      intro e steps off ok
      exact off_happen plain ok.2 (under e ok.1) off
    exact announced_of_off plain lookApart reads cooks mine reach off

/-- A cook's look at a probe whose one step is to flip at 60 °C. -/
def benchLook (t : ℚ) : Look :=
  { settings := .obj [("notify", .obj [("probe_steps",
      .obj [("Meat", .arr [.obj [("name", .str "Flip"), ("temp", .num 60)]])])])]
    units := .c
    cooking := true
    reading := some t }

theorem steps_speak_once_on_bench :
    SpeakOnce "Meat" [.tick (benchLook 59), .tick (benchLook 61), .tick (benchLook 59)] [] :=
  steps_speak_once .c (by decide +kernel) (by decide) (by decide +kernel)

/-- A restart in mid-cook says again what was said before it. -/
theorem step_said_again :
    ¬∀ (label : String) (events : List Event) (steps : List Step),
      (∀ st ∈ steps, st.fired = false) → SpeakOnce label events steps := by
  intro always
  have once := always "Meat" [.tick (benchLook 61), .restart, .tick (benchLook 61)] []
    (by decide)
  obtain ⟨e, between, low⟩ := once.again [] (.tick (benchLook 61)) [.restart]
    (.tick (benchLook 61)) [] ("Flip", 60) rfl (by decide) (by decide)
    (by simp [lists])
  rw [List.mem_singleton] at between
  rw [between] at low
  exact low

end PiFire.Steps
