import PiFire.Tuning.Places
import PiFire.Ranking.Bracket

/-!
# The tuning between two entries

Between two entries the library interpolates; outside their range the nearest one stands.
What it answers is the entry's own at an entry, between those of the two on either side
elsewhere, and the same in whatever order the slots hold them.
-/

namespace PiFire.Tuning

open Transition Ranking

/-- What the library answers for a set point. -/
structure Scheduled where
  PBc : ℚ
  Ti : ℚ
  Td : ℚ
  deriving DecidableEq

/-- The plant it answers. -/
structure Plant where
  K : ℚ
  tau : ℚ
  theta : ℚ
  deriving DecidableEq

def TuneAnchor.scheduled (a : TuneAnchor) : Scheduled := ⟨a.PBc, a.Ti, a.Td⟩

def TuneAnchor.plant (a : TuneAnchor) : Plant := ⟨a.K, a.tau, a.theta⟩

def Fopdt.plant (p : Fopdt) : Plant := ⟨p.K, p.tau, p.theta⟩

/-- How a value moves from one entry to the other. -/
def along (f : ℚ) (lo hi : TuneAnchor) (part : TuneAnchor → ℚ) : ℚ :=
  part lo + f * (part hi - part lo)

def Scheduled.between (f : ℚ) (lo hi : TuneAnchor) : Scheduled :=
  ⟨along f lo hi (·.PBc), along f lo hi (·.Ti), along f lo hi (·.Td)⟩

def Plant.between (f : ℚ) (lo hi : TuneAnchor) : Plant :=
  ⟨along f lo hi (·.K), along f lo hi (·.tau), along f lo hi (·.theta)⟩

/-- The entry at or below a set point that is nearest, of those that count. -/
def below? (anchors : List TuneAnchor) (setpoint : ℚ) : Option TuneAnchor :=
  floor? TuneAnchor.setpointC setpoint anchors

/-- The one at or above it. -/
def above? (anchors : List TuneAnchor) (setpoint : ℚ) : Option TuneAnchor :=
  ceil? TuneAnchor.setpointC setpoint anchors

/-- How far a set point is on its way from one entry to the other. -/
def way (lo hi : TuneAnchor) (setpoint : ℚ) : ℚ :=
  (setpoint - lo.setpointC) / (hi.setpointC - lo.setpointC)

namespace Learning

/-- `pf_learning_gains` -/
def gains (l : Learning) (setpoint : ℚ) : Option Scheduled :=
  let anchors := l.library.slots.entries
  match below? anchors setpoint, above? anchors setpoint with
  | some lo, some hi =>
      if lo.setpointC < hi.setpointC then some (Scheduled.between (way lo hi setpoint) lo hi)
      else some lo.scheduled
  | some lo, none => some lo.scheduled
  | none, some hi => some hi.scheduled
  | none, none => none

/-- The entries that have a plant. -/
def planted (l : Learning) : List TuneAnchor :=
  l.library.slots.entries.filter fun a => 0 < a.K ∧ 0 < a.tau

/-- The plant of the last rise from cold, if its method is still in use. -/
def rise (l : Learning) : Option Plant :=
  (l.fopdt.filter fun p => 2 ≤ p.method).map Fopdt.plant

/-- `pf_learning_plant` -/
def plant (l : Learning) (setpoint : ℚ) : Option Plant :=
  match below? l.planted setpoint, above? l.planted setpoint with
  | some lo, some hi =>
      let f := if lo.setpointC < hi.setpointC then way lo hi setpoint else -1
      if 0 ≤ f then some (Plant.between f lo hi) else some lo.plant
  | some lo, none => some lo.plant
  | none, some hi => some hi.plant
  | none, none => l.rise

end Learning

/-- No two entries are for one set point. -/
def Distinct (anchors : List TuneAnchor) : Prop := (anchors.map TuneAnchor.setpointC).Nodup

/-- What is answered interpolates what the entries say: an entry's own value at its set
point, every part of it between those of the two entries on either side, and the nearest
entry's outside their range. -/
structure Interpolates {V : Type} (anchors : List TuneAnchor) (value : TuneAnchor → V)
    (parts : List (V → ℚ)) (answer : ℚ → Option V) : Prop where
  at_ : ∀ a ∈ anchors, answer a.setpointC = some (value a)
  between : ∀ a ∈ anchors, ∀ b ∈ anchors, ∀ s, a.setpointC < s → s < b.setpointC →
    (∀ c ∈ anchors, c.setpointC ≤ a.setpointC ∨ b.setpointC ≤ c.setpointC) →
      ∃ v, answer s = some v ∧ ∀ part ∈ parts, part v ∈ Set.uIcc (part (value a)) (part (value b))
  above : ∀ a ∈ anchors, (∀ b ∈ anchors, b.setpointC ≤ a.setpointC) →
    ∀ s, a.setpointC ≤ s → answer s = some (value a)
  below : ∀ a ∈ anchors, (∀ b ∈ anchors, a.setpointC ≤ b.setpointC) →
    ∀ s, s ≤ a.setpointC → answer s = some (value a)

/-- The answer between two entries and beside one. -/
structure Answers {V : Type} (anchors : List TuneAnchor) (value : TuneAnchor → V)
    (mix : ℚ → TuneAnchor → TuneAnchor → V) (answer : ℚ → Option V) : Prop where
  inside : ∀ {s lo hi}, below? anchors s = some lo → above? anchors s = some hi →
    lo.setpointC < hi.setpointC → answer s = some (mix (way lo hi s) lo hi)
  exact : ∀ {s lo hi}, below? anchors s = some lo → above? anchors s = some hi →
    ¬lo.setpointC < hi.setpointC → answer s = some (value lo)
  top : ∀ {s lo}, below? anchors s = some lo → above? anchors s = none →
    answer s = some (value lo)
  bottom : ∀ {s hi}, below? anchors s = none → above? anchors s = some hi →
    answer s = some (value hi)

section Bracket

variable {anchors : List TuneAnchor} (distinct : Distinct anchors) {s : ℚ}
include distinct

theorem below?_eq {a : TuneAnchor} (member : a ∈ anchors) (under : a.setpointC ≤ s)
    (greatest : ∀ b ∈ anchors, b.setpointC ≤ s → b.setpointC ≤ a.setpointC) :
    below? anchors s = some a :=
  (floor?_eq_some distinct).mpr ⟨member, under, greatest⟩

theorem above?_eq {a : TuneAnchor} (member : a ∈ anchors) (over_ : s ≤ a.setpointC)
    (least : ∀ b ∈ anchors, s ≤ b.setpointC → a.setpointC ≤ b.setpointC) :
    above? anchors s = some a :=
  (ceil?_eq_some distinct).mpr ⟨member, over_, least⟩

/-- An answer that mixes the two entries on either side interpolates. -/
theorem Answers.interpolates {V : Type} {value : TuneAnchor → V}
    {mix : ℚ → TuneAnchor → TuneAnchor → V} {answer : ℚ → Option V} {parts : List (V → ℚ)}
    (answers : Answers anchors value mix answer)
    (mixed : ∀ f lo hi, ∀ part ∈ parts,
      part (mix f lo hi) = part (value lo) + f * (part (value hi) - part (value lo))) :
    Interpolates anchors value parts answer where
  at_ := by
    intro a member
    have lo : below? anchors a.setpointC = some a :=
      below?_eq distinct member le_rfl fun _ _ under => under
    have hi : above? anchors a.setpointC = some a :=
      above?_eq distinct member le_rfl fun _ _ over_ => over_
    exact answers.exact lo hi (lt_irrefl _)
  between := by
    intro a first b second s after before gap
    have lo : below? anchors s = some a := by
      apply below?_eq distinct first after.le
      intro c inside under
      rcases gap c inside with left | right
      · exact left
      · exact absurd (right.trans under) (not_le.mpr before)
    have hi : above? anchors s = some b := by
      apply above?_eq distinct second before.le
      intro c inside over_
      rcases gap c inside with left | right
      · exact absurd (over_.trans left) (not_le.mpr after)
      · exact right
    have apart := after.trans before
    refine ⟨_, answers.inside lo hi apart, ?_⟩
    intro part inside
    rw [mixed _ _ _ part inside]
    obtain ⟨nonneg, part_⟩ := part_le_one after.le before.le apart
    exact part_mem_uIcc nonneg part_
  above := by
    intro a member greatest s after
    have lo : below? anchors s = some a :=
      below?_eq distinct member after fun b inside _ => greatest b inside
    cases hi : above? anchors s with
    | none => exact answers.top lo hi
    | some b =>
        obtain ⟨inside, over_, -⟩ := (ceil?_eq_some distinct).mp hi
        exact answers.exact lo hi (not_lt.mpr (greatest b inside))
  below := by
    intro a member least s before
    have hi : above? anchors s = some a :=
      above?_eq distinct member before fun b inside _ => least b inside
    cases lo : below? anchors s with
    | none => exact answers.bottom lo hi
    | some b =>
        obtain ⟨inside, under, -⟩ := (floor?_eq_some distinct).mp lo
        have same : b.setpointC = a.setpointC :=
          le_antisymm (under.trans before) (least b inside)
        rw [answers.exact lo hi (not_lt.mpr same.ge),
          List.inj_on_of_nodup_map distinct inside member same]

theorem bracket_perm {others : List TuneAnchor} (same : anchors.Perm others) :
    below? others s = below? anchors s ∧ above? others s = above? anchors s :=
  ⟨floor?_perm distinct same, ceil?_perm distinct same⟩

end Bracket

namespace Learning

theorem answers_gains (l : Learning) :
    Answers l.library.slots.entries TuneAnchor.scheduled Scheduled.between l.gains where
  inside := fun lo hi apart => by simp only [gains, lo, hi, if_pos apart]
  exact := fun lo hi same => by simp only [gains, lo, hi, if_neg same]
  top := fun lo hi => by simp only [gains, lo, hi]
  bottom := fun lo hi => by simp only [gains, lo, hi]

theorem answers_plant (l : Learning) :
    Answers l.planted TuneAnchor.plant Plant.between l.plant where
  inside := fun {s lo hi} low high apart => by
    have best : Best TuneAnchor.setpointC s l.planted (floor? TuneAnchor.setpointC s l.planted) :=
      best_floor? l.planted
    rw [show floor? TuneAnchor.setpointC s l.planted = some lo from low] at best
    have nonneg : 0 ≤ way lo hi s :=
      div_nonneg (sub_nonneg.mpr best.2.1) (sub_pos.mpr apart).le
    simp only [plant, low, high, if_pos apart]
    exact if_pos nonneg
  exact := fun lo hi same => by
    simp only [plant, lo, hi, if_neg same]
    exact if_neg (by norm_num)
  top := fun lo hi => by simp only [plant, lo, hi]
  bottom := fun lo hi => by simp only [plant, lo, hi]

theorem planted_perm {l m : Learning} (same : l.library.slots.Perm m.library.slots) :
    l.planted.Perm m.planted :=
  (same.filterMap id).filter _

theorem distinct_planted {l : Learning} (distinct : Distinct l.library.slots.entries) :
    Distinct l.planted :=
  distinct.sublist (List.filter_sublist.map _)

/-- Of entries with distinct set points the library interpolates the tuning, and of those
that have a plant the plant; the order of its slots does not matter. -/
theorem tuning_interpolates (l : Learning) (distinct : Distinct l.library.slots.entries) :
    Interpolates l.library.slots.entries TuneAnchor.scheduled
      [Scheduled.PBc, Scheduled.Ti, Scheduled.Td] l.gains ∧
    Interpolates l.planted TuneAnchor.plant [Plant.K, Plant.tau, Plant.theta] l.plant ∧
    ∀ m : Learning, l.library.slots.Perm m.library.slots → ∀ s,
      m.gains s = l.gains s ∧ (m.fopdt = l.fopdt → m.plant s = l.plant s) := by
  have distinct' := distinct_planted distinct
  refine ⟨l.answers_gains.interpolates distinct ?_, l.answers_plant.interpolates distinct' ?_, ?_⟩
  · intro f lo hi part inside
    simp only [List.mem_cons, List.not_mem_nil, or_false] at inside
    rcases inside with rfl | rfl | rfl <;> rfl
  · intro f lo hi part inside
    simp only [List.mem_cons, List.not_mem_nil, or_false] at inside
    rcases inside with rfl | rfl | rfl <;> rfl
  · intro m same s
    obtain ⟨below, above⟩ := bracket_perm (s := s) distinct (same.filterMap id)
    obtain ⟨below', above'⟩ := bracket_perm (s := s) distinct' (planted_perm same)
    constructor
    · simp only [gains]
      rw [show below? m.library.slots.entries s = _ from below,
        show above? m.library.slots.entries s = _ from above]
    · intro rise_
      simp only [plant, below', above', rise, rise_]

/-- A library with two entries, that of the higher set point in the first slot. -/
def twoEntries : Learning :=
  { fresh with
    library := (Library.empty.write 0 (some { entryAt 150 0 with PBc := 40 })).write 1
      (some (entryAt 100 0)) }

theorem tuning_interpolates_two :
    twoEntries.gains 120 = some ⟨34, 300, 75⟩ ∧
    Interpolates twoEntries.library.slots.entries TuneAnchor.scheduled
      [Scheduled.PBc, Scheduled.Ti, Scheduled.Td] twoEntries.gains :=
  ⟨by decide +kernel, (tuning_interpolates twoEntries (by unfold Distinct; decide +kernel)).1⟩

end Learning

end PiFire.Tuning
