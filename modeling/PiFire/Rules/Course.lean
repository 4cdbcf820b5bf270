import Mathlib.Data.List.Nodup
import PiFire.Rules.Recall

/-!
# The course of a tick

A tick does one of three things to the memory of a rule and instance: nothing,
as the rule has no turn about it; it ends what is reported, as the rule has
stopped applying; or it judges it once.
-/

namespace PiFire.Rules

open Transition

variable {t : Tick} {what : Turn} {s : Engine} {id inst : String}

/-- The rule a turn judges, the instance it names in the alarm's key and the
instance its state is kept under. -/
def Turn.subject : Turn → Option (Json × String × String)
  | .retire _ => none
  | .judge rule i => some (rule, i.label, i.label)
  | .judgeEvery rule first _ => some (rule, first.label, "*")

theorem Turn.about_iff :
    what.about id inst = true ↔
      ∃ rule label, what.subject = some (rule, label, inst) ∧ ruleId rule = id := by
  cases what with
  | retire gone => simp [about, subject]
  | judge rule i =>
      simp only [about, subject, Bool.and_eq_true, beq_iff_eq, Option.some.injEq, Prod.mk.injEq]
      constructor
      · rintro ⟨rfl, rfl⟩
        exact ⟨rule, i.label, ⟨rfl, rfl, rfl⟩, rfl⟩
      · rintro ⟨_, _, ⟨rfl, rfl, rfl⟩, rfl⟩
        exact ⟨rfl, rfl⟩
  | judgeEvery rule first others =>
      simp only [about, subject, Bool.and_eq_true, beq_iff_eq, Option.some.injEq, Prod.mk.injEq]
      constructor
      · rintro ⟨rfl, rfl⟩
        exact ⟨rule, first.label, ⟨rfl, rfl, rfl⟩, rfl⟩
      · rintro ⟨_, _, ⟨rfl, rfl, rfl⟩, rfl⟩
        exact ⟨rfl, rfl⟩

theorem fits_every : Fits "*" := by decide

/-- The place of the state that a turn judges, if there is one or room for
one. -/
def Turn.place (t : Tick) : Turn → Engine → Option ℕ
  | .retire _, _ => none
  | .judge rule i, s => (stateFor (ruleId rule) i.label s.slots).1
  | .judgeEvery rule first others, s =>
      (stateFor (ruleId rule) "*" (lookAll t rule (first :: others) s.slots).2).1

theorem take_eq_settle {rule : Json} {label inst : String} (named : what.Named)
    (subject : what.subject = some (rule, label, inst)) :
    ∃ ok slots,
      take t what s =
        settle t rule (ruleKey rule label) (what.judgement t) ok (what.place t s)
          ⟨slots, s.alarms⟩ ∧
      (∀ k, what.place t s = some k →
        slots.findIdx? (Slot.isFor (ruleId rule) inst) = some k) ∧
      (what.place t s = none → s.memory (ruleId rule) inst = .fresh) ∧
      ∀ a b, memoryOf slots a b = s.memory a b := by
  cases what with
  | retire gone => simp [Turn.subject] at subject
  | judge rule i =>
      simp only [Turn.subject, Option.some.injEq, Prod.mk.injEq] at subject
      obtain ⟨rfl, rfl, rfl⟩ := subject
      have place : (look t rule i s.slots).2.1 = _ := look_place t rule i
      refine ⟨(look t rule i s.slots).1, (look t rule i s.slots).2.2, ?_, ?_, ?_, ?_⟩
      · rw [Turn.place, ← place]
        rfl
      · intro k found
        exact findIdx?_look named.1 named.2 (place.trans found)
      · exact memoryOf_of_no_place
      · intro a b
        exact memoryOf_look t rule i
  | judgeEvery rule first others =>
      simp only [Turn.subject, Option.some.injEq, Prod.mk.injEq] at subject
      obtain ⟨rfl, rfl, rfl⟩ := subject
      refine ⟨_, _, rfl, ?_, ?_, ?_⟩
      · intro k found
        exact findIdx?_stateFor named fits_every found
      · intro crowded
        exact (memoryOf_lookAll t rule (first :: others)).symm.trans (memoryOf_of_no_place crowded)
      · intro a b
        exact (memoryOf_stateFor _ _).trans (memoryOf_lookAll t rule (first :: others))

theorem take_about (named : what.Named) (about : what.about id inst = true) :
    let o := take t what s
    what.place t s = none ∧ o.act = .nothing ∧ s.memory id inst = .fresh ∧
        o.engine.memory id inst = .fresh ∨
      (what.judgement t o.ok (s.memory id inst)).2 = o.act ∧
        o.engine.memory id inst = (what.judgement t o.ok (s.memory id inst)).1 := by
  obtain ⟨rule, label, subject, rfl⟩ := Turn.about_iff.mp about
  obtain ⟨ok, slots, eq, at', crowds, same⟩ := take_eq_settle (t := t) (s := s) named subject
  obtain ⟨isOk, crowded | judged⟩ := memory_settle_self (t := t)
    (s := ⟨slots, s.alarms⟩) rule (ruleKey rule label) (what.judgement t) ok at'
  · rw [← eq] at crowded
    have unknown := crowds crowded.1
    left
    exact ⟨crowded.1, crowded.2.1, unknown,
      (congrArg (Engine.memory · _ _) crowded.2.2).trans ((same _ _).trans unknown)⟩
  · rw [← eq] at isOk judged
    rw [Engine.memory_mk, same] at judged
    right
    rw [isOk]
    exact judged

theorem turn_apart (named : what.Named) (apart : what.about id inst = false) :
    (turn t what s).memory id inst = what.passes id (s.memory id inst) := by
  cases subject : what.subject with
  | none =>
      cases what with
      | retire gone => exact memory_retireRule gone t.wall s
      | judge rule i => simp [Turn.subject] at subject
      | judgeEvery rule first others => simp [Turn.subject] at subject
  | some found =>
      obtain ⟨rule, label, inst'⟩ := found
      obtain ⟨ok, slots, eq, at', crowds, same⟩ := take_eq_settle (t := t) (s := s) named subject
      have other : ¬(id = ruleId rule ∧ inst = inst') := by
        rintro ⟨rfl, rfl⟩
        rw [Turn.about_iff.mpr ⟨rule, label, subject, rfl⟩] at apart
        exact Bool.noConfusion apart
      have passes : what.passes id (s.memory id inst) = s.memory id inst := by
        cases what with
        | retire gone => simp [Turn.subject] at subject
        | judge rule i => rfl
        | judgeEvery rule first others => rfl
      rw [passes, turn, eq, memory_settle_ne at' other]
      exact same id inst

/-- What the turns about a rule and instance find and do, in order. -/
def outcomes (t : Tick) (id inst : String) : List Turn → Engine → List Outcome
  | [], _ => []
  | what :: rest, s =>
      let o := take t what s
      (if what.about id inst then [o] else []) ++ outcomes t id inst rest o.engine

theorem outcomes_append (first second : List Turn) :
    outcomes t id inst (first ++ second) s =
      outcomes t id inst first s ++ outcomes t id inst second (run (turn t) first s) := by
  induction first generalizing s with
  | nil => rfl
  | cons what rest ih =>
      rw [List.cons_append, outcomes, outcomes, ih, List.append_assoc]
      rfl

theorem mem_outcomes (before after : List Turn) (about : what.about id inst = true) :
    take t what (run (turn t) before s) ∈ outcomes t id inst (before ++ what :: after) s := by
  rw [outcomes_append, outcomes, if_pos about]
  exact List.mem_append_right _ List.mem_cons_self

theorem not_about_of_outcomes {list : List Turn} (none : outcomes t id inst list s = []) :
    ∀ w ∈ list, w.about id inst = false := by
  induction list generalizing s with
  | nil => exact nofun
  | cons what rest ih =>
      rw [outcomes, List.append_eq_nil_iff] at none
      rw [List.forall_mem_cons]
      refine ⟨?_, ih none.2⟩
      rw [Bool.eq_false_iff]
      intro about
      rw [if_pos about] at none
      exact absurd none.1 nofun

/-- The rule a turn is about. -/
def Turn.ofRule : Turn → String
  | .retire id => id
  | .judge rule _ => ruleId rule
  | .judgeEvery rule _ _ => ruleId rule

theorem Turn.ofRule_of_about (about : what.about id inst = true) : what.ofRule = id := by
  cases what with
  | retire gone => simp [Turn.about] at about
  | judge rule i => simp_all [Turn.about, ofRule]
  | judgeEvery rule first others => simp_all [Turn.about, ofRule]

/-- A turn that ends what a rule reports. -/
def Turn.retires (id : String) : Turn → Bool
  | .retire gone => gone == id
  | _ => false

theorem Turn.retires_iff : what.retires id = true ↔ what = .retire id := by
  cases what <;> simp [retires]

/-- A turn that neither judges a rule and instance nor retires its rule. -/
def Turn.Aside (id inst : String) (what : Turn) : Prop :=
  what.about id inst = false ∧ what ≠ .retire id

theorem Turn.Aside.lasting (aside : what.Aside id inst) : what.retires id = false := by
  rw [Bool.eq_false_iff]
  exact fun retires => aside.2 (Turn.retires_iff.mp retires)

theorem Turn.lasting_of_about (about : what.about id inst = true) : what.retires id = false := by
  cases what with
  | retire gone => simp [Turn.about] at about
  | judge rule i => rfl
  | judgeEvery rule first others => rfl

theorem Turn.aside_of_ofRule (other : what.ofRule ≠ id) : what.Aside id inst := by
  constructor
  · rw [Bool.eq_false_iff]
    exact fun about => other (ofRule_of_about about)
  · rintro rfl
    exact other rfl

theorem turn_aside (named : what.Named) (aside : what.Aside id inst) :
    (turn t what s).memory id inst = s.memory id inst := by
  rw [turn_apart named aside.1]
  cases what with
  | retire gone =>
      have other : gone ≠ id := by
        rintro rfl
        exact aside.2 rfl
      exact if_neg other
  | judge rule i => rfl
  | judgeEvery rule first others => rfl

theorem run_aside {list : List Turn} (named : ∀ w ∈ list, w.Named)
    (aside : ∀ w ∈ list, w.Aside id inst) :
    (run (turn t) list s).memory id inst = s.memory id inst ∧ outcomes t id inst list s = [] := by
  induction list generalizing s with
  | nil => exact ⟨rfl, rfl⟩
  | cons what rest ih =>
      rw [List.forall_mem_cons] at named aside
      obtain ⟨memory, none⟩ := @ih (turn t what s) named.2 aside.2
      constructor
      · rw [run_cons, memory, turn_aside named.1 aside.1]
      · rw [outcomes, aside.1.1]
        exact none

/-- The rules and the instances have names of their own, which the table keeps
whole. -/
structure Orderly (t : Tick) : Prop where
  ids : ((t.all.map ruleId).filter (· ≠ "")).Nodup
  labels : ∀ rule ∈ t.all, ((selectInstances t.status rule).map Inst.label).Nodup
  named : ∀ rule ∈ t.all, Fits (ruleId rule) ∧ ∀ i ∈ selectInstances t.status rule, Fits i.label

instance (t : Tick) : Decidable (Orderly t) :=
  decidable_of_iff (_ ∧ _ ∧ _)
    ⟨fun ⟨ids, labels, named⟩ => ⟨ids, labels, named⟩,
      fun orderly => ⟨orderly.ids, orderly.labels, orderly.named⟩⟩

theorem ruleTurns_cases (t : Tick) (slots : List Slot) (rule : Json) :
    ruleTurns t slots rule = [] ∨ ruleTurns t slots rule = [.retire (ruleId rule)] ∨
      (∃ first others, selectInstances t.status rule = first :: others ∧
        ruleTurns t slots rule = [.judgeEvery rule first others]) ∨
      ruleTurns t slots rule = (selectInstances t.status rule).map (.judge rule) := by
  rw [ruleTurns]
  split_ifs
  · exact Or.inl rfl
  · exact Or.inr (Or.inl rfl)
  · exact Or.inl rfl
  · cases matchesEvery rule with
    | false => exact Or.inr (Or.inr (Or.inr rfl))
    | true =>
        cases selectInstances t.status rule with
        | nil => exact Or.inl rfl
        | cons first others => exact Or.inr (Or.inr (Or.inl ⟨first, others, rfl, rfl⟩))

theorem ofRule_of_mem_ruleTurns {slots : List Slot} {rule : Json}
    (inside : what ∈ ruleTurns t slots rule) : what.ofRule = ruleId rule ∧ ruleId rule ≠ "" := by
  constructor
  · rcases ruleTurns_cases t slots rule with eq | eq | ⟨first, others, -, eq⟩ | eq
    · simp [eq] at inside
    · rw [eq, List.mem_singleton] at inside
      rw [inside, Turn.ofRule]
    · rw [eq, List.mem_singleton] at inside
      rw [inside, Turn.ofRule]
    · rw [eq, List.mem_map] at inside
      obtain ⟨i, -, rfl⟩ := inside
      rw [Turn.ofRule]
  · intro blank
    simp [ruleTurns, blank] at inside

theorem named_of_mem_ruleTurns (orderly : Orderly t) {slots : List Slot} {rule : Json}
    (among : rule ∈ t.all) (inside : what ∈ ruleTurns t slots rule) : what.Named := by
  obtain ⟨named, labelled⟩ := orderly.named rule among
  rcases ruleTurns_cases t slots rule with eq | eq | ⟨first, others, -, eq⟩ | eq
  · simp [eq] at inside
  · rw [eq, List.mem_singleton] at inside
    rw [inside]
    trivial
  · rw [eq, List.mem_singleton] at inside
    rw [inside]
    exact named
  · rw [eq, List.mem_map] at inside
    obtain ⟨i, selected, rfl⟩ := inside
    exact ⟨named, labelled i selected⟩

theorem named_of_mem_turns (orderly : Orderly t) (inside : what ∈ turns t s) : what.Named := by
  obtain ⟨rule, among, here⟩ := List.mem_flatMap.mp inside
  exact named_of_mem_ruleTurns orderly among here

theorem Orderly.split (orderly : Orderly t) {rule : Json} (among : rule ∈ t.all)
    (given : ruleId rule ≠ "") :
    ∃ before after, t.all = before ++ rule :: after ∧
      ∀ other ∈ before ++ after, ruleId other ≠ ruleId rule := by
  obtain ⟨before, after, eq⟩ := List.append_of_mem among
  refine ⟨before, after, eq, ?_⟩
  have once := orderly.ids
  rw [eq, List.map_append, List.map_cons, List.filter_append,
    List.filter_cons_of_pos (by simpa using given), List.nodup_middle, List.nodup_cons] at once
  intro other inside same
  apply once.1
  rw [← List.filter_append, ← List.map_append, List.mem_filter]
  exact ⟨same ▸ List.mem_map_of_mem inside, by simpa using given⟩

theorem Orderly.unique (orderly : Orderly t) {rule other : Json} (among : rule ∈ t.all)
    (amongToo : other ∈ t.all) (same : ruleId rule = ruleId other) (given : ruleId rule ≠ "") :
    rule = other := by
  obtain ⟨before, after, all, others⟩ := orderly.split among given
  rw [all] at amongToo
  by_contra different
  apply others other _ same.symm
  rcases List.mem_append.mp amongToo with inside | inside
  · exact List.mem_append_left _ inside
  · exact List.mem_append_right _ ((List.mem_cons.mp inside).resolve_left (Ne.symm different))

/-- What a tick does to the memory of a rule and instance. -/
inductive Course (t : Tick) (s : Engine) (id inst : String) : Prop where
  /-- No turn is about it. -/
  | left (aside : ∀ w ∈ turns t s, w.Aside id inst)
      (quiet : outcomes t id inst (turns t s) s = [])
      (memory : (tick t s).memory id inst = s.memory id inst)
  /-- Its rule has stopped applying. -/
  | retired (before after : List Turn) (eq : turns t s = before ++ .retire id :: after)
      (same : (run (turn t) before s).memory id inst = s.memory id inst)
      (quiet : outcomes t id inst (turns t s) s = [])
      (memory : (tick t s).memory id inst = (s.memory id inst).retired)
  /-- There is no room for it. -/
  | crowded (what : Turn) (before after : List Turn) (eq : turns t s = before ++ what :: after)
      (about : what.about id inst = true)
      (only : outcomes t id inst (turns t s) s = [take t what (run (turn t) before s)])
      (full : what.place t (run (turn t) before s) = none)
      (act : (take t what (run (turn t) before s)).act = .nothing)
      (unknown : s.memory id inst = .fresh) (memory : (tick t s).memory id inst = .fresh)
  /-- It is judged once. -/
  | judged (what : Turn) (before after : List Turn) (eq : turns t s = before ++ what :: after)
      (about : what.about id inst = true) (lasting : ∀ w ∈ turns t s, w.retires id = false)
      (only : outcomes t id inst (turns t s) s = [take t what (run (turn t) before s)])
      (judgement : what.judgement t (take t what (run (turn t) before s)).ok (s.memory id inst) =
        ((tick t s).memory id inst, (take t what (run (turn t) before s)).act))

theorem Course.of_aside (orderly : Orderly t) (aside : ∀ w ∈ turns t s, w.Aside id inst) :
    Course t s id inst := by
  obtain ⟨memory, quiet⟩ :=
    run_aside (t := t) (s := s) (fun w inside => named_of_mem_turns orderly inside) aside
  exact .left aside quiet memory

theorem Course.of_split (orderly : Orderly t) {before after : List Turn}
    (eq : turns t s = before ++ what :: after) (aside : ∀ w ∈ before, w.Aside id inst)
    (asideAfter : ∀ w ∈ after, w.Aside id inst)
    (here : what.about id inst = true ∨ what = .retire id) : Course t s id inst := by
  have named : ∀ w ∈ before ++ what :: after, w.Named := by
    intro w among
    rw [← eq] at among
    exact named_of_mem_turns orderly among
  rw [List.forall_mem_append, List.forall_mem_cons] at named
  obtain ⟨memoryBefore, quietBefore⟩ := run_aside (t := t) (s := s) named.1 aside
  obtain ⟨memoryAfter, quietAfter⟩ := run_aside (t := t)
    (s := turn t what (run (turn t) before s)) named.2.2 asideAfter
  have memory : (tick t s).memory id inst =
      (turn t what (run (turn t) before s)).memory id inst := by
    rw [tick, eq, run_append, run_cons, memoryAfter]
  have found : outcomes t id inst (turns t s) s =
      if what.about id inst then [take t what (run (turn t) before s)] else [] := by
    rw [eq, outcomes_append, quietBefore, List.nil_append, outcomes]
    exact (congrArg _ quietAfter).trans (List.append_nil _)
  rcases here with about | rfl
  · rw [if_pos about] at found
    rcases take_about (t := t) (s := run (turn t) before s) named.2.1 about with
      ⟨full, act, unknown, fresh⟩ | ⟨act, after'⟩
    · exact .crowded what before after eq about found full act (memoryBefore.symm.trans unknown)
        (memory.trans fresh)
    · rw [memoryBefore] at act after'
      have lasting : ∀ w ∈ turns t s, w.retires id = false := by
        rw [eq, List.forall_mem_append, List.forall_mem_cons]
        exact ⟨fun w inside => (aside w inside).lasting, Turn.lasting_of_about about,
          fun w inside => (asideAfter w inside).lasting⟩
      exact .judged what before after eq about lasting found
        (Prod.ext (after'.symm.trans memory.symm) act)
  · rw [turn_apart named.2.1 rfl, memoryBefore, Turn.passes, if_pos rfl] at memory
    exact .retired before after eq memoryBefore found memory

/-- A tick leaves a memory, ends what it reports or judges it once. -/
theorem course (orderly : Orderly t) (s : Engine) (id inst : String) : Course t s id inst := by
  by_cases given : ∃ rule ∈ t.all, ruleId rule = id ∧ id ≠ ""
  · obtain ⟨rule, among, rfl, given⟩ := given
    obtain ⟨before, after, all, others⟩ := orderly.split among given
    have split : turns t s = before.flatMap (ruleTurns t s.slots) ++
        (ruleTurns t s.slots rule ++ after.flatMap (ruleTurns t s.slots)) := by
      rw [turns, all, List.flatMap_append, List.flatMap_cons]
    have elsewhere : ∀ rules : List Json, (∀ other ∈ rules, ruleId other ≠ ruleId rule) →
        ∀ w ∈ rules.flatMap (ruleTurns t s.slots), w.Aside (ruleId rule) inst := by
      intro rules apart w inside
      obtain ⟨other, among, here⟩ := List.mem_flatMap.mp inside
      apply Turn.aside_of_ofRule
      rw [(ofRule_of_mem_ruleTurns here).1]
      exact apart other among
    rw [List.forall_mem_append] at others
    have asideBefore := elsewhere before others.1
    have asideAfter := elsewhere after others.2
    rcases ruleTurns_cases t s.slots rule with eq | eq | ⟨first, rest, selected, eq⟩ | eq
    · rw [eq, List.nil_append] at split
      apply Course.of_aside orderly
      rw [split, List.forall_mem_append]
      exact ⟨asideBefore, asideAfter⟩
    · rw [eq] at split
      exact .of_split orderly split asideBefore asideAfter (Or.inr rfl)
    · rw [eq] at split
      by_cases every : inst = "*"
      · exact .of_split orderly split asideBefore asideAfter
          (Or.inl (by simp [Turn.about, every]))
      · apply Course.of_aside orderly
        rw [split, List.forall_mem_append, List.singleton_append, List.forall_mem_cons]
        exact ⟨asideBefore, ⟨by simp [Turn.about, every], nofun⟩, asideAfter⟩
    · by_cases selected : ∃ i ∈ selectInstances t.status rule, i.label = inst
      · obtain ⟨i, selected, rfl⟩ := selected
        obtain ⟨first, last, insts⟩ := List.append_of_mem selected
        have once := orderly.labels rule among
        rw [insts, List.map_append, List.map_cons, List.nodup_middle, List.nodup_cons,
          ← List.map_append] at once
        have asideOthers : ∀ list : List Inst, (∀ j ∈ list, j.label ≠ i.label) →
            ∀ w ∈ list.map (Turn.judge rule), w.Aside (ruleId rule) i.label := by
          intro list apart w inside
          obtain ⟨j, among, rfl⟩ := List.mem_map.mp inside
          exact ⟨by simp [Turn.about, apart j among], nofun⟩
        have apart : ∀ j ∈ first ++ last, j.label ≠ i.label := by
          intro j inside same
          exact once.1 (same ▸ List.mem_map_of_mem inside)
        rw [List.forall_mem_append] at apart
        rw [eq, insts, List.map_append, List.map_cons, List.append_assoc, List.cons_append,
          ← List.append_assoc] at split
        refine .of_split orderly split ?_ ?_ (Or.inl (by simp [Turn.about]))
        · exact List.forall_mem_append.mpr ⟨asideBefore, asideOthers first apart.1⟩
        · exact List.forall_mem_append.mpr ⟨asideOthers last apart.2, asideAfter⟩
      · apply Course.of_aside orderly
        rw [split, eq, List.forall_mem_append, List.forall_mem_append]
        refine ⟨asideBefore, ?_, asideAfter⟩
        intro w inside
        obtain ⟨i, among, rfl⟩ := List.mem_map.mp inside
        have other : i.label ≠ inst := fun same => selected ⟨i, among, same⟩
        exact ⟨by simp [Turn.about, other], nofun⟩
  · apply Course.of_aside orderly
    intro w inside
    obtain ⟨rule, among, here⟩ := List.mem_flatMap.mp inside
    obtain ⟨ofRule, nonempty⟩ := ofRule_of_mem_ruleTurns here
    apply Turn.aside_of_ofRule
    rw [ofRule]
    rintro rfl
    exact given ⟨rule, among, rfl, nonempty⟩

end PiFire.Rules
