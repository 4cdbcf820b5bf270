import PiFire.Rules.Course
import PiFire.Transition.Timed

/-!
# Judgements

What judging a rule does to the memory of one instance, by whether its condition
was true.
-/

namespace PiFire.Rules

open Transition

namespace Memory

variable (terms : Terms) (now : ℚ) (m : Memory)

theorem speak_cases :
    m.speak terms now = (m, .nothing) ∧
        (now - m.heldSince < terms.hold ∨ m.armed = false ∨
          0 < m.lastFired ∧ now - m.lastFired < terms.cooldown) ∨
      m.speak terms now =
          ({ m with armed := false, lastFired := now, raised := true }, .fire !m.armed) ∧
        terms.hold ≤ now - m.heldSince ∧ (m.armed = true ∨ 0 < terms.again) := by
  rw [speak]
  split_ifs with short idle cooling
  · exact Or.inl ⟨rfl, Or.inl short⟩
  · refine Or.inl ⟨rfl, Or.inr (Or.inl ?_)⟩
    cases armed : m.armed with
    | false => rfl
    | true => simp [armed] at idle
  · exact Or.inl ⟨rfl, Or.inr (Or.inr cooling)⟩
  · refine Or.inr ⟨rfl, not_lt.mp short, ?_⟩
    cases armed : m.armed with
    | true => exact Or.inl rfl
    | false =>
        simp only [armed, Bool.false_or, Bool.not_eq_true, Bool.not_eq_false', Bool.and_eq_true,
          decide_eq_true_eq] at idle
        exact Or.inr idle.1

theorem lost_cases :
    (m.lost terms now).1.heldSince = 0 ∧ (m.lost terms now).1.armed = true ∧
      (m.lost terms now).1.lastFired = m.lastFired ∧
      ((m.lost terms now).2 = .clear ∧ (m.lost terms now).1.raised = false ∧
          (m.lost terms now).1.falseSince = 0 ∨
        (m.lost terms now).2 = .nothing ∧ (m.lost terms now).1.raised = m.raised ∧
          (m.raised = true →
            (m.lost terms now).1.falseSince = (if m.falseSince = 0 then now else m.falseSince) ∧
              now - (m.lost terms now).1.falseSince < terms.clearAfter) ∧
          (m.raised = false → (m.lost terms now).1.falseSince = m.falseSince)) := by
  rw [lost]
  simp only
  split_ifs with raised unset isOver isOver
  · exact ⟨rfl, rfl, rfl, Or.inl ⟨rfl, rfl, rfl⟩⟩
  · refine ⟨rfl, rfl, rfl, Or.inr ⟨rfl, rfl, fun _ => ⟨rfl, not_le.mp isOver⟩, ?_⟩⟩
    intro quiet
    rw [quiet] at raised
    exact Bool.noConfusion raised
  · exact ⟨rfl, rfl, rfl, Or.inl ⟨rfl, rfl, rfl⟩⟩
  · refine ⟨rfl, rfl, rfl, Or.inr ⟨rfl, rfl, fun _ => ⟨rfl, not_le.mp isOver⟩, fun _ => rfl⟩⟩
  · exact ⟨rfl, rfl, rfl, Or.inr ⟨rfl, rfl, fun reporting => absurd reporting raised, fun _ => rfl⟩⟩
  · exact ⟨rfl, rfl, rfl, Or.inr ⟨rfl, rfl, fun reporting => absurd reporting raised, fun _ => rfl⟩⟩

theorem lostEvery_cases :
    m.lostEvery.1.heldSince = 0 ∧ m.lostEvery.1.armed = true ∧
      m.lostEvery.1.lastFired = m.lastFired ∧ m.lostEvery.1.raised = false ∧
      m.lostEvery.1.falseSince = m.falseSince ∧
      m.lostEvery.2 = if m.raised then .clear else .nothing := by
  rw [lostEvery]
  simp only
  cases raised : m.raised <;> exact ⟨rfl, rfl, rfl, by simp, rfl, rfl⟩

theorem retired_of_not_raised {m : Memory} (quiet : m.raised = false) : m.retired = m := by
  simp [retired, quiet]

theorem retired_of_raised {m : Memory} (raised : m.raised = true) :
    m.retired = { m with raised := false, heldSince := 0, falseSince := 0, armed := true } := by
  simp [retired, raised]

end Memory

section Judgement

variable {t : Tick} {what : Turn} {m : Memory} {rule : Json} {label inst : String}

theorem judgement_true (subject : what.subject = some (rule, label, inst)) :
    ∃ falseSince, (falseSince = 0 ∨ falseSince = m.falseSince) ∧
      what.judgement t true m = Memory.speak (termsOf rule) t.now
        { m with heldSince := if m.heldSince = 0 then t.now else m.heldSince,
                 falseSince := falseSince } := by
  cases what with
  | retire gone => simp [Turn.subject] at subject
  | judge rule i =>
      simp only [Turn.subject, Option.some.injEq, Prod.mk.injEq] at subject
      obtain ⟨rfl, rfl, rfl⟩ := subject
      exact ⟨0, Or.inl rfl, rfl⟩
  | judgeEvery rule first others =>
      simp only [Turn.subject, Option.some.injEq, Prod.mk.injEq] at subject
      obtain ⟨rfl, rfl, rfl⟩ := subject
      exact ⟨m.falseSince, Or.inr rfl, rfl⟩

theorem judgement_heldSince (subject : what.subject = some (rule, label, inst)) :
    (what.judgement t true m).1.heldSince = if m.heldSince = 0 then t.now else m.heldSince := by
  obtain ⟨falseSince, -, eq⟩ := judgement_true (t := t) (m := m) subject
  rw [eq]
  rcases Memory.speak_cases (termsOf rule) t.now _ with ⟨quiet, -⟩ | ⟨spoken, -⟩
  · rw [quiet]
  · rw [spoken]

theorem judgement_false (subject : what.subject = some (rule, label, inst)) :
    (what.judgement t false m).1.heldSince = 0 ∧ (what.judgement t false m).1.armed = true ∧
      (what.judgement t false m).1.lastFired = m.lastFired ∧
      (what.judgement t false m).2.fires = false := by
  cases what with
  | retire gone => simp [Turn.subject] at subject
  | judge rule i =>
      obtain ⟨held, armed, fired, ⟨act, -⟩ | ⟨act, -⟩⟩ := m.lost_cases (termsOf rule) t.now
      · exact ⟨held, armed, fired, congrArg Act.fires act⟩
      · exact ⟨held, armed, fired, congrArg Act.fires act⟩
  | judgeEvery rule first others =>
      obtain ⟨held, armed, fired, -, -, act⟩ := m.lostEvery_cases
      refine ⟨held, armed, fired, (congrArg Act.fires act).trans ?_⟩
      cases m.raised <;> rfl

/-- A rule that fires has been held since the start of the hold, and is armed or
repeats; the memory says so afterwards. -/
theorem judgement_fires (subject : what.subject = some (rule, label, inst)) {ok : Bool}
    (fires : (what.judgement t ok m).2.fires = true) :
    ok = true ∧ (termsOf rule).hold ≤ t.now - (what.judgement t ok m).1.heldSince ∧
      (m.armed = true ∨ 0 < (termsOf rule).again) ∧
      (what.judgement t ok m).1.armed = false ∧ (what.judgement t ok m).1.lastFired = t.now ∧
      (what.judgement t ok m).1.raised = true := by
  cases ok with
  | false =>
      rw [(judgement_false subject).2.2.2] at fires
      exact Bool.noConfusion fires
  | true =>
      obtain ⟨falseSince, -, eq⟩ := judgement_true (t := t) (m := m) subject
      rw [eq] at fires ⊢
      rcases Memory.speak_cases (termsOf rule) t.now _ with ⟨quiet, -⟩ | ⟨spoken, held, due⟩
      · rw [quiet] at fires
        exact Bool.noConfusion fires
      · rw [spoken]
        exact ⟨rfl, held, due, rfl, rfl, rfl⟩

/-- A rule that does not fire on a true condition is left as armed as it was;
then it has not been held, is not armed, or has not cooled down. -/
theorem judgement_quiet (subject : what.subject = some (rule, label, inst))
    (quiet : (what.judgement t true m).2.fires = false) :
    (what.judgement t true m).1.armed = m.armed ∧
      (what.judgement t true m).1.lastFired = m.lastFired ∧
      (what.judgement t true m).1.raised = m.raised ∧
      (t.now - (what.judgement t true m).1.heldSince < (termsOf rule).hold ∨ m.armed = false ∨
        0 < m.lastFired ∧ t.now - m.lastFired < (termsOf rule).cooldown) := by
  obtain ⟨falseSince, -, eq⟩ := judgement_true (t := t) (m := m) subject
  rw [eq] at quiet ⊢
  rcases Memory.speak_cases (termsOf rule) t.now _ with ⟨silent, why⟩ | ⟨spoken, -⟩
  · rw [silent]
    exact ⟨rfl, rfl, rfl, why⟩
  · rw [spoken] at quiet
    exact Bool.noConfusion quiet

/-- A report that outlives a false condition has been stamped with the time it
became false, and has not outlived its delay. -/
theorem judgement_outlives (subject : what.subject = some (rule, label, inst))
    (raised : (what.judgement t false m).1.raised = true) :
    m.raised = true ∧ (what.judgement t false m).2 = .nothing ∧
      (what.judgement t false m).1.falseSince =
        (if m.falseSince = 0 then t.now else m.falseSince) ∧
      t.now - (what.judgement t false m).1.falseSince < (termsOf rule).clearAfter := by
  cases what with
  | retire gone => simp [Turn.subject] at subject
  | judge rule i =>
      simp only [Turn.subject, Option.some.injEq, Prod.mk.injEq] at subject
      obtain ⟨rfl, rfl, rfl⟩ := subject
      obtain ⟨-, -, -, ⟨-, quiet, -⟩ | ⟨act, same, stamped, -⟩⟩ :=
        m.lost_cases (termsOf rule) t.now
      · exact absurd (quiet.symm.trans raised) Bool.false_ne_true
      · have before := same.symm.trans raised
        exact ⟨before, act, stamped before⟩
  | judgeEvery rule first others =>
      obtain ⟨-, -, -, quiet, -⟩ := m.lostEvery_cases
      exact absurd (quiet.symm.trans raised) Bool.false_ne_true

theorem judgement_falseSince (subject : what.subject = some (rule, label, inst)) (ok : Bool) :
    (what.judgement t ok m).1.falseSince = 0 ∨
      (what.judgement t ok m).1.falseSince = m.falseSince ∨
      (what.judgement t ok m).1.falseSince = t.now := by
  cases ok with
  | true =>
      obtain ⟨falseSince, from', eq⟩ := judgement_true (t := t) (m := m) subject
      rw [eq]
      rcases Memory.speak_cases (termsOf rule) t.now _ with ⟨quiet, -⟩ | ⟨spoken, -⟩
      · rw [quiet]
        exact from'.imp_right Or.inl
      · rw [spoken]
        exact from'.imp_right Or.inl
  | false =>
      cases what with
      | retire gone => simp [Turn.subject] at subject
      | judge rule i =>
          obtain ⟨-, -, -, ⟨-, -, unset⟩ | ⟨-, -, stamped, unstamped⟩⟩ :=
            m.lost_cases (termsOf rule) t.now
          · exact Or.inl unset
          · cases raised : m.raised with
            | false => exact Or.inr (Or.inl (unstamped raised))
            | true =>
                have same := (stamped raised).1
                split_ifs at same
                · exact Or.inr (Or.inr same)
                · exact Or.inr (Or.inl same)
      | judgeEvery rule first others =>
          obtain ⟨-, -, -, -, same, -⟩ := m.lostEvery_cases
          exact Or.inr (Or.inl same)

theorem judgement_raised (subject : what.subject = some (rule, label, inst)) {ok : Bool}
    (raised : m.raised = true) (kept : (what.judgement t ok m).2 ≠ .clear) :
    (what.judgement t ok m).1.raised = true := by
  cases ok with
  | true =>
      obtain ⟨falseSince, -, eq⟩ := judgement_true (t := t) (m := m) subject
      rw [eq]
      rcases Memory.speak_cases (termsOf rule) t.now _ with ⟨quiet, -⟩ | ⟨spoken, -⟩
      · rw [quiet]
        exact raised
      · rw [spoken]
  | false =>
      cases what with
      | retire gone => simp [Turn.subject] at subject
      | judge rule i =>
          obtain ⟨-, -, -, ⟨cleared, -⟩ | ⟨-, same, -⟩⟩ := m.lost_cases (termsOf rule) t.now
          · exact absurd cleared kept
          · exact same.trans raised
      | judgeEvery rule first others =>
          obtain ⟨-, -, -, -, -, act⟩ := m.lostEvery_cases
          rw [if_pos raised] at act
          exact absurd act kept

end Judgement

theorem subject_of_about {t : Tick} {s : Engine} {what : Turn} {rule : Json} {inst : String}
    (orderly : Orderly t) (among : rule ∈ t.all) (inside : what ∈ turns t s)
    (about : what.about (ruleId rule) inst = true) :
    ∃ label, what.subject = some (rule, label, inst) := by
  obtain ⟨judged, label, subject, same⟩ := Turn.about_iff.mp about
  obtain ⟨owner, owned, here⟩ := List.mem_flatMap.mp inside
  have given := (ofRule_of_mem_ruleTurns here).2
  have isOwner : judged = owner := by
    rcases ruleTurns_cases t s.slots owner with eq | eq | ⟨first, others, -, eq⟩ | eq
    · simp [eq] at here
    · rw [eq, List.mem_singleton] at here
      simp [here, Turn.subject] at subject
    · rw [eq, List.mem_singleton] at here
      simp only [here, Turn.subject, Option.some.injEq, Prod.mk.injEq] at subject
      exact subject.1.symm
    · rw [eq] at here
      obtain ⟨i, -, rfl⟩ := List.mem_map.mp here
      simp only [Turn.subject, Option.some.injEq, Prod.mk.injEq] at subject
      exact subject.1.symm
  rw [isOwner] at same
  have isRule : owner = rule := orderly.unique owned among same given
  rw [isOwner, isRule] at subject
  exact ⟨label, subject⟩

theorem exists_slot {s : Engine} {id inst : String} (known : s.memory id inst ≠ .fresh) :
    ∃ st ∈ s.slots, st.rule = id ∧ st.inst = inst ∧ st.toMemory = s.memory id inst := by
  rw [Engine.memory, memoryOf] at known
  cases found : slotOf s.slots id inst with
  | none =>
      rw [found] at known
      exact absurd rfl known
  | some st =>
      obtain ⟨rule, instance'⟩ := Slot.isFor_iff.mp (List.find?_some found)
      refine ⟨st, List.mem_of_find?_eq_some found, rule, instance', ?_⟩
      rw [Engine.memory, memoryOf, found]
      rfl

end PiFire.Rules

/-!
# Watching the rule engine

The engine runs through ticks, and between them others acknowledge, shelve and
raise alarms of their own. The run is watched: every tick is kept with the
engine it found, newest first.
-/

namespace PiFire.Rules

open Transition

/-- What others do to the alarm table: people acknowledge and shelve, and the
rest of the program raises, clears and notes alarms of its own. -/
inductive Desk where
  | ack (key : String)
  | ackAll
  | shelve (key : String) (seconds : ℚ)
  | raise (key : String) (crit : Crit)
  | clear (key : String)
  | note (key : String) (crit : Crit)

def Desk.work (wall : ℚ) (alarms : AlarmTable) : Desk → AlarmTable
  | .ack key => alarms.ack key wall
  | .ackAll => alarms.ackAll wall
  | .shelve key seconds => alarms.shelve key seconds wall
  | .raise key crit => (alarms.raise key crit wall).2
  | .clear key => alarms.clear key wall
  | .note key crit => alarms.note key crit wall

/-- What happens next. -/
inductive Input where
  | tick (t : Tick)
  | desk (wall : ℚ) (work : Desk)

/-- A tick with the engine it found. -/
structure Sample where
  tick : Tick
  before : Engine

/-- The engine and the ticks it has had. -/
structure Watch where
  engine : Engine
  seen : List Sample

/-- Nothing has happened since start-up. -/
def Watch.start : Watch := ⟨.init, []⟩

def step : Input → Watch → Watch
  | .tick t, w => ⟨tick t w.engine, ⟨t, w.engine⟩ :: w.seen⟩
  | .desk wall work, w => ⟨⟨w.engine.slots, work.work wall w.engine.alarms⟩, w.seen⟩

namespace Sample

variable (x : Sample) (id inst : String)

/-- The clock a tick reads. -/
def now : ℚ := x.tick.now

/-- What the tick found and did about a rule and instance. -/
def outcomes : List Outcome := Rules.outcomes x.tick id inst (turns x.tick x.before) x.before

/-- The rule applied to the instance and its condition was true. -/
def Saw : Prop := x.outcomes id inst ≠ [] ∧ ∀ o ∈ x.outcomes id inst, o.ok = true

instance : Decidable (x.Saw id inst) := inferInstanceAs (Decidable (_ ∧ _))

/-- The rule fired for the instance. -/
def Fires : Prop := ∃ o ∈ x.outcomes id inst, o.act.fires = true

instance : Decidable (x.Fires id inst) := inferInstanceAs (Decidable (∃ o ∈ _, _))

/-- A message was sent for the rule and the instance. -/
def Sent : Prop := ∃ o ∈ x.outcomes id inst, o.sent = true

instance : Decidable (x.Sent id inst) := inferInstanceAs (Decidable (∃ o ∈ _, _))

/-- The condition was false, or the rule was retired. -/
def Lapsed : Prop :=
  (∃ o ∈ x.outcomes id inst, o.ok = false) ∨ ∃ what ∈ turns x.tick x.before, what.retires id = true

instance : Decidable (x.Lapsed id inst) :=
  inferInstanceAs (Decidable ((∃ o ∈ _, _) ∨ ∃ what ∈ _, _))

end Sample

/-- The clock does not go back. -/
def Clocked : Input → Watch → Prop
  | .tick t, w => ∀ x ∈ w.seen, x.now ≤ t.now
  | .desk _ _, _ => True

instance : ∀ i w, Decidable (Clocked i w)
  | .tick _, _ => inferInstanceAs (Decidable (∀ x ∈ _, _))
  | .desk _ _, _ => .isTrue trivial

/-- The clock has left zero, which stands for no time, and does not go back. -/
def Ticking : Input → Watch → Prop
  | .tick t, w => 0 < t.now ∧ ∀ x ∈ w.seen, x.now ≤ t.now
  | .desk _ _, _ => True

instance : ∀ i w, Decidable (Ticking i w)
  | .tick _, _ => inferInstanceAs (Decidable (_ ∧ ∀ x ∈ _, _))
  | .desk _ _, _ => .isTrue trivial

/-- Samples whose times never go back, newest first. -/
def Ordered (seen : List Sample) : Prop := seen.Pairwise fun later earlier => earlier.now ≤ later.now

theorem Ordered.step {i : Input} {w : Watch} (ordered : Ordered w.seen) (clocked : Clocked i w) :
    Ordered (step i w).seen := by
  cases i with
  | tick t => exact List.pairwise_cons.mpr ⟨clocked, ordered⟩
  | desk wall work => exact ordered

namespace Pit

/-- A rule about a pit over a temperature. -/
def rule (id : String) (isOver : ℚ) (more : List (String × Json)) : Json :=
  .obj ([("id", .str id), ("enabled", .bool true),
    ("when", .obj [("trait", .str "temp"), ("op", .str ">"), ("value", .num isOver)])] ++ more)

/-- A tick that finds the pit at a temperature. -/
def tick (rules : List Json) (mode : String) (temp now : ℚ) : Tick :=
  ⟨.arr rules, .obj [("mode", .str mode),
    ("probes", .arr [.obj [("role", .str "Primary"), ("label", .str "pit"), ("temp", .num temp)]])],
    now, now⟩

end Pit

end PiFire.Rules
