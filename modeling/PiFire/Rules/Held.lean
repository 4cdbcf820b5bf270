import PiFire.Rules.Watch

/-!
# Unbroken holds

A rule that asks to be held fires only after its condition has been true at
every tick of the hold. The start of a hold is kept for a rule and instance and
is dropped only by a tick that judges them or ends a report; so the law holds of
the runs in which no tick passes over a hold that has started.
-/

namespace PiFire.Rules

open Transition

/-- A tick attends to a rule and instance: it judges them, or ends what is
reported of them. -/
def Attends (t : Tick) (s : Engine) (st : Slot) : Prop :=
  (∃ what ∈ turns t s, what.about st.rule st.inst = true) ∨
    st.raised = true ∧ ∃ what ∈ turns t s, what.retires st.rule = true

instance (t : Tick) (s : Engine) (st : Slot) : Decidable (Attends t s st) :=
  inferInstanceAs (Decidable ((∃ what ∈ _, _) ∨ _ ∧ ∃ what ∈ _, _))

/-- The rules and instances of a tick have names of their own, which the table
keeps whole, and the tick attends to every hold that has started. -/
def Attended : Input → Watch → Prop
  | .tick t, w => Orderly t ∧ ∀ st ∈ w.engine.slots, st.heldSince ≠ 0 → Attends t w.engine st
  | .desk _ _, _ => True

instance : ∀ i w, Decidable (Attended i w)
  | .tick _, _ => inferInstanceAs (Decidable (_ ∧ ∀ st ∈ _, _))
  | .desk _ _, _ => .isTrue trivial

/-- A rule with a hold that fires applied to the instance, with its condition
true, at every tick of the hold. -/
def UnbrokenHold : Input → Watch → Prop
  | .tick t, w => ∀ rule ∈ t.all, ∀ inst,
      0 < (termsOf rule).hold → Sample.Fires ⟨t, w.engine⟩ (ruleId rule) inst →
        ∀ x ∈ Sample.mk t w.engine :: w.seen, t.now - (termsOf rule).hold < x.now →
          x.Saw (ruleId rule) inst
  | .desk _ _, _ => True

/-- The start of every hold is right. -/
def HoldsRight (w : Watch) : Prop :=
  Ordered w.seen ∧ ∀ id inst,
    Stamps (· = 0) Sample.now (fun x _ => x.Saw id inst) (w.engine.memory id inst).heldSince w.seen

theorem HoldsRight.step {i : Input} {w : Watch} (right : HoldsRight w) (clocked : Clocked i w)
    (attended : Attended i w) : HoldsRight (step i w) := by
  refine ⟨right.1.step clocked, ?_⟩
  cases i with
  | desk wall work => exact right.2
  | tick t =>
      intro id inst
      have before := right.2 id inst
      cases course attended.1 w.engine id inst with
      | left aside quiet memory =>
          intro set
          rw [Rules.step, memory] at set
          obtain ⟨st, among, rfl, rfl, remembered⟩ := exists_slot (fun fresh => set (congrArg Memory.heldSince fresh))
          rw [← remembered] at set
          rcases attended.2 st among set with ⟨what, inside, about⟩ | ⟨-, what, inside, retires⟩
          · rw [(aside what inside).1] at about
            exact Bool.noConfusion about
          · exact absurd (Turn.retires_iff.mp retires) (aside what inside).2
      | retired _ _ _ _ quiet memory =>
          intro set
          rw [Rules.step, memory] at set
          cases reporting : (w.engine.memory id inst).raised with
          | true =>
              rw [Memory.retired_of_raised reporting] at set
              exact absurd rfl set
          | false =>
              rw [Memory.retired_of_not_raised reporting] at set
              obtain ⟨st, among, rfl, rfl, remembered⟩ := exists_slot (fun fresh => set (congrArg Memory.heldSince fresh))
              rw [← remembered] at set reporting
              rcases attended.2 st among set with ⟨what, inside, about⟩ | ⟨raised, -⟩
              · rw [not_about_of_outcomes quiet what inside] at about
                exact Bool.noConfusion about
              · rw [reporting] at raised
                exact Bool.noConfusion raised
      | crowded _ _ _ _ _ _ _ _ _ memory =>
          intro set
          rw [Rules.step, memory] at set
          exact absurd rfl set
      | judged what first last eq about _ only judgement =>
          intro set
          obtain ⟨rule, label, subject, -⟩ := Turn.about_iff.mp about
          have memory : (what.judgement t (take t what (run (turn t) first w.engine)).ok
              (w.engine.memory id inst)).1 = (tick t w.engine).memory id inst :=
            congrArg Prod.fst judgement
          cases ok : (take t what (run (turn t) first w.engine)).ok with
          | false =>
              rw [ok] at memory
              rw [Rules.step, ← memory, (judgement_false subject).1] at set
              exact absurd rfl set
          | true =>
              have saw : Sample.Saw ⟨t, w.engine⟩ id inst := by
                rw [Sample.Saw, Sample.outcomes, only]
                exact ⟨nofun, fun o here => by rw [List.mem_singleton.mp here, ok]⟩
              rw [ok] at memory
              rw [Rules.step, ← memory, judgement_heldSince subject] at set ⊢
              have started := before.sample (s := ⟨t, w.engine⟩) rfl fun _ : True => saw
              rw [if_pos trivial] at started
              exact started set

theorem HoldsRight.unbroken {i : Input} {w : Watch} (right : HoldsRight w)
    (attended : Attended i w) : UnbrokenHold i w := by
  cases i with
  | desk wall work => trivial
  | tick t =>
      intro rule among inst asks fires
      obtain ⟨o, inside, fired⟩ := fires
      rw [Sample.outcomes] at inside
      cases course attended.1 w.engine (ruleId rule) inst with
      | left _ quiet _ => simp [quiet] at inside
      | retired _ _ _ _ quiet _ => simp [quiet] at inside
      | crowded _ _ _ _ _ only _ act =>
          rw [only, List.mem_singleton] at inside
          rw [inside, act] at fired
          exact absurd fired Bool.false_ne_true
      | judged what first last eq about _ only judgement =>
          rw [only, List.mem_singleton] at inside
          obtain rfl := inside
          have turned : what ∈ turns t w.engine := by
            rw [eq]
            exact List.mem_append_right _ List.mem_cons_self
          obtain ⟨label, subject⟩ := subject_of_about attended.1 among turned about
          have act : (what.judgement t (take t what (run (turn t) first w.engine)).ok
              (w.engine.memory (ruleId rule) inst)).2 =
                (take t what (run (turn t) first w.engine)).act := congrArg Prod.snd judgement
          rw [← act] at fired
          obtain ⟨ok, held, -⟩ := judgement_fires subject fired
          rw [ok, judgement_heldSince subject] at held
          have saw : Sample.Saw ⟨t, w.engine⟩ (ruleId rule) inst := by
            rw [Sample.Saw, Sample.outcomes, only]
            exact ⟨nofun, fun o here => by rw [List.mem_singleton.mp here, ok]⟩
          have started : (w.engine.memory (ruleId rule) inst).heldSince ≠ 0 := by
            intro unset
            rw [if_pos unset, sub_self] at held
            exact absurd held (not_le.mpr asks)
          rw [if_neg started] at held
          intro x inside within
          rcases List.mem_cons.mp inside with rfl | earlier
          · exact saw
          · apply HeldSince.of_after (right.2 (ruleId rule) inst started) right.1 x earlier
            linarith

theorem HoldsRight.start : HoldsRight .start := ⟨.nil, fun _ _ => .cleared rfl []⟩

/-- In every run whose ticks attend to the holds that have started, a rule with a
hold fires only after an unbroken one. -/
theorem holds_unbroken (inputs : List Input) (clocked : Along step Clocked inputs .start)
    (attended : Along step Attended inputs .start) :
    Along step UnbrokenHold inputs .start := by
  apply Along.strengthen HoldsRight _ _ HoldsRight.start (clocked.and attended)
  · intro i w right ok
    exact right.step ok.1 ok.2
  · intro i w right ok
    exact right.unbroken ok.2

/-- A rule about a pit over two hundred degrees for a minute. -/
def hotForAMinute : Json := Pit.rule "hot" 200 [("for_s", .num 60)]

/-- A tick that finds the pit at 250 degrees. -/
def hotTick (mode : String) (now : ℚ) : Tick := Pit.tick [hotForAMinute] mode 250 now

/-- The rule fires after a minute of cooking at every tick. -/
theorem holds_unbroken_on_bench :
    Along step UnbrokenHold
        [.tick (hotTick "Hold" 10), .tick (hotTick "Hold" 40), .tick (hotTick "Hold" 80)] .start ∧
      Sample.Fires ⟨hotTick "Hold" 80, (run step
        [.tick (hotTick "Hold" 10), .tick (hotTick "Hold" 40)] .start).engine⟩ "hot" "grill" :=
  ⟨holds_unbroken _ (by decide +kernel) (by decide +kernel), by decide +kernel⟩

/-- A minute of cooking, most of it in Stop, is taken for a hold. -/
theorem hold_with_a_gap :
    ¬∀ inputs, Along step Clocked inputs .start → Along step UnbrokenHold inputs .start := by
  intro always
  have unbroken := always
    [.tick (hotTick "Hold" 10), .tick (hotTick "Stop" 40), .tick (hotTick "Hold" 80)]
    (by decide)
  have fires : Sample.Fires ⟨hotTick "Hold" 80, (run step
      [.tick (hotTick "Hold" 10), .tick (hotTick "Stop" 40)] .start).engine⟩ "hot" "grill" := by
    decide +kernel
  have saw : Sample.Saw ⟨hotTick "Stop" 40, (run step [.tick (hotTick "Hold" 10)] .start).engine⟩
      "hot" "grill" :=
    unbroken.2.2.1 hotForAMinute (List.mem_singleton_self _) "grill" (by decide) fires _
      (List.mem_cons_of_mem _ List.mem_cons_self) (by decide +kernel)
  revert saw
  decide

end PiFire.Rules
