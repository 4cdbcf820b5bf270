import PiFire.Rules.Watch

/-!
# Edges

A rule sends once when its condition becomes true and is quiet until the
condition has been false or the rule has been retired. A rule and instance whose
state is found again at the next tick is armed exactly while it has not fired
since then; so the law holds of the runs in which every rule and instance has a
state of its own.
-/

namespace PiFire.Rules

open Transition

/-- The rule has fired for the instance since its condition was last false or
the rule was last retired. -/
def FiredSince (id inst : String) : List Sample → Prop
  | [] => False
  | x :: earlier => x.Fires id inst ∨ ¬x.Lapsed id inst ∧ FiredSince id inst earlier

/-- Between two messages of a rule for an instance, without a repeat, the rule
lapsed; and a condition that stays true has fired once its hold and the cooldown
of what fired before have run. -/
def EdgeTriggered : Input → Watch → Prop
  | .tick t, w => ∀ rule ∈ t.all, ∀ inst,
      let this := Sample.mk t w.engine
      ((termsOf rule).again = 0 →
        ((this.outcomes (ruleId rule) inst).countP Outcome.sent ≤ 1) ∧
        (this.Sent (ruleId rule) inst → ∀ recent past earlier,
          w.seen = recent ++ past :: earlier → past.Sent (ruleId rule) inst →
            ∃ x ∈ recent, x.Lapsed (ruleId rule) inst)) ∧
      ∀ since, since ≤ t.now - (termsOf rule).hold →
        HeldSince Sample.now (fun x _ => x.Saw (ruleId rule) inst) since (this :: w.seen) →
        (∀ x ∈ w.seen, x.Fires (ruleId rule) inst → x.now ≤ t.now - (termsOf rule).cooldown) →
        FiredSince (ruleId rule) inst (this :: w.seen)
  | .desk _ _, _ => True

/-- Every rule and instance that is judged has a state of its own: the names are
their own and are kept whole, and the table has room. -/
def Placed : Input → Watch → Prop
  | .tick t, w => Orderly t ∧
      Along (turn t) (fun what s => what.subject.isSome → (what.place t s).isSome)
        (turns t w.engine) w.engine
  | .desk _ _, _ => True

instance : ∀ i w, Decidable (Placed i w)
  | .tick _, _ => inferInstanceAs (Decidable (_ ∧ Along _ _ _ _))
  | .desk _ _, _ => .isTrue trivial

/-- The state of a rule and instance says what the ticks have seen: it is armed
while nothing has fired since the last lapse, its times are times of ticks, and
its hold started no later than the condition became true. -/
structure Tells (m : Memory) (id inst : String) (seen : List Sample) : Prop where
  armed : m.armed = false ↔ FiredSince id inst seen
  raised : m.armed = false → m.raised = true
  fired : m.lastFired = 0 ∨ ∃ x ∈ seen, x.Fires id inst ∧ x.now = m.lastFired
  started : m.heldSince = 0 ∨ ∃ x ∈ seen, x.now = m.heldSince
  held : ∀ since, HeldSince Sample.now (fun x _ => x.Saw id inst) since seen →
    m.heldSince ≠ 0 ∧ m.heldSince ≤ since

theorem Tells.fresh (id inst : String) : Tells .fresh id inst [] where
  armed := by simp [Memory.fresh, FiredSince]
  raised := nofun
  fired := Or.inl rfl
  started := Or.inl rfl
  held := nofun

variable {m : Memory} {id inst : String} {seen : List Sample} {x : Sample}

theorem Tells.skip (tells : Tells m id inst seen) (quiet : x.outcomes id inst = [])
    (kept : ∀ what ∈ turns x.tick x.before, what.retires id = false) :
    Tells m id inst (x :: seen) where
  armed := by
    have silent : ¬x.Fires id inst := by simp [Sample.Fires, quiet]
    have lasting : ¬x.Lapsed id inst := by
      rintro (⟨o, inside, -⟩ | ⟨what, inside, retires⟩)
      · simp [quiet] at inside
      · rw [kept what inside] at retires
        exact Bool.noConfusion retires
    simp only [FiredSince, silent, lasting, false_or, not_false_eq_true, true_and]
    exact tells.armed
  raised := tells.raised
  fired := tells.fired.imp_right fun ⟨y, inside, fires⟩ =>
    ⟨y, List.mem_cons_of_mem x inside, fires⟩
  started := tells.started.imp_right fun ⟨y, inside, begun⟩ =>
    ⟨y, List.mem_cons_of_mem x inside, begun⟩
  held := by
    intro since holds
    exact absurd quiet (heldSince_cons.mp holds).1.1

theorem Tells.retire (tells : Tells m id inst seen) (quiet : x.outcomes id inst = [])
    (ends : ∃ what ∈ turns x.tick x.before, what.retires id = true) :
    Tells m.retired id inst (x :: seen) := by
  have silent : ¬x.Fires id inst := by simp [Sample.Fires, quiet]
  have lapsed : x.Lapsed id inst := Or.inr ends
  have none' : ∀ since, ¬HeldSince Sample.now (fun x _ => x.Saw id inst) since (x :: seen) :=
    fun since holds => (heldSince_cons.mp holds).1.1 quiet
  have rearmed : m.retired.armed = true := by
    cases raised : m.raised with
    | true => rw [Memory.retired_of_raised raised]
    | false =>
        rw [Memory.retired_of_not_raised raised]
        by_contra disarmed
        rw [tells.raised (Bool.eq_false_of_not_eq_true disarmed)] at raised
        exact Bool.noConfusion raised
  constructor
  · simp [rearmed, FiredSince, silent, lapsed]
  · intro disarmed
    rw [rearmed] at disarmed
    exact Bool.noConfusion disarmed
  · have same : m.retired.lastFired = m.lastFired := by
      rw [Memory.retired]
      split_ifs <;> rfl
    rw [same]
    refine tells.fired.imp_right ?_
    rintro ⟨y, inside, fires⟩
    exact ⟨y, List.mem_cons_of_mem x inside, fires⟩
  · cases raised : m.raised with
    | true =>
        rw [Memory.retired_of_raised raised]
        exact Or.inl rfl
    | false =>
        rw [Memory.retired_of_not_raised raised]
        refine tells.started.imp_right ?_
        rintro ⟨y, inside, begun⟩
        exact ⟨y, List.mem_cons_of_mem x inside, begun⟩
  · intro since holds
    exact absurd holds (none' since)

theorem Tells.judge (tells : Tells m id inst seen) {m' : Memory} {o : Outcome} {what : Turn}
    {rule : Json} {label : String} (only : x.outcomes id inst = [o])
    (lasting : ∀ w ∈ turns x.tick x.before, w.retires id = false)
    (subject : what.subject = some (rule, label, inst))
    (judgement : what.judgement x.tick o.ok m = (m', o.act))
    (positive : 0 < x.now) (after : ∀ y ∈ seen, y.now ≤ x.now) : Tells m' id inst (x :: seen) := by
  have memory : (what.judgement x.tick o.ok m).1 = m' := congrArg Prod.fst judgement
  have act : (what.judgement x.tick o.ok m).2 = o.act := congrArg Prod.snd judgement
  have lapses : x.Lapsed id inst ↔ o.ok = false := by
    constructor
    · rintro (⟨other, inside, lost⟩ | ⟨w, inside, retires⟩)
      · rw [only, List.mem_singleton] at inside
        rw [← inside]
        exact lost
      · rw [lasting w inside] at retires
        exact Bool.noConfusion retires
    · intro lost
      exact Or.inl ⟨o, by rw [only]; exact List.mem_singleton_self o, lost⟩
  have fires : x.Fires id inst ↔ o.act.fires = true := by
    rw [Sample.Fires, only]
    simp
  have startedBy : m.heldSince ≤ x.now := by
    rcases tells.started with unset | ⟨y, inside, begun⟩
    · rw [unset]
      exact positive.le
    · rw [← begun]
      exact after y inside
  have later : (m.lastFired = 0 ∨ ∃ y ∈ x :: seen, y.Fires id inst ∧ y.now = m.lastFired) :=
    tells.fired.imp_right fun ⟨y, inside, fires⟩ => ⟨y, List.mem_cons_of_mem x inside, fires⟩
  cases ok : o.ok with
  | false =>
      rw [ok] at memory act
      obtain ⟨dropped, rearmed, same, quiet⟩ := judgement_false (t := x.tick) (m := m) subject
      rw [act] at quiet
      rw [memory] at dropped rearmed same
      refine ⟨?_, ?_, ?_, Or.inl dropped, ?_⟩
      · simp [rearmed, FiredSince, fires, quiet, lapses, ok]
      · intro disarmed
        rw [rearmed] at disarmed
        exact Bool.noConfusion disarmed
      · rw [same]
        exact later
      · intro since holds
        have saw := (heldSince_cons.mp holds).1.2 o (by rw [only]; exact List.mem_singleton_self o)
        rw [ok] at saw
        exact Bool.noConfusion saw
  | true =>
      rw [ok] at memory act
      have holding := judgement_heldSince (t := x.tick) (m := m) subject
      rw [memory] at holding
      have isStarted : m'.heldSince = 0 ∨ ∃ y ∈ x :: seen, y.now = m'.heldSince := by
        rw [holding]
        split_ifs with unset
        · exact Or.inr ⟨x, List.mem_cons_self, rfl⟩
        · exact tells.started.imp_right fun ⟨y, inside, begun⟩ =>
            ⟨y, List.mem_cons_of_mem x inside, begun⟩
      have isHeld : ∀ since, HeldSince Sample.now (fun x _ => x.Saw id inst) since (x :: seen) →
          m'.heldSince ≠ 0 ∧ m'.heldSince ≤ since := by
        intro since holds
        rw [holding]
        rcases (heldSince_cons.mp holds).2 with begun | before
        · rw [← begun]
          split_ifs with unset
          · exact ⟨positive.ne', le_rfl⟩
          · exact ⟨unset, startedBy⟩
        · obtain ⟨set, early⟩ := tells.held since before
          rw [if_neg set]
          exact ⟨set, early⟩
      cases spoken : o.act.fires with
      | true =>
          rw [← act] at spoken
          obtain ⟨-, -, -, disarmed, firedNow, raised⟩ := judgement_fires subject spoken
          rw [memory] at disarmed firedNow raised
          rw [act] at spoken
          refine ⟨?_, fun _ => raised, ?_, isStarted, isHeld⟩
          · simp [disarmed, FiredSince, fires, spoken]
          · exact Or.inr ⟨x, List.mem_cons_self, fires.mpr spoken, firedNow.symm⟩
      | false =>
          rw [← act] at spoken
          obtain ⟨armed, fired, raised, -⟩ := judgement_quiet subject spoken
          rw [memory] at armed fired raised
          rw [act] at spoken
          refine ⟨?_, ?_, ?_, isStarted, isHeld⟩
          · simp only [FiredSince, fires, spoken, lapses, ok, Bool.false_eq_true, Bool.true_eq_false,
              not_false_eq_true, true_and, false_or, armed]
            exact tells.armed
          · rw [armed, raised]
            exact tells.raised
          · rw [fired]
            exact later

/-- Every state says what the ticks have seen. -/
def TellsAll (w : Watch) : Prop := ∀ id inst, Tells (w.engine.memory id inst) id inst w.seen

theorem TellsAll.start : TellsAll .start := Tells.fresh

theorem Placed.room {t : Tick} {w : Watch} {what : Turn} {first last : List Turn}
    (placed : Placed (.tick t) w) (eq : turns t w.engine = first ++ what :: last)
    (about : what.about id inst = true)
    (full : what.place t (run (turn t) first w.engine) = none) : False := by
  have along := placed.2
  rw [eq, along_append, along_cons] at along
  obtain ⟨rule, label, subject, -⟩ := Turn.about_iff.mp about
  have isPlaced := along.2.1 (by rw [subject]; rfl)
  rw [full] at isPlaced
  exact Bool.noConfusion isPlaced

theorem TellsAll.step {i : Input} {w : Watch} (tells : TellsAll w) (ticking : Ticking i w)
    (placed : Placed i w) : TellsAll (step i w) := by
  cases i with
  | desk wall work => exact tells
  | tick t =>
      intro id inst
      cases course placed.1 w.engine id inst with
      | left aside quiet memory =>
          rw [Rules.step, memory]
          exact (tells id inst).skip quiet fun what inside => (aside what inside).lasting
      | retired first last eq _ quiet memory =>
          rw [Rules.step, memory]
          refine (tells id inst).retire quiet ⟨.retire id, ?_, by simp [Turn.retires]⟩
          rw [eq]
          exact List.mem_append_right _ List.mem_cons_self
      | crowded what first last eq about _ full => exact (placed.room eq about full).elim
      | judged what first last eq about lasting only judgement =>
          obtain ⟨rule, label, subject, -⟩ := Turn.about_iff.mp about
          exact (tells id inst).judge only lasting subject judgement ticking.1 ticking.2

theorem sent_fires {t : Tick} {what : Turn} {s : Engine} (sent : (take t what s).sent = true) :
    (take t what s).act.fires = true := by
  have settled : ∀ rule key judge ok place s',
      (settle t rule key judge ok place s').sent = true →
        (settle t rule key judge ok place s').act.fires = true := by
    intro rule key judge ok place s' sent
    rw [settle] at sent ⊢
    split at sent
    · exact Bool.noConfusion sent
    · rename_i k st found
      cases act : (judge ok st.toMemory).2 with
      | nothing => simp [act, Act.perform] at sent
      | clear => simp [act, Act.perform] at sent
      | fire renotify => simp [act, Act.fires]
  cases what with
  | retire gone => exact Bool.noConfusion sent
  | judge rule i => exact settled _ _ _ _ _ _ sent
  | judgeEvery rule first others => exact settled _ _ _ _ _ _ sent

theorem Sample.Sent.fires (sent : x.Sent id inst) : x.Fires id inst := by
  obtain ⟨o, inside, said⟩ := sent
  refine ⟨o, inside, ?_⟩
  rw [Sample.outcomes] at inside
  generalize turns x.tick x.before = list at inside
  generalize x.before = s at inside
  induction list generalizing s with
  | nil => exact absurd inside List.not_mem_nil
  | cons what rest ih =>
      rw [Rules.outcomes, List.mem_append] at inside
      rcases inside with here | later
      · split_ifs at here with about
        · rw [List.mem_singleton] at here
          rw [here] at said ⊢
          exact sent_fires said
        · exact absurd here List.not_mem_nil
      · exact ih _ later

theorem firedSince_of_fires {recent earlier : List Sample} {past : Sample}
    (fires : past.Fires id inst) (lasting : ∀ x ∈ recent, ¬x.Lapsed id inst) :
    FiredSince id inst (recent ++ past :: earlier) := by
  induction recent with
  | nil => exact Or.inl fires
  | cons x rest ih =>
      rw [List.forall_mem_cons] at lasting
      exact Or.inr ⟨lasting.1, ih lasting.2⟩

/-- Where the states say what the ticks have seen, the law holds of a tick. -/
theorem TellsAll.edge {i : Input} {w : Watch} (tells : TellsAll w) (ticking : Ticking i w)
    (placed : Placed i w) : EdgeTriggered i w := by
  cases i with
  | desk wall work => trivial
  | tick t =>
      intro rule among inst this
      have before := tells (ruleId rule) inst
      cases course placed.1 w.engine (ruleId rule) inst with
      | left _ quiet =>
          have quiet : this.outcomes (ruleId rule) inst = [] := quiet
          refine ⟨fun _ => ⟨by simp [quiet], fun sent => ?_⟩, fun _ _ holds => ?_⟩
          · simp [Sample.Sent, quiet] at sent
          · exact absurd quiet (heldSince_cons.mp holds).1.1
      | retired _ _ _ _ quiet =>
          have quiet : this.outcomes (ruleId rule) inst = [] := quiet
          refine ⟨fun _ => ⟨by simp [quiet], fun sent => ?_⟩, fun _ _ holds => ?_⟩
          · simp [Sample.Sent, quiet] at sent
          · exact absurd quiet (heldSince_cons.mp holds).1.1
      | crowded what first last eq about _ full => exact (placed.room eq about full).elim
      | judged what first last eq about lasting only judgement =>
          have turned : what ∈ turns t w.engine := by
            rw [eq]
            exact List.mem_append_right _ List.mem_cons_self
          obtain ⟨label, subject⟩ := subject_of_about placed.1 among turned about
          have tellsAfter : Tells ((tick t w.engine).memory (ruleId rule) inst) (ruleId rule) inst
              (this :: w.seen) :=
            before.judge only lasting subject judgement ticking.1 ticking.2
          have only : this.outcomes (ruleId rule) inst =
            [take t what (run (turn t) first w.engine)] := only
          generalize take t what (run (turn t) first w.engine) = o at only judgement
          have act : (what.judgement t o.ok (w.engine.memory (ruleId rule) inst)).2 = o.act :=
            congrArg Prod.snd judgement
          have memory : (what.judgement t o.ok (w.engine.memory (ruleId rule) inst)).1 =
            (tick t w.engine).memory (ruleId rule) inst := congrArg Prod.fst judgement
          constructor
          · intro once
            constructor
            · rw [only]
              exact List.countP_le_length
            · intro sent recent past earlier split pastSent
              obtain ⟨other, inside, fired⟩ := sent.fires
              rw [only, List.mem_singleton] at inside
              rw [inside, ← act] at fired
              obtain ⟨-, -, due, -⟩ := judgement_fires subject fired
              have armed := due.resolve_right (by rw [once]; exact lt_irrefl 0)
              by_contra none'
              have lasts : ∀ x ∈ recent, ¬x.Lapsed (ruleId rule) inst :=
                fun x inside lapsed => none' ⟨x, inside, lapsed⟩
              have spent := before.armed.mpr (by
                rw [split]
                exact firedSince_of_fires pastSent.fires lasts)
              rw [armed] at spent
              exact Bool.noConfusion spent
          · intro since long holds cooled
            have ok : o.ok = true :=
              (heldSince_cons.mp holds).1.2 o (by rw [only]; exact List.mem_singleton_self o)
            obtain ⟨-, early⟩ := tellsAfter.held since holds
            cases fired : o.act.fires with
            | true => exact Or.inl ⟨o, by rw [only]; exact List.mem_singleton_self o, fired⟩
            | false =>
                rw [← act, ok] at fired
                rw [ok] at memory
                obtain ⟨-, -, -, short | idle | cooling⟩ := judgement_quiet subject fired
                · rw [memory] at short
                  linarith
                · refine Or.inr ⟨?_, before.armed.mp idle⟩
                  rintro (⟨other, inside, lost⟩ | ⟨v, inside, retires⟩)
                  · rw [only, List.mem_singleton] at inside
                    rw [inside, ok] at lost
                    exact Bool.noConfusion lost
                  · rw [lasting v inside] at retires
                    exact Bool.noConfusion retires
                · exfalso
                  rcases before.fired with unset | ⟨y, inside, fires, stamp⟩
                  · rw [unset] at cooling
                    exact absurd cooling.1 (lt_irrefl 0)
                  · have rested := cooled y inside fires
                    rw [stamp] at rested
                    linarith [cooling.2]

/-- A rule about a pit over two hundred degrees. -/
def warmTick (now : ℚ) : Tick := Pit.tick [Pit.rule "hot" 200 []] "Hold" 250 now

/-- An id of more bytes than the table keeps. -/
def longId : String := "pit-over-one-hundred-degrees-on-the-grill"

/-- A rule with that id, and one whose id is as much of it as an alarm's key
keeps, with a higher threshold. -/
def longTick (temp now : ℚ) : Tick :=
  Pit.tick [Pit.rule longId 100 [], Pit.rule (short 32 longId) 200 []] "Hold" temp now

end PiFire.Rules
