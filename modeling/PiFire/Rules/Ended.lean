import PiFire.Rules.Watch

/-!
# How alarms end

An alarm that a rule raises ends when the rule stops applying, when its
condition has been false for its delay, and when the instance is gone. The
engine ends an alarm by the key it computes at the time, and only for a rule and
instance it still looks at; so the law holds of the runs in which whatever is
reported is still watched and would be ended under the key it was raised under.
-/

namespace PiFire.Rules

open Transition AlarmTable

/-! ## Turns and alarms -/

/-- A turn finds room in the table for an alarm of its rule. -/
def Turn.Room (t : Tick) (what : Turn) (s : Engine) : Prop :=
  ∀ judged ∈ what.subject, s.alarms.HasRoom (ruleKey judged.1 judged.2.1) t.wall

instance (t : Tick) (what : Turn) (s : Engine) : Decidable (what.Room t s) :=
  inferInstanceAs (Decidable (∀ judged ∈ what.subject, _))

/-- A turn raises the alarm of a key. -/
def Turn.Starts (t : Tick) (what : Turn) (s : Engine) (key : String) : Prop :=
  (take t what s).act.fires = true ∧ (take t what s).key = key

/-- A turn ends the alarm of a key: it clears it, or retires a rule that reports
under it. -/
def Turn.Stops (t : Tick) (what : Turn) (s : Engine) (key : String) : Prop :=
  (take t what s).act = .clear ∧ (take t what s).key = key ∨
    ∃ gone, what = .retire gone ∧
      ∃ st ∈ s.slots, st.rule = gone ∧ st.raised = true ∧ alarmKey gone st.inst = key

section Turns

variable {t : Tick} {what : Turn} {s : Engine} {key : String}

theorem rings_retireAll {gone : String} {wall : ℚ} {slots : List Slot} {alarms : AlarmTable}
    (sound : alarms.Sound) :
    let after := slots.foldl (fun alarms st =>
      if st.rule = gone ∧ st.raised then alarms.retire (alarmKey gone st.inst) wall else alarms)
      alarms
    after.Sound ∧ (after.Rings key → alarms.Rings key ∧
      ∀ st ∈ slots, st.rule = gone → st.raised = true → alarmKey gone st.inst ≠ key) := by
  induction slots generalizing alarms with
  | nil => exact ⟨sound, fun rings => ⟨rings, nofun⟩⟩
  | cons st rest ih =>
      simp only [List.foldl_cons]
      by_cases reports : st.rule = gone ∧ st.raised = true
      · rw [if_pos reports]
        obtain ⟨soundAfter, rest⟩ := ih (sound.calmed (calmed_edit _ _ (calms_gone wall)))
        refine ⟨soundAfter, fun rings => ?_⟩
        obtain ⟨ringing, others⟩ := rest rings
        obtain ⟨before, apart⟩ := ringing.of_retire sound
        refine ⟨before, ?_⟩
        rw [List.forall_mem_cons]
        exact ⟨fun _ _ => apart.symm, others⟩
      · rw [if_neg reports]
        obtain ⟨soundAfter, rest⟩ := ih sound
        refine ⟨soundAfter, fun rings => ?_⟩
        obtain ⟨before, others⟩ := rest rings
        refine ⟨before, ?_⟩
        rw [List.forall_mem_cons]
        exact ⟨fun rule raised => absurd ⟨rule, raised⟩ reports, others⟩

theorem take_alarms {rule : Json} {label inst : String} (named : what.Named)
    (subject : what.subject = some (rule, label, inst)) :
    (take t what s).key = ruleKey rule label ∧
      (take t what s).engine.alarms =
        ((take t what s).act.perform (ruleKey rule label) (critOf rule) t.wall s.alarms).2 := by
  obtain ⟨ok, slots, eq, -⟩ := take_eq_settle (t := t) (s := s) named subject
  rw [eq, settle]
  split
  · exact ⟨rfl, rfl⟩
  · exact ⟨rfl, rfl⟩

theorem sound_turn (named : what.Named) (sound : s.alarms.Sound) :
    (turn t what s).alarms.Sound := by
  cases subject : what.subject with
  | none =>
      cases what with
      | retire gone => exact (@rings_retireAll "" gone t.wall s.slots s.alarms sound).1
      | judge rule i => simp [Turn.subject] at subject
      | judgeEvery rule first others => simp [Turn.subject] at subject
  | some found =>
      obtain ⟨rule, label, inst⟩ := found
      rw [turn, (take_alarms (t := t) (s := s) named subject).2]
      cases (take t what s).act with
      | nothing => exact sound
      | clear => exact sound.calmed (calmed_edit _ _ (calms_over t.wall))
      | fire renotify => exact sound.raise

theorem rings_turn (named : what.Named) (room : what.Room t s) (sound : s.alarms.Sound)
    (rings : (turn t what s).alarms.Rings key) :
    what.Starts t s key ∨ s.alarms.Rings key ∧ ¬what.Stops t s key := by
  cases subject : what.subject with
  | none =>
      cases what with
      | retire gone =>
          obtain ⟨before, others⟩ := (rings_retireAll sound).2 rings
          refine Or.inr ⟨before, ?_⟩
          rintro (⟨cleared, -⟩ | ⟨gone', same, st, inside, rule, raised, isKey⟩)
          · cases cleared
          · obtain rfl := Turn.retire.inj same
            exact others st inside rule raised isKey
      | judge rule i => simp [Turn.subject] at subject
      | judgeEvery rule first others => simp [Turn.subject] at subject
  | some found =>
      obtain ⟨rule, label, inst⟩ := found
      obtain ⟨isKey, alarms⟩ := take_alarms (t := t) (s := s) named subject
      rw [turn, alarms] at rings
      have judges : ∀ gone, what ≠ .retire gone := by
        rintro gone rfl
        cases subject
      cases act : (take t what s).act with
      | nothing =>
          rw [act] at rings
          refine Or.inr ⟨rings, ?_⟩
          rintro (⟨cleared, -⟩ | ⟨gone, same, -⟩)
          · rw [act] at cleared
            cases cleared
          · exact judges gone same
      | clear =>
          rw [act] at rings
          obtain ⟨before, apart⟩ := Rings.of_clear sound rings
          refine Or.inr ⟨before, ?_⟩
          rintro (⟨-, same⟩ | ⟨gone, same, -⟩)
          · exact apart (same.symm.trans isKey)
          · exact judges gone same
      | fire renotify =>
          rw [act] at rings
          rcases Rings.of_raise (room _ subject) rings with before | same
          · refine Or.inr ⟨before, ?_⟩
            rintro (⟨cleared, -⟩ | ⟨gone, same, -⟩)
            · rw [act] at cleared
              cases cleared
            · exact judges gone same
          · refine Or.inl ⟨?_, isKey.trans same.symm⟩
            rw [act]
            rfl

theorem sound_run {list : List Turn} (named : ∀ w ∈ list, w.Named) (sound : s.alarms.Sound) :
    (run (turn t) list s).alarms.Sound := by
  induction list generalizing s with
  | nil => exact sound
  | cons what rest ih =>
      rw [List.forall_mem_cons] at named
      exact ih named.2 (sound_turn named.1 sound)

/-- An alarm that is active after some turns was raised by one of them, or was
active before and none of them ends it. -/
theorem rings_run {list : List Turn} (named : ∀ w ∈ list, w.Named)
    (room : Along (turn t) (Turn.Room t) list s) (sound : s.alarms.Sound)
    (rings : (run (turn t) list s).alarms.Rings key) :
    (∃ before what after, list = before ++ what :: after ∧
        what.Starts t (run (turn t) before s) key) ∨
      s.alarms.Rings key ∧ ∀ before what after, list = before ++ what :: after →
        ¬what.Stops t (run (turn t) before s) key := by
  induction list generalizing s with
  | nil =>
      refine Or.inr ⟨rings, ?_⟩
      intro before what after eq
      simp at eq
  | cons what rest ih =>
      rw [List.forall_mem_cons] at named
      rw [run_cons] at rings
      rcases ih named.2 room.2 (sound_turn named.1 sound) rings with
        ⟨before, later, after, rfl, starts⟩ | ⟨ringing, kept⟩
      · exact Or.inl ⟨what :: before, later, after, rfl, starts⟩
      · rcases rings_turn named.1 room.1 sound ringing with starts | ⟨before, lasts⟩
        · exact Or.inl ⟨[], what, rest, rfl, starts⟩
        · refine Or.inr ⟨before, ?_⟩
          intro first later after eq
          cases first with
          | nil =>
              obtain ⟨rfl, rfl⟩ := List.cons.inj eq
              exact lasts
          | cons head first =>
              obtain ⟨rfl, split⟩ := List.cons.inj eq
              exact kept first later after split

end Turns

/-! ## The law -/

namespace Sample

/-- The key the rule fired under for the instance, if it fired. -/
def firedKey (x : Sample) (id inst : String) : Option String :=
  ((x.outcomes id inst).find? fun o => o.act.fires).map Outcome.key

theorem firedKey_of_only {x : Sample} {id inst : String} {o : Outcome}
    (only : x.outcomes id inst = [o]) :
    x.firedKey id inst = if o.act.fires then some o.key else none := by
  rw [firedKey, only, List.find?_singleton]
  split_ifs <;> rfl

/-- The rule applied to the instance and its condition was false. -/
def Lost (x : Sample) (id inst : String) : Prop :=
  x.outcomes id inst ≠ [] ∧ ∀ o ∈ x.outcomes id inst, o.ok = false

end Sample

/-- The key the rule last fired under for the instance. -/
def lastKey (id inst : String) : List Sample → Option String
  | [] => none
  | x :: earlier => (x.firedKey id inst).or (lastKey id inst earlier)

/-- Keys that rules raise under. -/
def OfRules (key : String) : Prop := key.toList.take 5 = ['R', 'U', 'L', 'E', '_']

instance (key : String) : Decidable (OfRules key) := inferInstanceAs (Decidable (_ = _))

/-- A rule watches an instance; one that wants all of its instances watches them
together. -/
def watches (t : Tick) (rule : Json) (inst : String) : Prop :=
  if matchesEvery rule then inst = "*" ∧ selectInstances t.status rule ≠ []
  else inst ∈ (selectInstances t.status rule).map Inst.label

instance (t : Tick) (rule : Json) (inst : String) : Decidable (watches t rule inst) :=
  inferInstanceAs (Decidable (ite _ _ _))

/-- The condition of a rule has been false for the instance, at every tick, for
some time. -/
def FalseFor (time now : ℚ) (id inst : String) (seen : List Sample) : Prop :=
  ∃ since ≤ now - time, HeldSince Sample.now (fun x _ => x.Lost id inst) since seen

/-- A rule stands behind an alarm after a tick: it applies, it watches the
instance that raised it, its condition has not been false for its delay, and the
engine remembers that it reports under the key. -/
structure Upheld (t : Tick) (w : Watch) (key : String) (rule : Json) (inst : String) : Prop where
  among : rule ∈ t.all
  applies : applies t w.engine.slots rule = true
  watched : watches t rule inst
  current : ¬FalseFor (termsOf rule).clearAfter t.now (ruleId rule) inst (⟨t, w.engine⟩ :: w.seen)
  reports : ((tick t w.engine).memory (ruleId rule) inst).raised = true
  raisedAs : lastKey (ruleId rule) inst (⟨t, w.engine⟩ :: w.seen) = some key

/-- Every alarm of a rule that is active after a tick has a rule and instance
behind it. -/
def AlarmsEnd : Input → Watch → Prop
  | .tick t, w => ∀ key, OfRules key → (tick t w.engine).alarms.Rings key →
      ∃ rule inst, Upheld t w key rule inst
  | .desk _ _, _ => True

/-! ## The condition -/

/-- The key that judging a rule for an instance would use. -/
def judgedKey (t : Tick) (rule : Json) (inst : String) : Option String :=
  if matchesEvery rule then
    (selectInstances t.status rule).head?.map fun first => ruleKey rule first.label
  else some (ruleKey rule inst)

/-- What is reported would be ended under the key it was raised under: its rule
is still there, and where it applies it still watches the instance. -/
def Answers (t : Tick) (w : Watch) (st : Slot) : Prop :=
  ∃ rule ∈ t.all, ruleId rule = st.rule ∧
    if applies t w.engine.slots rule then
      watches t rule st.inst ∧
        (frozen t rule ∨ judgedKey t rule st.inst = lastKey st.rule st.inst w.seen)
    else some (alarmKey st.rule st.inst) = lastKey st.rule st.inst w.seen

instance (t : Tick) (w : Watch) (st : Slot) : Decidable (Answers t w st) :=
  inferInstanceAs (Decidable (∃ rule ∈ _, _ ∧ ite _ _ _))

/-- Whatever is reported answers to its rule, and the alarm table has room for
the alarms of the rules; others raise under keys of their own. -/
def Answerable : Input → Watch → Prop
  | .tick t, w => Orderly t ∧ (∀ st ∈ w.engine.slots, st.raised = true → Answers t w st) ∧
      Along (turn t) (Turn.Room t) (turns t w.engine) w.engine
  | .desk wall (.raise key _), w => ¬OfRules key ∧ w.engine.alarms.HasRoom key wall
  | .desk _ _, _ => True

instance : ∀ i w, Decidable (Answerable i w)
  | .tick _, _ => inferInstanceAs (Decidable (_ ∧ (∀ st ∈ _, _) ∧ Along _ _ _ _))
  | .desk _ (.raise _ _), _ => inferInstanceAs (Decidable (_ ∧ _))
  | .desk _ (.ack _), _ => .isTrue trivial
  | .desk _ .ackAll, _ => .isTrue trivial
  | .desk _ (.shelve _ _), _ => .isTrue trivial
  | .desk _ (.clear _), _ => .isTrue trivial
  | .desk _ (.note _ _), _ => .isTrue trivial

/-! ## What a report remembers -/

/-- The time a condition became false is the time of a tick; while a report
stands it is no later than any time since which every tick found it false. -/
structure Dated (m : Memory) (id inst : String) (seen : List Sample) : Prop where
  stamped : m.falseSince = 0 ∨ ∃ x ∈ seen, x.now = m.falseSince
  early : m.raised = true →
    ∀ since, HeldSince Sample.now (fun x _ => x.Lost id inst) since seen →
      m.falseSince ≠ 0 ∧ m.falseSince ≤ since

section Dated

variable {m : Memory} {id inst : String} {seen : List Sample} {x : Sample}

theorem not_lost_of_quiet (quiet : x.outcomes id inst = []) (since : ℚ) :
    ¬HeldSince Sample.now (fun x _ => x.Lost id inst) since (x :: seen) :=
  fun holds => (heldSince_cons.mp holds).1.1 quiet

theorem Dated.fresh (id inst : String) (seen : List Sample) : Dated .fresh id inst seen where
  stamped := Or.inl rfl
  early := nofun

theorem Dated.skip (dated : Dated m id inst seen) (quiet : x.outcomes id inst = []) :
    Dated m id inst (x :: seen) where
  stamped := dated.stamped.imp_right fun ⟨y, inside, time⟩ =>
    ⟨y, List.mem_cons_of_mem x inside, time⟩
  early _ since holds := absurd holds (not_lost_of_quiet quiet since)

theorem Dated.retire (dated : Dated m id inst seen) (quiet : x.outcomes id inst = []) :
    Dated m.retired id inst (x :: seen) := by
  cases raised : m.raised with
  | true =>
      rw [Memory.retired_of_raised raised]
      exact ⟨Or.inl rfl, nofun⟩
  | false =>
      rw [Memory.retired_of_not_raised raised]
      exact dated.skip quiet

theorem Dated.judge (dated : Dated m id inst seen) {m' : Memory} {o : Outcome} {what : Turn}
    {rule : Json} {label : String} (only : x.outcomes id inst = [o])
    (subject : what.subject = some (rule, label, inst))
    (judgement : what.judgement x.tick o.ok m = (m', o.act))
    (positive : 0 < x.now) (after : ∀ y ∈ seen, y.now ≤ x.now) : Dated m' id inst (x :: seen) := by
  have memory : (what.judgement x.tick o.ok m).1 = m' := congrArg Prod.fst judgement
  constructor
  · rcases judgement_falseSince (t := x.tick) (m := m) subject o.ok with unset | same | now'
    · rw [memory] at unset
      exact Or.inl unset
    · rw [memory] at same
      rw [same]
      exact dated.stamped.imp_right fun ⟨y, inside, time⟩ =>
        ⟨y, List.mem_cons_of_mem x inside, time⟩
    · rw [memory] at now'
      exact Or.inr ⟨x, List.mem_cons_self, now'.symm⟩
  · intro raised since holds
    have lost : o.ok = false :=
      (heldSince_cons.mp holds).1.2 o (by rw [only]; exact List.mem_singleton_self o)
    rw [lost] at memory
    rw [← memory] at raised
    obtain ⟨before, -, stamp, -⟩ := judgement_outlives subject raised
    rw [memory] at stamp
    rw [stamp]
    rcases (heldSince_cons.mp holds).2 with begun | earlier
    · rw [← begun]
      split_ifs with unset
      · exact ⟨positive.ne', le_rfl⟩
      · refine ⟨unset, ?_⟩
        obtain ⟨y, inside, time⟩ := dated.stamped.resolve_left unset
        rw [← time]
        exact after y inside
    · obtain ⟨set, early⟩ := dated.early before since earlier
      rw [if_neg set]
      exact ⟨set, early⟩

theorem Dated.current {m' : Memory} {o : Outcome} {what : Turn} {rule : Json} {label : String}
    (dated : Dated m' id inst (x :: seen)) (only : x.outcomes id inst = [o])
    (subject : what.subject = some (rule, label, inst))
    (judgement : what.judgement x.tick o.ok m = (m', o.act)) (raised : m'.raised = true) :
    ¬FalseFor (termsOf rule).clearAfter x.now id inst (x :: seen) := by
  rintro ⟨since, long, holds⟩
  have memory : (what.judgement x.tick o.ok m).1 = m' := congrArg Prod.fst judgement
  have lost : o.ok = false :=
    (heldSince_cons.mp holds).1.2 o (by rw [only]; exact List.mem_singleton_self o)
  obtain ⟨-, early⟩ := dated.early raised since holds
  rw [lost] at memory
  rw [← memory] at raised
  obtain ⟨-, -, -, within⟩ := judgement_outlives subject raised
  rw [memory] at within
  have now' : x.now = x.tick.now := rfl
  rw [now'] at long
  linarith

end Dated

/-! ## Turns and what they watch -/

section Watching

variable {t : Tick} {s : Engine} {what : Turn} {rule : Json} {label inst : String}

theorem watches_of_mem_turns (inside : what ∈ turns t s)
    (subject : what.subject = some (rule, label, inst)) :
    rule ∈ t.all ∧ applies t s.slots rule = true ∧ frozen t rule = false ∧ watches t rule inst ∧
      judgedKey t rule inst = some (ruleKey rule label) ∧ ruleId rule ≠ "" := by
  obtain ⟨owner, among, here⟩ := List.mem_flatMap.mp inside
  have given := (ofRule_of_mem_ruleTurns here).2
  rw [ruleTurns, if_neg given] at here
  cases live : applies t s.slots owner with
  | false =>
      simp only [live, Bool.not_false, if_true, List.mem_singleton] at here
      rw [here] at subject
      cases subject
  | true =>
      cases stopped : frozen t owner with
      | true => simp [live, stopped] at here
      | false =>
          simp only [live, stopped, Bool.not_true, Bool.false_eq_true, if_false] at here
          cases every : matchesEvery owner with
          | false =>
              rw [every] at here
              obtain ⟨i, selected, rfl⟩ := List.mem_map.mp here
              simp only [Turn.subject, Option.some.injEq, Prod.mk.injEq] at subject
              obtain ⟨rfl, rfl, rfl⟩ := subject
              refine ⟨among, live, stopped, ?_, ?_, given⟩
              · simp only [watches, every, Bool.false_eq_true, if_false]
                exact List.mem_map_of_mem selected
              · simp [judgedKey, every]
          | true =>
              rw [every] at here
              cases selected : selectInstances t.status owner with
              | nil =>
                  rw [selected] at here
                  exact absurd here List.not_mem_nil
              | cons first others =>
                  rw [selected] at here
                  rw [List.mem_singleton.mp here] at subject
                  simp only [Turn.subject, Option.some.injEq, Prod.mk.injEq] at subject
                  obtain ⟨rfl, rfl, rfl⟩ := subject
                  refine ⟨among, live, stopped, ?_, ?_, given⟩
                  · simp [watches, every, selected]
                  · simp [judgedKey, every, selected]

theorem retire_mem_turns (among : rule ∈ t.all) (given : ruleId rule ≠ "")
    (isOver : applies t s.slots rule = false) : Turn.retire (ruleId rule) ∈ turns t s := by
  refine List.mem_flatMap.mpr ⟨rule, among, ?_⟩
  simp [ruleTurns, given, isOver]

theorem not_applies_of_retire (orderly : Orderly t) (among : rule ∈ t.all)
    (inside : Turn.retire (ruleId rule) ∈ turns t s) : applies t s.slots rule = false := by
  obtain ⟨owner, owned, here⟩ := List.mem_flatMap.mp inside
  obtain ⟨same, given⟩ := ofRule_of_mem_ruleTurns here
  have isRule : owner = rule := orderly.unique owned among same.symm given
  rw [isRule] at here given
  rw [ruleTurns, if_neg given] at here
  cases live : applies t s.slots rule with
  | false => rfl
  | true =>
      rw [live] at here
      cases stopped : frozen t rule with
      | true => simp [stopped] at here
      | false =>
          simp only [stopped, Bool.not_true, Bool.false_eq_true, if_false] at here
          split at here
          · exact absurd here List.not_mem_nil
          · cases List.mem_singleton.mp here
          · obtain ⟨i, -, eq⟩ := List.mem_map.mp here
            cases eq

end Watching

/-! ## Runs -/

/-- The table is sound, every alarm of a rule that is active is a report that the
engine remembers under its key, and reports are dated. -/
structure Kept (w : Watch) : Prop where
  sound : w.engine.alarms.Sound
  owned : ∀ key, OfRules key → w.engine.alarms.Rings key →
    ∃ id inst, id ≠ "" ∧ (w.engine.memory id inst).raised = true ∧ lastKey id inst w.seen = some key
  dated : ∀ id inst, Dated (w.engine.memory id inst) id inst w.seen

theorem Kept.start : Kept .start where
  sound := sound_init
  owned _ _ rings := absurd rings not_rings_init
  dated id inst := .fresh id inst []

theorem known_of_raised {m : Memory} (raised : m.raised = true) : m ≠ .fresh := by
  rintro rfl
  exact Bool.noConfusion raised

section Tick

variable {t : Tick} {w : Watch} {key : String}

theorem Kept.dated_tick (kept : Kept w) (ticking : Ticking (.tick t) w) (orderly : Orderly t)
    (id inst : String) :
    Dated ((tick t w.engine).memory id inst) id inst (⟨t, w.engine⟩ :: w.seen) := by
  cases course orderly w.engine id inst with
  | left _ quiet memory =>
      rw [memory]
      exact (kept.dated id inst).skip quiet
  | retired _ _ _ _ quiet memory =>
      rw [memory]
      exact (kept.dated id inst).retire quiet
  | crowded _ _ _ _ _ _ _ _ _ memory =>
      rw [memory]
      exact .fresh id inst _
  | judged what first last eq about _ only judgement =>
      obtain ⟨rule, label, subject, -⟩ := Turn.about_iff.mp about
      exact (kept.dated id inst).judge only subject judgement ticking.1 ticking.2

theorem Kept.upheld_of_starts (kept : Kept w) (ticking : Ticking (.tick t) w)
    (orderly : Orderly t) {what : Turn} {first last : List Turn}
    (eq : turns t w.engine = first ++ what :: last)
    (starts : what.Starts t (run (turn t) first w.engine) key) :
    ∃ rule inst, ruleId rule ≠ "" ∧ Upheld t w key rule inst := by
  cases subject : what.subject with
  | none =>
      cases what with
      | retire gone => exact absurd starts.1 nofun
      | judge rule i => simp [Turn.subject] at subject
      | judgeEvery rule first others => simp [Turn.subject] at subject
  | some found =>
      obtain ⟨rule, label, inst⟩ := found
      have inside : what ∈ turns t w.engine := by
        rw [eq]
        exact List.mem_append_right _ List.mem_cons_self
      obtain ⟨among, live, -, watched, -, given⟩ := watches_of_mem_turns inside subject
      have about : what.about (ruleId rule) inst = true :=
        Turn.about_iff.mpr ⟨rule, label, subject, rfl⟩
      have here := mem_outcomes (t := t) (s := w.engine) first last about
      rw [← eq] at here
      have dated := kept.dated_tick ticking orderly (ruleId rule) inst
      cases course orderly w.engine (ruleId rule) inst with
      | left _ quiet => simp [quiet] at here
      | retired _ _ _ _ quiet => simp [quiet] at here
      | crowded _ _ _ _ _ only _ act =>
          rw [only, List.mem_singleton] at here
          have fired := starts.1
          rw [here, act] at fired
          exact absurd fired Bool.false_ne_true
      | judged what' first' last' eq' about' _ only judgement =>
          rw [only, List.mem_singleton] at here
          have turned : what' ∈ turns t w.engine := by
            rw [eq']
            exact List.mem_append_right _ List.mem_cons_self
          obtain ⟨label', subject'⟩ := subject_of_about orderly among turned about'
          rw [Turn.Starts, here] at starts
          generalize take t what' (run (turn t) first' w.engine) = o at only judgement starts
          have act : (what'.judgement t o.ok (w.engine.memory (ruleId rule) inst)).2 = o.act :=
            congrArg Prod.snd judgement
          have memory : (what'.judgement t o.ok (w.engine.memory (ruleId rule) inst)).1 =
            (tick t w.engine).memory (ruleId rule) inst := congrArg Prod.fst judgement
          have fired := starts.1
          rw [← act] at fired
          obtain ⟨-, -, -, -, -, raised⟩ := judgement_fires subject' fired
          rw [memory] at raised
          refine ⟨rule, inst, given, among, live, watched, ?_, raised, ?_⟩
          · exact dated.current only subject' judgement raised
          · have isKey : Sample.firedKey ⟨t, w.engine⟩ (ruleId rule) inst = some key := by
              rw [Sample.firedKey_of_only (x := ⟨t, w.engine⟩) only, if_pos starts.1, starts.2]
            rw [lastKey, isKey]
            rfl

/-- An alarm that a tick leaves active, of a report that answers to its rule, has
its rule behind it. -/
theorem Kept.upheld_of_kept (kept : Kept w) (ticking : Ticking (.tick t) w)
    (answerable : Answerable (.tick t) w) {id inst : String} (given : id ≠ "")
    (raised : (w.engine.memory id inst).raised = true)
    (raisedAs : lastKey id inst w.seen = some key)
    (lasts : ∀ before what after, turns t w.engine = before ++ what :: after →
      ¬what.Stops t (run (turn t) before w.engine) key) :
    ∃ rule inst, ruleId rule ≠ "" ∧ Upheld t w key rule inst := by
  obtain ⟨orderly, answers, -⟩ := answerable
  obtain ⟨st, among, rfl, rfl, remembered⟩ := exists_slot (known_of_raised raised)
  obtain ⟨rule, listed, isRule, answer⟩ := answers st among (by rw [remembered]; exact raised)
  rw [← isRule] at given raised raisedAs answer
  have dated := kept.dated_tick ticking orderly (ruleId rule) st.inst
  cases live : applies t w.engine.slots rule with
  | false =>
      rw [live, if_neg Bool.false_ne_true, raisedAs] at answer
      have ends := retire_mem_turns listed given live
      cases course orderly w.engine (ruleId rule) st.inst with
      | left aside => exact absurd rfl (aside _ ends).2
      | crowded _ _ _ _ _ _ _ _ unknown => exact absurd unknown (known_of_raised raised)
      | judged _ _ _ _ _ lasting =>
          have kept' := lasting _ ends
          simp [Turn.retires] at kept'
      | retired first last eq same =>
          exfalso
          rw [← same] at raised
          obtain ⟨st', inside, isRule', isInst, memory⟩ := exists_slot (known_of_raised raised)
          refine lasts first _ last eq (Or.inr ⟨_, rfl, st', inside, isRule', ?_, ?_⟩)
          · rw [memory]
            exact raised
          · rw [isInst]
            exact Option.some.inj answer
  | true =>
      rw [live, if_pos rfl] at answer
      obtain ⟨watched, how⟩ := answer
      cases course orderly w.engine (ruleId rule) st.inst with
      | left aside quiet memory =>
          refine ⟨rule, st.inst, given, listed, live, watched, ?_, ?_, ?_⟩
          · rintro ⟨since, -, holds⟩
            exact not_lost_of_quiet (x := ⟨t, w.engine⟩) quiet since holds
          · rw [memory]
            exact raised
          · have silent : Sample.firedKey ⟨t, w.engine⟩ (ruleId rule) st.inst = none := by
              rw [Sample.firedKey, Sample.outcomes, quiet]
              rfl
            rw [lastKey, silent]
            exact raisedAs
      | retired first last eq =>
          have ends : Turn.retire (ruleId rule) ∈ turns t w.engine := by
            rw [eq]
            exact List.mem_append_right _ List.mem_cons_self
          rw [not_applies_of_retire orderly listed ends] at live
          exact Bool.noConfusion live
      | crowded _ _ _ _ _ _ _ _ unknown => exact absurd unknown (known_of_raised raised)
      | judged what first last eq about _ only judgement =>
          have turned : what ∈ turns t w.engine := by
            rw [eq]
            exact List.mem_append_right _ List.mem_cons_self
          obtain ⟨label, subject⟩ := subject_of_about orderly listed turned about
          obtain ⟨-, -, thawed, -, keyed, -⟩ := watches_of_mem_turns turned subject
          have isKey : ruleKey rule label = key := by
            rcases how with stopped | same
            · rw [thawed] at stopped
              exact absurd stopped Bool.false_ne_true
            · rw [keyed, raisedAs] at same
              exact Option.some.inj same
          have named := named_of_mem_turns orderly turned
          have outcomeKey := (take_alarms (t := t) (s := run (turn t) first w.engine) named
            subject).1
          have notCleared : (take t what (run (turn t) first w.engine)).act ≠ .clear :=
            fun cleared => lasts first what last eq (Or.inl ⟨cleared, outcomeKey.trans isKey⟩)
          generalize take t what (run (turn t) first w.engine) = o
            at only judgement notCleared outcomeKey
          have act : (what.judgement t o.ok (w.engine.memory (ruleId rule) st.inst)).2 = o.act :=
            congrArg Prod.snd judgement
          have memory : (what.judgement t o.ok (w.engine.memory (ruleId rule) st.inst)).1 =
            (tick t w.engine).memory (ruleId rule) st.inst := congrArg Prod.fst judgement
          rw [← act] at notCleared
          have stands := judgement_raised subject raised notCleared
          rw [memory] at stands
          refine ⟨rule, st.inst, given, listed, live, watched, ?_, stands, ?_⟩
          · exact dated.current only subject judgement stands
          · have fired : Sample.firedKey ⟨t, w.engine⟩ (ruleId rule) st.inst =
                if o.act.fires then some o.key else none := Sample.firedKey_of_only only
            rw [lastKey, fired, outcomeKey, isKey]
            split_ifs
            · rfl
            · exact raisedAs

theorem Kept.upheld (kept : Kept w) (ticking : Ticking (.tick t) w)
    (answerable : Answerable (.tick t) w) (ofRules : OfRules key)
    (rings : (tick t w.engine).alarms.Rings key) :
    ∃ rule inst, ruleId rule ≠ "" ∧ Upheld t w key rule inst := by
  have named : ∀ v ∈ turns t w.engine, v.Named := fun v => named_of_mem_turns answerable.1
  rcases rings_run named answerable.2.2 kept.sound rings with
    ⟨first, what, last, eq, starts⟩ | ⟨before, lasts⟩
  · exact kept.upheld_of_starts ticking answerable.1 eq starts
  · obtain ⟨id, inst, given, raised, raisedAs⟩ := kept.owned key ofRules before
    exact kept.upheld_of_kept ticking answerable given raised raisedAs lasts

end Tick

theorem desk_work {wall : ℚ} {work : Desk} {w : Watch} (key : String)
    (answerable : Answerable (.desk wall work) w) (sound : w.engine.alarms.Sound) :
    (work.work wall w.engine.alarms).Sound ∧
      (OfRules key → (work.work wall w.engine.alarms).Rings key → w.engine.alarms.Rings key) := by
  cases work with
  | ack k =>
      have calmed := calmed_edit w.engine.alarms k (calms_seen wall)
      exact ⟨sound.calmed calmed, fun _ rings => rings.of_calmed calmed⟩
  | ackAll =>
      have calmed := calmed_ackAll w.engine.alarms wall
      exact ⟨sound.calmed calmed, fun _ rings => rings.of_calmed calmed⟩
  | shelve k seconds =>
      have calmed := calmed_edit w.engine.alarms k (calms_hushed seconds wall)
      exact ⟨sound.calmed calmed, fun _ rings => rings.of_calmed calmed⟩
  | raise k crit =>
      refine ⟨sound.raise, fun ofRules rings => ?_⟩
      rcases Rings.of_raise answerable.2 rings with before | same
      · exact before
      · exact absurd (same ▸ ofRules) answerable.1
  | clear k =>
      have calmed := calmed_edit w.engine.alarms k (calms_over wall)
      exact ⟨sound.calmed calmed, fun _ rings => rings.of_calmed calmed⟩
  | note k crit => exact ⟨sound.note, fun _ rings => rings.of_note⟩

theorem Kept.step {i : Input} {w : Watch} (kept : Kept w) (ticking : Ticking i w)
    (answerable : Answerable i w) : Kept (step i w) := by
  cases i with
  | desk wall work =>
      refine ⟨(desk_work "" answerable kept.sound).1, ?_, kept.dated⟩
      intro key ofRules rings
      exact kept.owned key ofRules ((desk_work key answerable kept.sound).2 ofRules rings)
  | tick t =>
      refine ⟨?_, ?_, kept.dated_tick ticking answerable.1⟩
      · exact sound_run (fun v inside => named_of_mem_turns answerable.1 inside) kept.sound
      · intro key ofRules rings
        obtain ⟨rule, inst, given, upheld⟩ := kept.upheld ticking answerable ofRules rings
        exact ⟨ruleId rule, inst, given, upheld.reports, upheld.raisedAs⟩

theorem Kept.alarmsEnd {i : Input} {w : Watch} (kept : Kept w) (ticking : Ticking i w)
    (answerable : Answerable i w) : AlarmsEnd i w := by
  cases i with
  | desk wall work => trivial
  | tick t =>
      intro key ofRules rings
      obtain ⟨rule, inst, -, upheld⟩ := kept.upheld ticking answerable ofRules rings
      exact ⟨rule, inst, upheld⟩

/-- In every run in which whatever is reported answers to its rule, every alarm
that a rule raises ends. -/
theorem rule_alarms_end (inputs : List Input) (ticking : Along step Ticking inputs .start)
    (answerable : Along step Answerable inputs .start) : Along step AlarmsEnd inputs .start := by
  apply Along.strengthen Kept _ _ Kept.start (ticking.and answerable)
  · intro i w kept ok
    exact kept.step ok.1 ok.2
  · intro i w kept ok
    exact kept.alarmsEnd ok.1 ok.2

theorem rings_of_any {tab : AlarmTable} {key : String}
    (here : (tab.at? 0).any fun a => a.key == key && a.active) : tab.Rings key := by
  obtain ⟨a, found, isKey⟩ := Option.any_eq_true _ _ |>.mp here
  rw [Bool.and_eq_true, beq_iff_eq] at isKey
  exact ⟨0, a, found, isKey.1, isKey.2⟩

/-- A tick of a rule about a pit over two hundred degrees. -/
def anyTick (mode : String) (temp now : ℚ) : Tick := Pit.tick [Pit.rule "hot" 200 []] mode temp now

/-- An alarm that is raised twice ends when the pit cools and when the cook
does. -/
theorem rule_alarms_end_on_bench :
    Along step AlarmsEnd [.tick (anyTick "Hold" 250 10), .desk 15 (.ack "RULE_hot:grill"),
        .tick (anyTick "Hold" 150 20), .tick (anyTick "Hold" 250 400),
        .tick (anyTick "Stop" 250 410)] .start ∧
      (tick (anyTick "Hold" 250 10) .init).alarms.Rings "RULE_hot:grill" :=
  ⟨rule_alarms_end _ (by decide +kernel) (by decide +kernel), rings_of_any (by decide +kernel)⟩

/-- The same rule, to hold of all of its instances at once. -/
def everyRule : Json := Pit.rule "hot" 200 [("select", .obj [("match", .str "every")])]

def everyTick (mode : String) (now : ℚ) : Tick := Pit.tick [everyRule] mode 250 now

/-- When the cook ends, an alarm about all instances is retired under a key it was
not raised under, and stays active. -/
theorem alarm_without_end :
    ¬∀ inputs, Along step Ticking inputs .start → Along step AlarmsEnd inputs .start := by
  intro always
  have ends := always [.tick (everyTick "Hold" 10), .tick (everyTick "Stop" 20)] (by decide)
  obtain ⟨rule, inst, upheld⟩ := ends.2.1 "RULE_hot:grill" (by decide)
    (rings_of_any (by decide +kernel))
  have isRule : rule = everyRule := List.mem_singleton.mp upheld.among
  have live := upheld.applies
  rw [isRule] at live
  revert live
  decide

end PiFire.Rules
