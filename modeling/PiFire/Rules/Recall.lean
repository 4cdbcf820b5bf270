import PiFire.Rules.Tick

/-!
# What the engine recalls

Seen from outside, the engine is a memory for each rule and instance. Names that
fit the table are found again, so a turn about one rule and instance leaves the
memories of all others as they are; and where the rules and the instances have
names of their own, a tick has at most one turn about each.
-/

namespace PiFire.Rules

open Transition

section Tables

variable {α : Type*} {p q : α → Bool} {f : α → α} {l : List α} {k : ℕ}

theorem find?_modify_self (place : l.findIdx? p = some k) (keeps : ∀ x, p (f x) = p x) :
    (l.modify k f).find? p = (l.find? p).map f := by
  induction l generalizing k with
  | nil => simp at place
  | cons x rest ih =>
      rw [List.findIdx?_cons] at place
      by_cases here : p x = true
      · rw [if_pos here] at place
        obtain rfl := Option.some.inj place
        rw [List.modify_zero_cons, List.find?_cons_of_pos (by rw [keeps]; exact here),
          List.find?_cons_of_pos here, Option.map_some]
      · rw [if_neg here] at place
        obtain ⟨i, found, rfl⟩ := Option.map_eq_some_iff.mp place
        rw [List.modify_succ_cons, List.find?_cons_of_neg here, List.find?_cons_of_neg here]
        exact ih found

theorem find?_modify_ne (place : l.findIdx? p = some k) (apart : ∀ x, p x = true → q x = false)
    (keeps : ∀ x, q (f x) = q x) : (l.modify k f).find? q = l.find? q := by
  induction l generalizing k with
  | nil => simp at place
  | cons x rest ih =>
      rw [List.findIdx?_cons] at place
      by_cases here : p x = true
      · rw [if_pos here] at place
        obtain rfl := Option.some.inj place
        have skipped : ¬q x = true := by simp [apart x here]
        have skippedToo : ¬q (f x) = true := by rwa [keeps]
        rw [List.modify_zero_cons, List.find?_cons_of_neg skippedToo,
          List.find?_cons_of_neg skipped]
      · rw [if_neg here] at place
        obtain ⟨i, found, rfl⟩ := Option.map_eq_some_iff.mp place
        rw [List.modify_succ_cons, List.find?_cons, List.find?_cons, ih found]

theorem findIdx?_modify (keeps : ∀ x, p (f x) = p x) : (l.modify k f).findIdx? p = l.findIdx? p := by
  induction l generalizing k with
  | nil => simp
  | cons x rest ih =>
      cases k with
      | zero => rw [List.modify_zero_cons, List.findIdx?_cons, List.findIdx?_cons, keeps]
      | succ k =>
          rw [List.modify_succ_cons, List.findIdx?_cons, List.findIdx?_cons, ih]

theorem map_find?_modify {β : Type*} {read : α → β} (keeps : ∀ x, p (f x) = p x)
    (same : ∀ x, read (f x) = read x) :
    ((l.modify k f).find? p).map read = (l.find? p).map read := by
  induction l generalizing k with
  | nil => simp
  | cons x rest ih =>
      cases k with
      | zero =>
          rw [List.modify_zero_cons, List.find?_cons, List.find?_cons, keeps]
          cases p x
          · rfl
          · exact congrArg some (same x)
      | succ k =>
          rw [List.modify_succ_cons, List.find?_cons, List.find?_cons]
          cases p x
          · exact ih
          · rfl

theorem find?_eq_getElem? (place : l.findIdx? p = some k) : l.find? p = l[k]? := by
  induction l generalizing k with
  | nil => simp at place
  | cons x rest ih =>
      rw [List.findIdx?_cons] at place
      by_cases here : p x = true
      · rw [if_pos here] at place
        obtain rfl := Option.some.inj place
        rw [List.find?_cons_of_pos here]
        rfl
      · rw [if_neg here] at place
        obtain ⟨i, found, rfl⟩ := Option.map_eq_some_iff.mp place
        rw [List.find?_cons_of_neg here, List.getElem?_cons_succ, ih found]

end Tables

/-- Whether an entry is the one of this rule and instance. -/
def Slot.isFor (id inst : String) (st : Slot) : Bool := st.rule == id && st.inst == inst

theorem Slot.isFor_iff {id inst : String} {st : Slot} :
    st.isFor id inst = true ↔ st.rule = id ∧ st.inst = inst := by
  simp [isFor]

/-- The entry of a rule and instance. -/
def slotOf (slots : List Slot) (id inst : String) : Option Slot := slots.find? (Slot.isFor id inst)

/-- What is remembered for a rule and instance; without an entry, what a new one
would hold. -/
def memoryOf (slots : List Slot) (id inst : String) : Memory :=
  ((slotOf slots id inst).map Slot.toMemory).getD .fresh

def Engine.memory (s : Engine) (id inst : String) : Memory := memoryOf s.slots id inst

@[simp] theorem Engine.memory_mk (slots : List Slot) (alarms : AlarmTable) (id inst : String) :
    Engine.memory ⟨slots, alarms⟩ id inst = memoryOf slots id inst := rfl

/-- A name that the table keeps whole. -/
def Fits (name : String) : Prop := name.toList.length ≤ nameMax

instance (name : String) : Decidable (Fits name) := inferInstanceAs (Decidable (_ ≤ _))

theorem Fits.short {name : String} (fits : Fits name) : short nameMax name = name :=
  short_eq_self fits

variable {id inst id' inst' : String} {slots : List Slot} {place : Option ℕ} {k : ℕ}

theorem slotOf_modify_self {f : Slot → Slot}
    (at' : slots.findIdx? (Slot.isFor id inst) = some k)
    (keeps : ∀ st, (f st).rule = st.rule ∧ (f st).inst = st.inst) :
    slotOf (slots.modify k f) id inst = (slotOf slots id inst).map f := by
  apply find?_modify_self at'
  intro st
  simp only [Slot.isFor, (keeps st).1, (keeps st).2]

theorem slotOf_modify_ne {f : Slot → Slot}
    (at' : slots.findIdx? (Slot.isFor id inst) = some k) (apart : ¬(id' = id ∧ inst' = inst))
    (keeps : ∀ st, (f st).rule = st.rule ∧ (f st).inst = st.inst) :
    slotOf (slots.modify k f) id' inst' = slotOf slots id' inst' := by
  apply find?_modify_ne at'
  · intro st found
    obtain ⟨rfl, rfl⟩ := Slot.isFor_iff.mp found
    rw [Bool.eq_false_iff]
    intro other
    obtain ⟨rule, inst⟩ := Slot.isFor_iff.mp other
    exact apart ⟨rule.symm, inst.symm⟩
  · intro st
    simp only [Slot.isFor, (keeps st).1, (keeps st).2]

theorem memoryOf_stateFor (rule instance' : String) :
    memoryOf (stateFor rule instance' slots).2 id inst = memoryOf slots id inst := by
  rw [stateFor]
  split
  · rfl
  · split_ifs
    · rw [memoryOf, memoryOf, slotOf, slotOf, List.find?_append]
      cases slots.find? (Slot.isFor id inst) with
      | some st => rfl
      | none =>
          rw [Option.none_or, List.find?_singleton]
          split_ifs <;> rfl
    · rfl

theorem findIdx?_stateFor (rule : Fits id) (instance' : Fits inst)
    (found : (stateFor id inst slots).1 = some k) :
    (stateFor id inst slots).2.findIdx? (Slot.isFor id inst) = some k := by
  rw [stateFor] at found ⊢
  cases at' : slots.findIdx? (Slot.isFor id inst) with
  | some i =>
      rw [show slots.findIdx? (fun st => st.rule == id && st.inst == inst) = some i from at'] at found ⊢
      obtain rfl := Option.some.inj found
      exact at'
  | none =>
      rw [show slots.findIdx? (fun st => st.rule == id && st.inst == inst) = none from at'] at found ⊢
      by_cases room : slots.length < maxState
      · simp only [if_pos room] at found ⊢
        obtain rfl := Option.some.inj found
        have isFresh : (Slot.fresh id inst).isFor id inst = true := by
          rw [Slot.isFor_iff]
          exact ⟨rule.short, instance'.short⟩
        rw [List.findIdx?_append, at', Option.none_or, List.findIdx?_cons, if_pos isFresh]
        simp
      · simp [if_neg room] at found

theorem memoryOf_of_no_place (none' : (stateFor id inst slots).1 = none) :
    memoryOf slots id inst = .fresh := by
  rw [stateFor] at none'
  split at none'
  · exact absurd none' nofun
  · rename_i missing
    have missing : slots.findIdx? (Slot.isFor id inst) = none := missing
    have unknown : slotOf slots id inst = none := by
      rw [slotOf, List.find?_eq_none]
      intro st among
      rw [List.findIdx?_eq_none_iff.mp missing st among]
      exact Bool.false_ne_true
    rw [memoryOf, unknown]
    rfl

theorem memoryOf_timed (timers : List NodeTimer) :
    memoryOf (slots.modify k fun st => { st with timers := timers }) id inst =
      memoryOf slots id inst :=
  congrArg (Option.getD · Memory.fresh) (map_find?_modify (fun _ => rfl) fun _ => rfl)

theorem findIdx?_timed (timers : List NodeTimer) :
    (slots.modify k fun st => { st with timers := timers }).findIdx? (Slot.isFor id inst) =
      slots.findIdx? (Slot.isFor id inst) := findIdx?_modify fun _ => rfl

theorem memoryOf_look (t : Tick) (rule : Json) (i : Inst) :
    memoryOf (look t rule i slots).2.2 id inst = memoryOf slots id inst := by
  rw [look]
  have looked : memoryOf (stateFor (ruleId rule) i.label slots).2 id inst =
      memoryOf slots id inst := memoryOf_stateFor (ruleId rule) i.label
  generalize stateFor (ruleId rule) i.label slots = found at looked ⊢
  obtain ⟨place, after⟩ := found
  rw [← looked]
  simp only
  split
  · rfl
  · split
    · exact memoryOf_timed _
    · rfl

theorem findIdx?_look {t : Tick} {rule : Json} {i : Inst} (named : Fits (ruleId rule))
    (labelled : Fits i.label) (found : (look t rule i slots).2.1 = some k) :
    (look t rule i slots).2.2.findIdx? (Slot.isFor (ruleId rule) i.label) = some k := by
  rw [look] at found ⊢
  have looked : ∀ k, (stateFor (ruleId rule) i.label slots).1 = some k →
      (stateFor (ruleId rule) i.label slots).2.findIdx? (Slot.isFor (ruleId rule) i.label) =
        some k := fun k => findIdx?_stateFor named labelled
  generalize stateFor (ruleId rule) i.label slots = result at looked found ⊢
  obtain ⟨place, after⟩ := result
  simp only at found looked ⊢
  split at found
  · exact looked k found
  · split at found
    · exact (findIdx?_timed _).trans (looked k found)
    · exact looked k found

theorem look_place (t : Tick) (rule : Json) (i : Inst) :
    (look t rule i slots).2.1 = (stateFor (ruleId rule) i.label slots).1 := by
  rw [look]
  generalize stateFor (ruleId rule) i.label slots = found
  obtain ⟨place, after⟩ := found
  simp only
  split
  · rfl
  · split <;> rfl

theorem memoryOf_lookAll (t : Tick) (rule : Json) (insts : List Inst) :
    memoryOf (lookAll t rule insts slots).2 id inst = memoryOf slots id inst := by
  rw [lookAll]
  generalize 0 = found
  induction insts generalizing slots found with
  | nil => rfl
  | cons i rest ih =>
      rw [List.foldl_cons]
      exact (ih _).trans (memoryOf_look t rule i)

/-- What a turn is about; a rule that is retired is about no one instance. -/
def Turn.about (id inst : String) : Turn → Bool
  | .retire _ => false
  | .judge rule i => ruleId rule == id && i.label == inst
  | .judgeEvery rule _ _ => ruleId rule == id && inst == "*"

/-- How a turn judges the memory it is about. -/
def Turn.judgement (t : Tick) : Turn → Bool → Memory → Memory × Act
  | .retire _ => fun _ m => (m, .nothing)
  | .judge rule _ => Memory.judge (termsOf rule) t.now
  | .judgeEvery rule _ _ => Memory.judgeEvery (termsOf rule) t.now

/-- The names of a turn are kept whole. -/
def Turn.Named : Turn → Prop
  | .retire _ => True
  | .judge rule i => Fits (ruleId rule) ∧ Fits i.label
  | .judgeEvery rule _ _ => Fits (ruleId rule)

instance : ∀ what : Turn, Decidable what.Named
  | .retire _ => Decidable.isTrue trivial
  | .judge _ _ => inferInstanceAs (Decidable (_ ∧ _))
  | .judgeEvery rule _ _ => inferInstanceAs (Decidable (Fits (ruleId rule)))

/-- What a turn does to a memory that it is not about. -/
def Turn.passes (id : String) : Turn → Memory → Memory
  | .retire gone, m => if gone = id then m.retired else m
  | _, m => m

theorem memory_retireRule (gone : String) (wall : ℚ) (s : Engine) :
    (retireRule gone wall s).memory id inst =
      if gone = id then (s.memory id inst).retired else s.memory id inst := by
  rw [Engine.memory, memoryOf, slotOf, retireRule, List.find?_map]
  have same : (Slot.isFor id inst ∘ fun st : Slot =>
      if st.rule = gone then st.remember st.toMemory.retired else st) =
      Slot.isFor id inst := by
    funext st
    simp only [Function.comp_apply, Slot.isFor]
    split_ifs <;> rfl
  rw [same, Engine.memory, memoryOf, slotOf]
  cases found : s.slots.find? (Slot.isFor id inst) with
  | none =>
      simp only [Option.map_none, Option.getD_none]
      split_ifs <;> rfl
  | some st =>
      have rule : st.rule = id := (Slot.isFor_iff.mp (List.find?_some found)).1
      simp only [Option.map_some, Option.getD_some, rule]
      by_cases here : gone = id
      · rw [if_pos here, if_pos here.symm]
        rfl
      · rw [if_neg here, if_neg (Ne.symm here)]

section Settle

variable {t : Tick} {rule : Json} {key : String} {judge : Bool → Memory → Memory × Act} {ok : Bool}
variable {s : Engine}

@[simp] theorem settle_none : settle t rule key judge ok none s = ⟨key, ok, .nothing, false, s⟩ := rfl

theorem settle_some (at' : s.slots.findIdx? (Slot.isFor id inst) = some k) :
    settle t rule key judge ok (some k) s =
      let r := judge ok (s.memory id inst)
      let told := r.2.perform key (critOf rule) t.wall s.alarms
      ⟨key, ok, r.2, told.1, ⟨s.slots.modify k (Slot.remember r.1), told.2⟩⟩ := by
  have here := find?_eq_getElem? at'
  obtain ⟨st, found⟩ : ∃ st, s.slots[k]? = some st := by
    have inside : k < s.slots.length := (List.findIdx?_eq_some_iff_getElem.mp at').1
    exact ⟨s.slots[k], List.getElem?_eq_getElem inside⟩
  have remembered : s.memory id inst = st.toMemory := by
    rw [Engine.memory, memoryOf, slotOf, here, found]
    rfl
  rw [settle, remembered, Option.bind_some, found]
  rfl

theorem memoryOf_write_self (m : Memory) (at' : slots.findIdx? (Slot.isFor id inst) = some k) :
    memoryOf (slots.modify k (Slot.remember m)) id inst = m := by
  have found : (slotOf slots id inst).isSome := by
    rw [slotOf, find?_eq_getElem? at', isSome_getElem?]
    exact (List.findIdx?_eq_some_iff_getElem.mp at').1
  obtain ⟨st, here⟩ := Option.isSome_iff_exists.mp found
  rw [memoryOf, slotOf_modify_self (f := Slot.remember m) at' fun _ => ⟨rfl, rfl⟩, here]
  rfl

theorem memoryOf_write_ne (m : Memory) (at' : slots.findIdx? (Slot.isFor id inst) = some k)
    (apart : ¬(id' = id ∧ inst' = inst)) :
    memoryOf (slots.modify k (Slot.remember m)) id' inst' =
      memoryOf slots id' inst' := by
  rw [memoryOf, slotOf_modify_ne (f := Slot.remember m) at' apart fun _ => ⟨rfl, rfl⟩, memoryOf]

theorem memory_settle_ne
    (at' : ∀ k, place = some k → s.slots.findIdx? (Slot.isFor id inst) = some k)
    (apart : ¬(id' = id ∧ inst' = inst)) :
    (settle t rule key judge ok place s).engine.memory id' inst' = s.memory id' inst' := by
  cases place with
  | none => rfl
  | some k =>
      rw [settle_some (at' k rfl)]
      exact memoryOf_write_ne _ (at' k rfl) apart

theorem memory_settle_self (rule : Json) (key : String) (judge : Bool → Memory → Memory × Act) (ok : Bool)
    (at' : ∀ k, place = some k → s.slots.findIdx? (Slot.isFor id inst) = some k) :
    let o := settle t rule key judge ok place s
    o.ok = ok ∧
      (place = none ∧ o.act = .nothing ∧ o.engine = s ∨
        (judge ok (s.memory id inst)).2 = o.act ∧
          o.engine.memory id inst = (judge ok (s.memory id inst)).1) := by
  cases place with
  | none => exact ⟨rfl, Or.inl ⟨rfl, rfl, rfl⟩⟩
  | some k =>
      rw [settle_some (at' k rfl)]
      exact ⟨rfl, Or.inr ⟨rfl, memoryOf_write_self _ (at' k rfl)⟩⟩

end Settle

end PiFire.Rules
