import PiFire.Ble.Freed

/-!
# Writes and the slots they were queued for

A write whose slot was registered anew since it was queued finds a device there that
is not ready or has no characteristics: it takes three rounds of the manager until it
has, and before each the manager goes through the queue.
-/

namespace PiFire.Ble

open Transition

namespace Manager

/-- A device that will not take a write before the queue has been gone through. -/
def Slot.Young (stepping : Prop) (d : Slot) : Prop :=
  d.chars = [] ∧ (d.spec.passive = true ∨ d.st = .idle ∨ ¬stepping ∧ d.st = .found)

/-- The writes that are queued or being sent. -/
def pending (m : Manager) : List Write :=
  match m.doing with
  | .sending w => w :: m.queue
  | _ => m.queue

/-- A write whose slot has another registration than it was queued for waits for a device
that is young. -/
def Stale (stepping : Prop) (m : Manager) (w : Write) : Prop :=
  (m.slots w.slot).reg = w.reg ∨ Slot.Young stepping (m.slots w.slot)

/-- What holds of the writes between any two events. -/
def Orderly (m : Manager) : Prop := ∀ w ∈ m.pending, m.Stale (m.doing = .stepping) w

variable {m m' : Manager} {i : Fin maxDevs} {stepping : Prop}

theorem Slot.Young.mono {stepping' : Prop} {d : Slot} (young : Slot.Young stepping d)
    (fewer : stepping' → stepping) : Slot.Young stepping' d :=
  ⟨young.1, young.2.imp_right (Or.imp_right fun found => ⟨mt fewer found.1, found.2⟩)⟩

theorem not_sendable {w : Write} (young : Slot.Young stepping (m.slots w.slot)) :
    m.sendable w = false := by
  rw [sendable, young.1]
  simp

theorem Orderly.of_work (orderly : Orderly m) (doing : m'.doing = m.doing)
    (queue : ∀ w ∈ m'.queue, w ∈ m.queue ∨ (m'.slots w.slot).reg = w.reg)
    (kept : ∀ w ∈ m.pending, m.Stale (m.doing = .stepping) w →
      m'.Stale (m.doing = .stepping) w) : Orderly m' := by
  intro w member
  rw [doing]
  have before : w ∈ m.pending ∨ (m'.slots w.slot).reg = w.reg := by
    rw [pending, doing] at member
    rw [pending]
    cases here : m.doing with
    | sending w' =>
      rw [here] at member
      rcases List.mem_cons.mp member with rfl | queued
      · exact Or.inl List.mem_cons_self
      · exact (queue w queued).imp_left (List.mem_cons_of_mem w')
    | polling | draining | stepping =>
      rw [here] at member
      exact queue w member
  rcases before with before | own
  · exact kept w before (orderly w before)
  · exact Or.inl own

theorem Works.orderly (works : Works i m m') (orderly : Orderly m)
    (young : Slot.Young (m.doing = .stepping) (m.slots i) →
      Slot.Young (m.doing = .stepping) (m'.slots i)) : Orderly m' := by
  apply orderly.of_work works.doing
  · intro w member
    rcases works.queue w member with before | ⟨rfl, own⟩
    · exact Or.inl before
    · rw [works.reg]
      exact Or.inr own.symm
  · rintro w _ (own | stale)
    · rw [Stale, works.reg]
      exact Or.inl own
    · by_cases same : w.slot = i
      · subst same
        exact Or.inr (young stale)
      · right
        rw [works.others _ same]
        exact stale

/-! ### Rounds -/

theorem invoke_slot (m : Manager) (i : Fin maxDevs) (callback : Callback) :
    (m.invoke i callback).slots i = m.slots i := by
  rw [invoke_slots]

theorem connect_slot (m : Manager) (i : Fin maxDevs) :
    (m.connect i).slots i = { m.slots i with connected := true } := by
  rw [connect]
  split
  · rename_i connected
    rw [← connected]
  · rw [invoke_slots]
    simp [update]

theorem update_slot (m : Manager) (i : Fin maxDevs) (f : Slot → Slot) :
    (m.update i f).slots i = f (m.slots i) := by
  simp [update]

theorem passiveStep_chars (m : Manager) (i : Fin maxDevs) (a : Answers) :
    ((m.passiveStep i a).slots i).chars = (m.slots i).chars := by
  rw [passiveStep]
  split
  · rfl
  · split
    · split
      · rw [update_slot]
      · rfl
    · split
      · rw [invoke_slot, update_slot]
      · split
        · rw [invoke_slot, connect_slot]
        · split
          · rw [invoke_slot, update_slot]
          · rfl

theorem devStep_young (young : Slot.Young True (m.slots i)) (a : Answers) :
    Slot.Young False ((m.devStep i a).slots i) := by
  obtain ⟨no_chars, kind⟩ := young
  have works := Works.devStep (i := i) m a
  by_cases passive : (m.slots i).spec.passive = true
  · refine ⟨?_, Or.inl (by rw [works.spec]; exact passive)⟩
    rw [devStep, if_pos passive, passiveStep_chars]
    exact no_chars
  · have idle : (m.slots i).st = .idle := by
      rcases kind with listens | idle | ⟨stepping, _⟩
      · exact absurd listens passive
      · exact idle
      · exact absurd trivial stepping
    rw [devStep, if_neg passive, idle]
    cases a.object with
    | none => exact ⟨no_chars, Or.inr (Or.inl idle)⟩
    | some path =>
      dsimp only
      rw [update_slot]
      exact ⟨no_chars, Or.inr (Or.inr ⟨id, rfl⟩)⟩

/-- The writes at one place in a round: `left` are the slots it has not come by. -/
def MidRound (left : List (Fin maxDevs)) (m : Manager) : Prop :=
  ∀ w ∈ m.queue, m.Stale (w.slot ∈ left) w

theorem visit_midRound {left : List (Fin maxDevs)} (once : i ∉ left)
    (mid : MidRound (i :: left) m) (answers : Fin maxDevs → Answers) :
    MidRound left (visit answers m i) := by
  rw [visit]
  split
  · intro w member
    rcases mid w member with own | young
    · left
      by_cases here : w.slot = i
      · rw [here, update_slot, ← here]
        exact own
      · simpa [update, here] using own
    · right
      have kept := young.mono (List.mem_cons_of_mem i : w.slot ∈ left → w.slot ∈ i :: left)
      by_cases here : w.slot = i
      · rw [here] at kept ⊢
        rw [update_slot]
        exact kept
      · simpa [update, here] using kept
  · split
    · have works := Works.devStep (i := i) m (answers i)
      intro w member
      rcases works.queue w member with before | ⟨here, own⟩
      · rcases mid w before with own | young
        · exact Or.inl ((works.reg _).trans own)
        · right
          by_cases here : w.slot = i
          · rw [here] at young ⊢
            have first := young.mono (fun _ : True => List.mem_cons_self)
            exact (devStep_young first (answers i)).mono once
          · rw [works.others _ here]
            exact young.mono (List.mem_cons_of_mem i)
      · left
        rw [works.reg, here]
        exact own.symm
    · intro w member
      exact (mid w member).imp_right fun young => young.mono (List.mem_cons_of_mem i)

theorem round_midRound (answers : Fin maxDevs → Answers) {left : List (Fin maxDevs)}
    (once : left.Nodup) (mid : MidRound left m) :
    MidRound [] (left.foldl (visit answers) m) := by
  induction left generalizing m with
  | nil => exact mid
  | cons i left ih =>
    obtain ⟨out, rest⟩ := List.nodup_cons.mp once
    exact ih rest (visit_midRound out mid answers)

theorem round_orderly (orderly : Orderly m) (stepping : m.doing = .stepping)
    (answers : Fin maxDevs → Answers) :
    Orderly { m.round answers with doing := .polling } := by
  have mid : MidRound (List.finRange maxDevs) m := by
    intro w member
    have before : w ∈ m.pending := by
      rw [pending, stepping]
      exact member
    exact (orderly w before).imp_right fun young => young.mono fun _ => stepping
  have after := round_midRound answers (List.nodup_finRange maxDevs) mid
  intro w member
  refine (after w member).imp_right fun young => young.mono ?_
  rintro ⟨⟩

/-! ### Signals and drivers -/

theorem hear_slot (payloads : List (ℕ × ℕ)) (m : Manager) :
    ((m.hear i payloads).slots i).chars = (m.slots i).chars := by
  induction payloads generalizing m with
  | nil => rfl
  | cons p payloads ih =>
    rw [hear]
    split
    · rw [ih, invoke_slot, connect_slot]
    · exact ih m

theorem receiver_passive {path : String} {address : Option String}
    (receives : m.receiver path address = some i) : (m.slots i).spec.passive = true := by
  rw [receiver] at receives
  split at receives
  · rename_i found
    cases receives
    have test := List.find?_some found
    simp only [Bool.and_eq_true] at test
    exact test.1.2
  · have test := List.find?_some receives
    simp only [Bool.and_eq_true] at test
    exact test.1.1.1.2

theorem onDevice_orderly (orderly : Orderly m) (path : String) (address : Option String)
    (payloads : List (ℕ × ℕ)) : Orderly (m.onDevice path address payloads) := by
  rw [onDevice]
  split
  · rename_i i here
    have works := (Works.update (m := m) (listen path) (listen_claim path)).trans
      (Works.hear (i := i) payloads _)
    apply works.orderly orderly
    intro young
    refine ⟨?_, Or.inl (by rw [works.spec]; exact receiver_passive here)⟩
    rw [hear_slot, update_slot, ← young.1]
    cases at_path : (m.slots i).path <;> simp [listen, at_path]
  · exact orderly

theorem onValue_orderly (orderly : Orderly m) (path : String) : Orderly (m.onValue path) := by
  rw [onValue]
  generalize List.finRange maxDevs = l
  induction l generalizing m with
  | nil => exact orderly
  | cons i l ih =>
    obtain ⟨works, slots, _⟩ := onValueAt_spec path m i
    apply ih
    apply works.orderly orderly
    rw [slots]
    exact id

theorem register_orderly (orderly : Orderly m) (spec : Spec) : Orderly (m.register spec) := by
  have reclaimed : Orderly { m with slots := fun i => reclaim (m.slots i) } := by
    refine orderly.of_work rfl (fun _ => Or.inl) ?_
    rintro w _ (own | young)
    · left
      rw [← own]
      dsimp only [reclaim]
      split <;> rfl
    · right
      dsimp only [reclaim]
      split
      · exact young
      · exact young
  rw [register]
  dsimp only
  split
  · rename_i i found
    refine reclaimed.of_work rfl (fun _ => Or.inl) ?_
    intro w _ stale
    by_cases here : w.slot = i
    · right
      rw [here]
      simp only [give, Function.update_self]
      exact ⟨rfl, Or.inr (Or.inl rfl)⟩
    · rw [Stale]
      simp only [give, Function.update_of_ne here]
      exact stale
  · exact reclaimed

theorem unregister_orderly (orderly : Orderly m) (reg : ℕ) : Orderly (m.unregister reg) := by
  rw [unregister]
  split
  · rename_i i slot
    refine orderly.of_work rfl (fun _ => Or.inl) ?_
    rintro w _ stale
    by_cases here : w.slot = i
    · rw [Stale, here] at stale ⊢
      rw [update_slot]
      exact stale
    · rw [Stale] at stale ⊢
      simpa [update, here] using stale
  · exact orderly

theorem write_orderly (sound : Sound m) (orderly : Orderly m) (reg : ℕ) (uuid : String) :
    Orderly (m.write reg uuid) := by
  rw [write]
  split
  · rename_i i slot
    rw [enqueue]
    split
    · refine orderly.of_work rfl ?_ fun _ _ => id
      intro w member
      rcases List.mem_append.mp member with before | here
      · exact Or.inl before
      · rw [List.mem_singleton.mp here]
        exact Or.inr (sound.owned reg i slot).2
    · exact orderly
  · exact orderly

/-! ### The queue -/

theorem wake_orderly (orderly : Orderly m) : Orderly m.wake := by
  rw [wake]
  split
  · rename_i polling
    intro w member
    have before : w ∈ m.pending := by
      rw [pending, polling]
      exact member
    refine (orderly w before).imp_right fun young => young.mono ?_
    rintro ⟨⟩
  · exact orderly

theorem take_orderly (orderly : Orderly m) : Orderly m.take := by
  unfold take
  split
  · rename_i w queue draining waiting
    intro w' member
    have before : w' ∈ m.pending := by
      rw [pending, draining, waiting]
      exact member
    refine (orderly w' before).imp_right fun young => young.mono ?_
    rintro ⟨⟩
  · rename_i draining empty
    intro w member
    rw [pending] at member
    dsimp only at member
    rw [empty] at member
    cases member
  · exact orderly

theorem send_orderly (orderly : Orderly m) (none_stray : NoneStray m) :
    Orderly m.send ∧ NoneStray m.send := by
  have rest : ∀ w, m.doing = .sending w → ∀ sent,
      Orderly { m with doing := .draining, sent := sent } := by
    intro w sending sent w' member
    have before : w' ∈ m.pending := by
      rw [pending, sending]
      exact List.mem_cons_of_mem w member
    refine (orderly w' before).imp_right fun young => young.mono ?_
    rintro ⟨⟩
  rw [send]
  split
  · rename_i w sending
    split
    · rename_i can
      refine ⟨rest w sending _, ?_⟩
      intro s member
      rcases List.mem_append.mp member with before | here
      · exact none_stray s before
      · rw [List.mem_singleton.mp here]
        have mine : w ∈ m.pending := by
          rw [pending, sending]
          exact List.mem_cons_self
        rcases orderly w mine with own | young
        · exact own.symm
        · rw [not_sendable young] at can
          cases can
    · exact ⟨rest w sending _, none_stray⟩
  · exact ⟨orderly, none_stray⟩

/-! ### Runs -/

theorem visit_sent (answers : Fin maxDevs → Answers) (m : Manager) (i : Fin maxDevs) :
    (visit answers m i).sent = m.sent := by
  rw [visit]
  split
  · rfl
  · split
    · exact (Works.devStep m (answers i)).sent
    · rfl

theorem round_sent (m : Manager) (answers : Fin maxDevs → Answers) :
    (m.round answers).sent = m.sent := by
  rw [round]
  generalize List.finRange maxDevs = l
  induction l generalizing m with
  | nil => rfl
  | cons i l ih => exact (ih _).trans (visit_sent answers m i)

theorem onDevice_sent (m : Manager) (path : String) (address : Option String)
    (payloads : List (ℕ × ℕ)) : (m.onDevice path address payloads).sent = m.sent := by
  rw [onDevice]
  split
  · exact (Works.hear payloads _).sent
  · rfl

theorem onValue_sent (m : Manager) (path : String) : (m.onValue path).sent = m.sent := by
  rw [onValue]
  generalize List.finRange maxDevs = l
  induction l generalizing m with
  | nil => rfl
  | cons i l ih => exact (ih _).trans (onValueAt_spec path m i).1.sent

theorem step_sent (m : Manager) (e : Event) : (step e m).sent = m.sent ∨ e = .send := by
  cases e with
  | send => exact Or.inr rfl
  | register spec =>
    left
    rw [step, register]
    dsimp only
    split <;> rfl
  | unregister reg =>
    left
    rw [step, unregister]
    split <;> rfl
  | write reg uuid =>
    left
    rw [step, write]
    split
    · rw [enqueue]
      split <;> rfl
    · rfl
  | wake =>
    left
    rw [step, wake]
    split <;> rfl
  | take =>
    left
    rw [step]
    unfold take
    split <;> rfl
  | round answers =>
    left
    rw [step]
    split
    · exact round_sent m answers
    · rfl
  | onDevice path address payloads =>
    left
    rw [step]
    split
    · exact onDevice_sent m path address payloads
    · rfl
  | onValue path =>
    left
    rw [step]
    split
    · exact onValue_sent m path
    · rfl

theorem step_orderly (e : Event) (sound : Sound m) (orderly : Orderly m)
    (none_stray : NoneStray m) : Orderly (step e m) ∧ NoneStray (step e m) := by
  rcases step_sent m e with quiet | rfl
  · have still : NoneStray (step e m) := by
      rw [NoneStray, quiet]
      exact none_stray
    refine ⟨?_, still⟩
    cases e with
    | register spec => exact register_orderly orderly spec
    | unregister reg => exact unregister_orderly orderly reg
    | write reg uuid => exact write_orderly sound orderly reg uuid
    | wake => exact wake_orderly orderly
    | take => exact take_orderly orderly
    | send => exact (send_orderly orderly none_stray).1
    | round answers =>
      rw [step]
      split
      · rename_i stepping
        exact round_orderly orderly stepping answers
      · exact orderly
    | onDevice path address payloads =>
      rw [step]
      split
      · exact onDevice_orderly orderly path address payloads
      · exact orderly
    | onValue path =>
      rw [step]
      split
      · exact onValue_orderly orderly path
      · exact orderly
  · exact send_orderly orderly none_stray

/-- What holds between any two events of any run. -/
structure Served (m : Manager) : Prop where
  sound : Sound m
  orderly : Orderly m
  none_stray : NoneStray m

theorem served_start : Served start where
  sound := sound_start
  orderly := by rintro w ⟨⟩
  none_stray := by rintro w ⟨⟩

theorem Served.step (served : Served m) (e : Event) : Served (step e m) where
  sound := (step_noneAfter served.sound e).1
  orderly := (step_orderly e served.sound served.orderly served.none_stray).1
  none_stray := (step_orderly e served.sound served.orderly served.none_stray).2

/-- What drivers rely on: nothing is called for a device after `pf_ble_unregister`
returned, and no write reaches a device it was not queued for. -/
def Spared (m : Manager) : Prop := NoneAfter m ∧ NoneStray m

/-- Drivers get what they rely on in just the runs where no signal of the bus that a
device would be called for finds its slot waiting for its release. -/
theorem drivers_spared_iff (events : List Event) :
    Spared (run step events start) ↔ Along step Careful events start := by
  have served : Served (run step events start) :=
    run_invariant Served (fun e _ served => served.step e) served_start
  have calls : NoneAfter (run step events start) ↔
      NoneAfter start ∧ Along step Careful events start :=
    run_iff_along Served NoneAfter (fun e _ served => served.step e)
      (fun e _ served => (step_noneAfter served.sound e).2) served_start
  have none_yet : NoneAfter start := by rintro c ⟨⟩
  rw [Spared, and_iff_left served.none_stray, calls, and_iff_right none_yet]

/-- A thermometer that is listened to by its address, with every callback. -/
def beacon : Spec :=
  { passive := true
    manufacturerId := 1485
    address := some "AA"
    has := fun _ => true
    login := [] }

/-- The thermometer is heard once, its driver unregisters it, and it is heard again
before the manager comes by. -/
def heardAgain : List Event :=
  [.register beacon, .onDevice "dev" (some "AA") [(1485, 16)], .unregister 0,
    .onDevice "dev" (some "AA") [(1485, 16)]]

/-- The driver is called with what it freed. -/
theorem heard_after_unregister : ¬Spared (run step heardAgain start) := by
  rintro ⟨none_after, _⟩
  have called : (⟨.value, 0, [0]⟩ : Call) ∈ (run step heardAgain start).calls := by
    decide
  exact none_after _ called List.mem_cons_self

end Manager

end PiFire.Ble
