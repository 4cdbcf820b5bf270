import PiFire.Ble.Manager

/-!
# Callbacks after a device is unregistered

The manager's own rounds never call a device that is unregistered: a slot that is
marked is given free instead. Signals look at `used` only, which the mark leaves, and
this file says that they are the only way. A write looks at the slot's state only,
whoever has the slot by then; but before a device registered there has its
characteristics, the manager has been through the queue.
-/

namespace PiFire.Ble

open Transition

namespace Manager

/-- What a slot is registered for, and whether it waits for its release. -/
def Slot.claim (d : Slot) : Bool × Bool × Spec × ℕ := (d.used, d.wantRelease, d.spec, d.reg)

/-- Work for one slot: no slot changes hands, and any callback is invoked with the
context of that slot's registration. -/
structure Works (i : Fin maxDevs) (m m' : Manager) : Prop where
  claims : ∀ j, Slot.claim (m'.slots j) = Slot.claim (m.slots j)
  others : ∀ j, j ≠ i → m'.slots j = m.slots j
  queue : ∀ w ∈ m'.queue, w ∈ m.queue ∨ w.slot = i ∧ w.reg = (m.slots i).reg
  registered : m'.registered = m.registered
  handle : m'.handle = m.handle
  gone : m'.gone = m.gone
  sent : m'.sent = m.sent
  doing : m'.doing = m.doing
  calls : ∃ new, m'.calls = m.calls ++ new ∧
    ∀ c ∈ new, c.reg = (m.slots i).reg ∧ c.gone = m.gone

variable {m m' m'' : Manager} {i j : Fin maxDevs}

namespace Works

theorem used (works : Works i m m') (j : Fin maxDevs) : (m'.slots j).used = (m.slots j).used :=
  congrArg Prod.fst (works.claims j)

theorem wantRelease (works : Works i m m') (j : Fin maxDevs) :
    (m'.slots j).wantRelease = (m.slots j).wantRelease :=
  congrArg (fun claim => claim.2.1) (works.claims j)

theorem spec (works : Works i m m') (j : Fin maxDevs) : (m'.slots j).spec = (m.slots j).spec :=
  congrArg (fun claim => claim.2.2.1) (works.claims j)

theorem reg (works : Works i m m') (j : Fin maxDevs) : (m'.slots j).reg = (m.slots j).reg :=
  congrArg (fun claim => claim.2.2.2) (works.claims j)

theorem refl (i : Fin maxDevs) (m : Manager) : Works i m m :=
  ⟨fun _ => rfl, fun _ _ => rfl, fun _ => Or.inl, rfl, rfl, rfl, rfl, rfl, [],
    (List.append_nil _).symm, by rintro _ ⟨⟩⟩

theorem trans (first : Works i m m') (second : Works i m' m'') : Works i m m'' := by
  obtain ⟨new, calls, each⟩ := first.calls
  obtain ⟨new', calls', each'⟩ := second.calls
  refine ⟨fun j => (second.claims j).trans (first.claims j),
    fun j other => (second.others j other).trans (first.others j other), ?_,
    second.registered.trans first.registered, second.handle.trans first.handle,
    second.gone.trans first.gone, second.sent.trans first.sent, second.doing.trans first.doing,
    new ++ new', by rw [calls', calls, List.append_assoc], ?_⟩
  · intro w member
    rcases second.queue w member with before | own
    · exact first.queue w before
    · rw [← first.reg i]
      exact Or.inr own
  · intro c member
    rcases List.mem_append.mp member with before | after
    · exact each c before
    · rw [← first.reg i, ← first.gone]
      exact each' c after

theorem update (f : Slot → Slot) (keeps : ∀ d, Slot.claim (f d) = Slot.claim d) :
    Works i m (m.update i f) := by
  refine ⟨fun k => ?_, fun k other => ?_, fun _ => Or.inl, rfl, rfl, rfl, rfl, rfl, [],
    (List.append_nil _).symm, by rintro _ ⟨⟩⟩
  · by_cases same : k = i
    · subst same
      simp [Manager.update, keeps]
    · simp [Manager.update, same]
  · simp [Manager.update, other]

theorem enqueue (m : Manager) (uuid : String) :
    Works i m (m.enqueue ⟨i, uuid, (m.slots i).reg⟩) := by
  rw [Manager.enqueue]
  split
  · refine ⟨fun _ => rfl, fun _ _ => rfl, fun w member => ?_, rfl, rfl, rfl, rfl, rfl, [],
      (List.append_nil _).symm, by rintro _ ⟨⟩⟩
    rcases List.mem_append.mp member with before | here
    · exact Or.inl before
    · rw [List.mem_singleton.mp here]
      exact Or.inr ⟨rfl, rfl⟩
  · exact refl i m

theorem foldl {α : Type} {f : Manager → α → Manager} (each : ∀ m a, Works i m (f m a))
    (l : List α) (m : Manager) : Works i m (l.foldl f m) := by
  induction l generalizing m with
  | nil => exact refl i m
  | cons a l ih => exact (each m a).trans (ih (f m a))

theorem react (m : Manager) (callback : Callback) : Works i m (m.react i callback) := by
  cases callback with
  | connected => exact foldl (fun m uuid => enqueue m uuid) _ m
  | disconnected | value => exact refl i m

theorem invoke (m : Manager) (callback : Callback) : Works i m (m.invoke i callback) := by
  rw [Manager.invoke]
  split
  · have called : Works i m
        { m with calls := m.calls ++ [⟨callback, (m.slots i).reg, m.gone⟩] } := by
      refine ⟨fun _ => rfl, fun _ _ => rfl, fun _ => Or.inl, rfl, rfl, rfl, rfl, rfl, _, rfl, ?_⟩
      intro c member
      rw [List.mem_singleton.mp member]
      exact ⟨rfl, rfl⟩
    exact called.trans (react _ callback)
  · exact refl i m

theorem connect (m : Manager) : Works i m (m.connect i) := by
  rw [Manager.connect]
  split
  · exact refl i m
  · exact (update _ (fun _ => by rfl)).trans (invoke _ _)

theorem disconnect (m : Manager) : Works i m (m.disconnect i) := by
  have first : Works i m (m.update i fun d => { d with connected := false }) :=
    update _ (fun _ => by rfl)
  rw [Manager.disconnect]
  split
  · exact (first.trans (invoke _ _)).trans (update _ (fun _ => by rfl))
  · exact first.trans (update _ (fun _ => by rfl))

theorem deliver (m : Manager) (values : List String) : Works i m (m.deliver i values) :=
  foldl (fun m _ => invoke m _) values m

theorem passiveStep (m : Manager) (a : Answers) : Works i m (m.passiveStep i a) := by
  rw [Manager.passiveStep]
  split
  · exact refl i m
  · split
    · split
      · exact update _ (fun _ => by rfl)
      · exact refl i m
    · split
      · exact (update _ (fun _ => by rfl)).trans (invoke _ _)
      · split
        · exact (connect m).trans (invoke _ _)
        · split
          · exact (update _ (fun _ => by rfl)).trans (invoke _ _)
          · exact refl i m

theorem devStep (m : Manager) (a : Answers) : Works i m (m.devStep i a) := by
  rw [Manager.devStep]
  split
  · exact passiveStep m a
  · cases (m.slots i).st with
    | idle =>
      cases a.object with
      | none => exact refl i m
      | some path => exact update _ (fun _ => by rfl)
    | backoff =>
      dsimp only
      split
      · exact update _ (fun _ => by rfl)
      · exact refl i m
    | found =>
      dsimp only
      split <;> exact update _ (fun _ => by rfl)
    | connecting =>
      dsimp only
      split
      · exact (update _ (fun _ => by rfl)).trans (invoke _ _)
      · split
        · exact disconnect m
        · exact refl i m
    | ready =>
      dsimp only
      split
      · exact deliver m _
      · exact disconnect m
    | connected => exact refl i m

theorem hear (payloads : List (ℕ × ℕ)) (m : Manager) : Works i m (m.hear i payloads) := by
  induction payloads generalizing m with
  | nil => exact refl i m
  | cons payload payloads ih =>
    rw [Manager.hear]
    split
    · exact ((connect m).trans (invoke _ _)).trans (ih _)
    · exact ih m

end Works

/-- What holds between any two events: a slot in use waits for its release exactly when
its registration is gone, and a registration that is not gone has its slot. -/
structure Sound (m : Manager) : Prop where
  live : ∀ i, (m.slots i).used = true →
    ((m.slots i).wantRelease = true ↔ (m.slots i).reg ∈ m.gone)
  place : ∀ i, (m.slots i).used = true → m.handle (m.slots i).reg = some i
  owned : ∀ reg i, m.slotOf reg = some i → (m.slots i).used = true ∧ (m.slots i).reg = reg
  known : ∀ reg i, m.handle reg = some i → reg < m.registered
  gone : ∀ reg ∈ m.gone, reg < m.registered

theorem sound_start : Sound start where
  live := by rintro i ⟨⟩
  place := by rintro i ⟨⟩
  owned := by rintro reg i ⟨⟩
  known := by rintro reg i ⟨⟩
  gone := by rintro reg ⟨⟩

theorem Works.slotOf (works : Works i m m') (reg : ℕ) : m'.slotOf reg = m.slotOf reg := by
  rw [Manager.slotOf, Manager.slotOf, works.gone, works.handle]

theorem Sound.works (sound : Sound m) (works : Works i m m') : Sound m' where
  live j used := by
    rw [works.wantRelease, works.reg, works.gone]
    exact sound.live j (by rwa [← works.used])
  place j used := by
    rw [works.handle, works.reg]
    exact sound.place j (by rwa [← works.used])
  owned reg j slot := by
    rw [works.used, works.reg]
    exact sound.owned reg j (by rwa [← works.slotOf])
  known reg j handle := by
    rw [works.registered]
    exact sound.known reg j (by rwa [← works.handle])
  gone reg member := by
    rw [works.registered]
    exact sound.gone reg (by rwa [← works.gone])

/-- Work for a slot keeps the callbacks right where it calls nothing or the slot's
registration is not gone. -/
theorem Works.noneAfter_iff (works : Works i m m') :
    NoneAfter m' ↔ NoneAfter m ∧ (m'.calls ≠ m.calls → (m.slots i).reg ∉ m.gone) := by
  obtain ⟨new, calls, each⟩ := works.calls
  rw [NoneAfter, calls]
  constructor
  · intro spared
    refine ⟨fun c member => spared c (List.mem_append_left new member), fun called => ?_⟩
    obtain ⟨c, member⟩ := List.exists_mem_of_ne_nil new (by
      rintro rfl
      exact called (List.append_nil _))
    rw [← (each c member).1, ← (each c member).2]
    exact spared c (List.mem_append_right m.calls member)
  · rintro ⟨spared, quiet⟩ c member
    rcases List.mem_append.mp member with before | after
    · exact spared c before
    · rw [(each c after).1, (each c after).2]
      apply quiet
      intro same
      have nothing : new = [] := by simpa [calls] using same
      rw [nothing] at after
      cases after

/-! ### Rounds -/

theorem Sound.visit (sound : Sound m) (answers : Fin maxDevs → Answers) (i : Fin maxDevs) :
    Sound (visit answers m i) ∧ (NoneAfter (visit answers m i) ↔ NoneAfter m) := by
  rw [Manager.visit]
  split
  · rename_i waits
    refine ⟨?_, Iff.rfl⟩
    have other : ∀ j, (m.update i fun d =>
        { d with used := false, wantRelease := false }).slots j = m.slots j ∨ j = i := by
      intro j
      by_cases same : j = i
      · exact Or.inr same
      · exact Or.inl (by simp [Manager.update, same])
    have not_used : ((m.update i fun d =>
        { d with used := false, wantRelease := false }).slots i).used = false := by
      simp [Manager.update]
    constructor
    · intro j used
      rcases other j with same | rfl
      · rw [same] at used ⊢
        exact sound.live j used
      · rw [not_used] at used
        cases used
    · intro j used
      rcases other j with same | rfl
      · rw [same] at used ⊢
        exact sound.place j used
      · rw [not_used] at used
        cases used
    · intro reg j slot
      have before : m.slotOf reg = some j := slot
      rcases other j with same | rfl
      · rw [same]
        exact sound.owned reg j before
      · -- a slot that waits belongs to no registration that is left
        obtain ⟨used, mine⟩ := sound.owned reg j before
        have gone := (sound.live j used).mp waits
        rw [mine] at gone
        simp [Manager.slotOf, gone] at before
    · exact sound.known
    · exact sound.gone
  · rename_i not_waiting
    split
    · rename_i used
      have works := Works.devStep (i := i) m (answers i)
      have alive : (m.slots i).reg ∉ m.gone := mt (sound.live i used).mpr not_waiting
      refine ⟨sound.works works, ?_⟩
      rw [works.noneAfter_iff]
      exact and_iff_left fun _ => alive
    · exact ⟨sound, Iff.rfl⟩

theorem Sound.round (sound : Sound m) (answers : Fin maxDevs → Answers) :
    Sound (m.round answers) ∧ (NoneAfter (m.round answers) ↔ NoneAfter m) := by
  rw [Manager.round]
  generalize List.finRange maxDevs = l
  induction l generalizing m with
  | nil => exact ⟨sound, Iff.rfl⟩
  | cons i l ih =>
    obtain ⟨first, spared⟩ := sound.visit answers i
    obtain ⟨rest, spared'⟩ := ih first
    exact ⟨rest, spared'.trans spared⟩

/-! ### Signals -/

theorem enqueue_calls (m : Manager) (w : Write) : (m.enqueue w).calls = m.calls := by
  rw [enqueue]
  split <;> rfl

theorem react_calls (m : Manager) (i : Fin maxDevs) (callback : Callback) :
    (m.react i callback).calls = m.calls := by
  cases callback with
  | connected =>
    have all : ∀ (l : List String) (m : Manager),
        (l.foldl (fun m uuid => enqueue m ⟨i, uuid, (m.slots i).reg⟩) m).calls = m.calls := by
      intro l
      induction l with
      | nil => exact fun _ => rfl
      | cons uuid l ih => exact fun m => (ih _).trans (enqueue_calls _ _)
    exact all _ m
  | disconnected | value => rfl

theorem invoke_calls (m : Manager) (i : Fin maxDevs) (callback : Callback) :
    (m.invoke i callback).calls = m.calls ↔ (m.slots i).spec.has callback = false := by
  rw [invoke]
  split
  · rename_i has
    rw [react_calls]
    simp [has]
  · rename_i has
    simpa using has

theorem enqueue_slots (m : Manager) (w : Write) : (m.enqueue w).slots = m.slots := by
  rw [enqueue]
  split <;> rfl

theorem invoke_slots (m : Manager) (i : Fin maxDevs) (callback : Callback) :
    (m.invoke i callback).slots = m.slots := by
  have all : ∀ (l : List String) (m : Manager),
      (l.foldl (fun m uuid => enqueue m ⟨i, uuid, (m.slots i).reg⟩) m).slots = m.slots := by
    intro l
    induction l with
    | nil => exact fun _ => rfl
    | cons uuid l ih => exact fun m => (ih _).trans (enqueue_slots _ _)
  rw [invoke]
  split
  · cases callback with
    | connected => exact all _ _
    | disconnected | value => rfl
  · rfl

theorem Works.calls_eq (first : Works i m m') (second : Works i m' m'') :
    m''.calls = m.calls ↔ m'.calls = m.calls ∧ m''.calls = m'.calls := by
  obtain ⟨new, calls, _⟩ := first.calls
  obtain ⟨new', calls', _⟩ := second.calls
  rw [calls', calls]
  simp

/-- An advertisement with a payload of the device's maker, for a device that has a
callback to be invoked for it. -/
def Hears (m : Manager) (i : Fin maxDevs) (payloads : List (ℕ × ℕ)) : Prop :=
  (∃ p ∈ payloads, p.1 = (m.slots i).spec.manufacturerId ∧ 0 < p.2) ∧
    ((m.slots i).spec.has .value = true ∨
      (m.slots i).connected = false ∧ (m.slots i).spec.has .connected = true)

theorem connect_calls (m : Manager) (i : Fin maxDevs) :
    (m.connect i).calls = m.calls ↔
      ((m.slots i).connected = true ∨ (m.slots i).spec.has .connected = false) := by
  rw [connect]
  split
  · rename_i connected
    simp [connected]
  · rename_i not_connected
    have same := invoke_calls (m.update i fun d => { d with connected := true }) i .connected
    refine same.trans ?_
    simp [update, not_connected]

theorem connect_connected (m : Manager) (i : Fin maxDevs) :
    ((m.connect i).slots i).connected = true := by
  rw [connect]
  split
  · assumption
  · rw [invoke_slots]
    simp [update]

theorem hear_calls (payloads : List (ℕ × ℕ)) (m : Manager) :
    (m.hear i payloads).calls = m.calls ↔ ¬Hears m i payloads := by
  induction payloads generalizing m with
  | nil => simp [hear, Hears]
  | cons p payloads ih =>
    rw [hear]
    split
    · rename_i theirs
      have connects := Works.connect (i := i) m
      have invokes := Works.invoke (i := i) (m.connect i) .value
      rw [(connects.trans invokes).calls_eq (Works.hear payloads _), connects.calls_eq invokes,
        connect_calls, invoke_calls, ih, Hears, Hears, (connects.trans invokes).spec,
        connects.spec, invoke_slots, connect_connected]
      simp only [List.exists_mem_cons_iff, theirs, and_self, true_or, true_and]
      cases (m.slots i).connected <;> cases (m.slots i).spec.has .connected <;>
        cases (m.slots i).spec.has .value <;> simp
    · rename_i not_theirs
      rw [ih, Hears, Hears]
      simp [not_theirs]

theorem receiver_used {path : String} {address : Option String}
    (receives : m.receiver path address = some i) : (m.slots i).used = true := by
  rw [receiver] at receives
  split at receives
  · rename_i found
    cases receives
    have test := List.find?_some found
    simp only [Bool.and_eq_true] at test
    exact test.1.1
  · have test := List.find?_some receives
    simp only [Bool.and_eq_true] at test
    exact test.1.1.1.1

theorem Sound.alive_iff (sound : Sound m) (used : (m.slots i).used = true) :
    (m.slots i).reg ∉ m.gone ↔ (m.slots i).wantRelease = false := by
  rw [← sound.live i used]
  simp

theorem listen_claim (path : String) (d : Slot) : Slot.claim (listen path d) = Slot.claim d := by
  cases at_path : d.path <;> simp [listen, Slot.claim, at_path]

theorem onDevice_spec (sound : Sound m) (path : String) (address : Option String)
    (payloads : List (ℕ × ℕ)) :
    Sound (m.onDevice path address payloads) ∧
      (NoneAfter (m.onDevice path address payloads) ↔ NoneAfter m ∧
        ∀ i, m.receiver path address = some i → Hears m i payloads →
          (m.slots i).wantRelease = false) := by
  cases here : m.receiver path address with
  | none => simp [onDevice, here, sound]
  | some i =>
    have connected : ∀ d, (listen path d).connected = d.connected := by
      intro d
      cases at_path : d.path <;> simp [listen, at_path]
    have runs : m.onDevice path address payloads =
        (m.update i (listen path)).hear i payloads := by
      rw [onDevice, here]
    have first : Works i m (m.update i (listen path)) := Works.update _ (listen_claim path)
    have works := first.trans (Works.hear payloads _)
    have hears : Hears (m.update i (listen path)) i payloads ↔ Hears m i payloads := by
      rw [Hears, Hears, first.spec]
      simp [update, connected]
    have calls : (m.onDevice path address payloads).calls ≠ m.calls ↔ Hears m i payloads := by
      have same := hear_calls (i := i) payloads (m.update i (listen path))
      rw [hears] at same
      rw [runs, Ne, show m.calls = (m.update i (listen path)).calls from rfl, same, not_not]
    rw [← runs] at works
    refine ⟨sound.works works, ?_⟩
    rw [works.noneAfter_iff, calls, sound.alive_iff (receiver_used here)]
    simp

theorem deliver_calls (values : List String) (m : Manager) :
    (m.deliver i values).calls = m.calls ↔
      ¬(values ≠ [] ∧ (m.slots i).spec.has .value = true) := by
  induction values generalizing m with
  | nil => simp [deliver]
  | cons uuid values ih =>
    have first := Works.invoke (i := i) m .value
    have split : m.deliver i (uuid :: values) = (m.invoke i .value).deliver i values := rfl
    rw [split, first.calls_eq (Works.deliver _ values), invoke_calls, ih, first.spec]
    cases (m.slots i).spec.has .value <;> simp

theorem deliver_slots (values : List String) (m : Manager) :
    (m.deliver i values).slots = m.slots := by
  induction values generalizing m with
  | nil => rfl
  | cons uuid values ih => exact (ih (m.invoke i .value)).trans (invoke_slots m i .value)

/-- A slot that a value of a characteristic is handed to. -/
def Takes (m : Manager) (path : String) (i : Fin maxDevs) : Prop :=
  (m.slots i).used = true ∧ (m.slots i).st = .ready ∧ (m.slots i).spec.has .value = true ∧
    ∃ c ∈ (m.slots i).chars, c.2 = path

theorem onValueAt_spec (path : String) (m : Manager) (i : Fin maxDevs) :
    Works i m (onValueAt path m i) ∧ (onValueAt path m i).slots = m.slots ∧
      ((onValueAt path m i).calls ≠ m.calls ↔ m.Takes path i) := by
  rw [onValueAt]
  split
  · rename_i open_slot
    simp only [Bool.and_eq_true, beq_iff_eq] at open_slot
    refine ⟨Works.deliver m _, deliver_slots _ m, ?_⟩
    rw [Ne, deliver_calls, not_not, Takes]
    simp [open_slot, List.filter_eq_nil_iff]
    tauto
  · rename_i closed
    refine ⟨Works.refl i m, rfl, ?_⟩
    simp only [Bool.and_eq_true, beq_iff_eq] at closed
    rw [Takes]
    simp only [ne_eq, not_true_eq_false, false_iff]
    rintro ⟨used, ready, _⟩
    exact closed ⟨used, ready⟩

theorem onValue_spec (sound : Sound m) (path : String) :
    Sound (m.onValue path) ∧
      (NoneAfter (m.onValue path) ↔ NoneAfter m ∧
        ∀ i, m.Takes path i → (m.slots i).wantRelease = false) := by
  have all : ∀ (l : List (Fin maxDevs)) (m : Manager), Sound m →
      Sound (l.foldl (onValueAt path) m) ∧
        (NoneAfter (l.foldl (onValueAt path) m) ↔ NoneAfter m ∧
          ∀ i ∈ l, m.Takes path i → (m.slots i).wantRelease = false) := by
    intro l
    induction l with
    | nil => intro m sound; simp [sound]
    | cons i l ih =>
      intro m sound
      obtain ⟨works, slots, calls⟩ := onValueAt_spec path m i
      obtain ⟨rest, spared⟩ := ih (onValueAt path m i) (sound.works works)
      refine ⟨rest, ?_⟩
      rw [List.foldl_cons, spared, works.noneAfter_iff, calls, List.forall_mem_cons]
      have same : ∀ j, (onValueAt path m i).Takes path j ↔ m.Takes path j := by
        intro j
        rw [Takes, Takes, slots]
      simp only [same, slots]
      constructor
      · rintro ⟨⟨before, here⟩, others⟩
        refine ⟨before, fun takes => ?_, others⟩
        exact (sound.alive_iff takes.1).mp (here takes)
      · rintro ⟨before, here, others⟩
        refine ⟨⟨before, fun takes => ?_⟩, others⟩
        exact (sound.alive_iff takes.1).mpr (here takes)
  have result := all (List.finRange maxDevs) m sound
  rw [onValue]
  simpa only [List.mem_finRange, true_imp_iff] using result

/-! ### Drivers -/

theorem slotOf_eq_some {reg : ℕ} :
    m.slotOf reg = some i ↔ reg ∉ m.gone ∧ m.handle reg = some i := by
  rw [slotOf]
  split
  · rename_i gone
    simp [gone]
  · rename_i here
    simp [here]

theorem reclaim_cases (d : Slot) :
    (reclaim d = d ∨ d.wantRelease = true ∧ (reclaim d).used = false) := by
  rw [reclaim]
  split
  · rename_i waits
    simp only [Bool.and_eq_true] at waits
    exact Or.inr ⟨waits.1.2, rfl⟩
  · exact Or.inl rfl

theorem Sound.reclaimed (sound : Sound m) : Sound { m with slots := fun i => reclaim (m.slots i) } := by
  have kept : ∀ i, (reclaim (m.slots i)).used = true → reclaim (m.slots i) = m.slots i := by
    intro i used
    rcases reclaim_cases (m.slots i) with same | ⟨_, free⟩
    · exact same
    · rw [free] at used
      cases used
  constructor
  · intro i used
    have same := kept i used
    dsimp only at used ⊢
    rw [same] at used ⊢
    exact sound.live i used
  · intro i used
    have same := kept i used
    dsimp only at used ⊢
    rw [same] at used ⊢
    exact sound.place i used
  · intro reg i slot
    obtain ⟨used, mine⟩ := sound.owned reg i slot
    have alive : (m.slots i).wantRelease = false := by
      rw [← sound.alive_iff used, mine]
      exact (slotOf_eq_some.mp slot).1
    rcases reclaim_cases (m.slots i) with same | ⟨waits, _⟩
    · dsimp only
      rw [same]
      exact ⟨used, mine⟩
    · rw [alive] at waits
      cases waits
  · exact sound.known
  · exact sound.gone

theorem Sound.give (sound : Sound m) (free : (m.slots i).used = false) (spec : Spec) :
    Sound (m.give i spec) := by
  have new : m.registered ∉ m.gone := fun gone => Nat.lt_irrefl _ (sound.gone _ gone)
  have older : ∀ j, (m.slots j).used = true → (m.slots j).reg ≠ m.registered := by
    intro j used same
    exact Nat.lt_irrefl _ (same ▸ sound.known _ j (sound.place j used))
  constructor
  · intro j used
    by_cases same : j = i
    · subst same
      simp [Manager.give, Slot.zero, new]
    · simp only [Manager.give, Function.update_of_ne same] at used ⊢
      exact sound.live j used
  · intro j used
    by_cases same : j = i
    · subst same
      simp [Manager.give]
    · simp only [Manager.give, Function.update_of_ne same] at used ⊢
      rw [Function.update_of_ne (older j used)]
      exact sound.place j used
  · intro reg j slot
    obtain ⟨alive, handle⟩ := slotOf_eq_some.mp slot
    by_cases latest : reg = m.registered
    · subst latest
      simp only [Manager.give, Function.update_self, Option.some.injEq] at handle
      subst handle
      simp [Manager.give]
    · simp only [Manager.give, Function.update_of_ne latest] at handle
      obtain ⟨used, mine⟩ := sound.owned reg j (slotOf_eq_some.mpr ⟨alive, handle⟩)
      have other : j ≠ i := by
        rintro rfl
        rw [free] at used
        cases used
      simp only [Manager.give, Function.update_of_ne other]
      exact ⟨used, mine⟩
  · intro reg j handle
    by_cases latest : reg = m.registered
    · subst latest
      exact Nat.lt_succ_self _
    · simp only [Manager.give, Function.update_of_ne latest] at handle
      exact Nat.lt_succ_of_lt (sound.known reg j handle)
  · intro reg gone
    exact Nat.lt_succ_of_lt (sound.gone reg gone)

theorem register_spec (sound : Sound m) (spec : Spec) :
    Sound (m.register spec) ∧ (m.register spec).calls = m.calls := by
  rw [register]
  dsimp only
  split
  · rename_i i found
    have free := List.find?_some found
    exact ⟨sound.reclaimed.give (by simpa using free) spec, rfl⟩
  · exact ⟨sound.reclaimed, rfl⟩

theorem unregister_spec (sound : Sound m) (reg : ℕ) :
    Sound (m.unregister reg) ∧ (m.unregister reg).calls = m.calls := by
  rw [unregister]
  split
  · rename_i i slot
    refine ⟨?_, rfl⟩
    obtain ⟨used, mine⟩ := sound.owned reg i slot
    have handle := (slotOf_eq_some.mp slot).2
    constructor
    · intro j here
      by_cases same : j = i
      · subst same
        simp [update, mine]
      · simp only [update, Function.update_of_ne same] at here ⊢
        have other : (m.slots j).reg ≠ reg := by
          intro both
          have place := sound.place j here
          rw [both, handle] at place
          exact same (Option.some.inj place).symm
        rw [List.mem_cons, or_iff_right other]
        exact sound.live j here
    · intro j here
      by_cases same : j = i
      · subst same
        simpa [update, mine] using handle
      · simp only [update, Function.update_of_ne same] at here ⊢
        exact sound.place j here
    · intro other j here
      obtain ⟨alive, at_handle⟩ := slotOf_eq_some.mp here
      have before : m.slotOf other = some j :=
        slotOf_eq_some.mpr ⟨fun gone => alive (List.mem_cons_of_mem reg gone), at_handle⟩
      obtain ⟨used', mine'⟩ := sound.owned other j before
      have apart : j ≠ i := by
        rintro rfl
        rw [mine] at mine'
        exact alive (mine' ▸ List.mem_cons_self)
      simp only [update, Function.update_of_ne apart]
      exact ⟨used', mine'⟩
    · exact sound.known
    · intro other gone
      rcases List.mem_cons.mp gone with rfl | before
      · exact sound.known _ i handle
      · exact sound.gone other before
  · exact ⟨sound, rfl⟩

theorem Sound.of_queue (sound : Sound m) (queue : List Write) (doing : Doing)
    (sent : List Sent) : Sound { m with queue := queue, doing := doing, sent := sent } :=
  ⟨sound.live, sound.place, sound.owned, sound.known, sound.gone⟩

theorem write_spec (sound : Sound m) (reg : ℕ) (uuid : String) :
    Sound (m.write reg uuid) ∧ (m.write reg uuid).calls = m.calls := by
  rw [write]
  split
  · refine ⟨?_, enqueue_calls _ _⟩
    rw [enqueue]
    split
    · exact sound.of_queue _ m.doing m.sent
    · exact sound
  · exact ⟨sound, rfl⟩

theorem wake_spec (sound : Sound m) : Sound m.wake ∧ m.wake.calls = m.calls := by
  rw [wake]
  split
  · exact ⟨sound.of_queue m.queue _ m.sent, rfl⟩
  · exact ⟨sound, rfl⟩

theorem take_spec (sound : Sound m) : Sound m.take ∧ m.take.calls = m.calls := by
  unfold take
  split
  · exact ⟨sound.of_queue _ _ m.sent, rfl⟩
  · exact ⟨sound.of_queue m.queue _ m.sent, rfl⟩
  · exact ⟨sound, rfl⟩

theorem send_spec (sound : Sound m) : Sound m.send ∧ m.send.calls = m.calls := by
  rw [send]
  split
  · split
    · exact ⟨sound.of_queue m.queue _ _, rfl⟩
    · exact ⟨sound.of_queue m.queue _ m.sent, rfl⟩
  · exact ⟨sound, rfl⟩

/-! ### Every event -/

/-- A signal that a callback is invoked for reaches no slot that waits for its release. -/
def Careful : Event → Manager → Prop
  | .onDevice path address payloads, m => m.doing = .polling →
    ∀ i, m.receiver path address = some i → Hears m i payloads →
      (m.slots i).wantRelease = false
  | .onValue path, m => m.doing = .polling →
    ∀ i, m.Takes path i → (m.slots i).wantRelease = false
  | _, _ => True

theorem step_noneAfter (sound : Sound m) (e : Event) :
    Sound (step e m) ∧ (NoneAfter (step e m) ↔ NoneAfter m ∧ Careful e m) := by
  have harmless : ∀ {m' : Manager}, Sound m' ∧ m'.calls = m.calls →
      Sound m' ∧ (NoneAfter m' ↔ NoneAfter m ∧ True) := by
    rintro m' ⟨sound', calls⟩
    rw [NoneAfter, NoneAfter, calls, and_true]
    exact ⟨sound', Iff.rfl⟩
  cases e with
  | register spec => exact harmless (register_spec sound spec)
  | unregister reg => exact harmless (unregister_spec sound reg)
  | write reg uuid => exact harmless (write_spec sound reg uuid)
  | wake => exact harmless (wake_spec sound)
  | take => exact harmless (take_spec sound)
  | send => exact harmless (send_spec sound)
  | round answers =>
    rw [step]
    split
    · obtain ⟨sound', calls⟩ := sound.round answers
      exact ⟨sound'.of_queue _ _ _, calls.trans (and_true _).symm.to_iff⟩
    · exact harmless ⟨sound, rfl⟩
  | onDevice path address payloads =>
    rw [step, Careful]
    split
    · rename_i polling
      rw [imp_iff_right polling]
      exact onDevice_spec sound path address payloads
    · rename_i busy
      exact ⟨sound, (and_iff_left fun polling => absurd polling busy).symm⟩
  | onValue path =>
    rw [step, Careful]
    split
    · rename_i polling
      rw [imp_iff_right polling]
      exact onValue_spec sound path
    · rename_i busy
      exact ⟨sound, (and_iff_left fun polling => absurd polling busy).symm⟩

end Manager

end PiFire.Ble
