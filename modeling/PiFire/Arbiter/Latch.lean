import PiFire.Arbiter.Calls
import PiFire.Transition.Threads

/-!
# Emergency-off latch

Once an emergency off that obtained the lock has driven the outputs off, nothing
is on and no call in flight can switch anything on: a call past its first check
meets the second one under the lock, and a call past the second one would hold
the lock. Every step of every thread keeps this, so it holds for good.
-/

namespace PiFire

open Transition

namespace Arbiter

variable {P : Platform} {Thread : Type}

/-- The emergency off is in flight, with the latch it has set. -/
def Latching : Stage P.Inst → Prop
  | .waiting .emergencyOff | .holding .emergencyOff | .writing .emergencyOff => True
  | _ => False

/-- The emergency off obtained the lock and has driven the outputs off. -/
def DrivenOff : Stage P.Inst → Prop
  | .booking .emergencyOff _ | .leaving .emergencyOff _ => True
  | _ => False

/-- The latch is set, nothing is on, and no thread is about to switch anything on. -/
structure Quenched (a : Arbiter P Thread) : Prop where
  latched : a.latched = true
  dark : a.Dark
  calm : ∀ t, ¬(a.stage t).Energising

/-- What holds in every state of the arbiter. -/
structure Sound (a : Arbiter P Thread) : Prop where
  exclusive : Exclusive Stage.Inside a.stage a.owner
  latching : ∀ t, Latching (a.stage t) → a.latched = true
  drivenOff : ∀ t, DrivenOff (a.stage t) → a.Quenched

theorem sound_start (inst : Option P.Inst) : (start inst : Arbiter P Thread).Sound where
  exclusive := exclusive_none.mpr fun _ => id
  latching _ := False.elim
  drivenOff _ := False.elim

variable {a : Arbiter P Thread} {t : Thread}

theorem latching_begin {call : Call ℕ P.Inst} (is : Latching (a.begin call)) :
    latchedBy a.latched call = true := by
  rcases call with ⟨o, on⟩ | pct | hz | _ | _ | inst | _ | _
  · simp only [begin] at is
    split at is
    · exact is.elim
    · split at is <;> exact is.elim
  · simp only [begin] at is
    split at is <;> exact is.elim
  · simp only [begin] at is
    split at is <;> exact is.elim
  · exact is.elim
  · exact is.elim
  · exact is.elim
  · exact is.elim
  · rfl

theorem begin_outside (call : Call ℕ P.Inst) :
    ¬(a.begin call).Inside ∧ ¬(a.begin call).Energising ∧ ¬DrivenOff (a.begin call) := by
  rcases call with ⟨o, on⟩ | pct | hz | _ | _ | inst | _ | _
  · simp only [begin]
    split
    · exact ⟨id, id, id⟩
    · split <;> exact ⟨id, id, id⟩
  · simp only [begin]
    split <;> exact ⟨id, id, id⟩
  · simp only [begin]
    split <;> exact ⟨id, id, id⟩
  all_goals exact ⟨id, id, id⟩

theorem latchedBy_latched (latched : a.latched = true) (call : Call ℕ P.Inst) :
    latchedBy a.latched call = true := by
  rcases call <;> first | rfl | exact latched

theorem recheck_calm (latched : a.latched = true) (call : Call Output P.Inst) :
    ¬(a.recheck call).Energising := by
  unfold recheck
  by_cases on : call.energises = true
  · rw [if_pos ⟨latched, on⟩]
    exact id
  · rw [if_neg fun refused => on refused.2]
    exact on

theorem recheck_inside (call : Call Output P.Inst) : (a.recheck call).Inside := by
  unfold recheck
  split <;> exact trivial

theorem write_stage (call : Call Output P.Inst) :
    ∃ rc, (a.write call).2 = .booking call rc ∨ (a.write call).2 = .leaving call rc := by
  unfold write
  split
  · split
    · exact ⟨_, Or.inl rfl⟩
    · exact ⟨_, Or.inr rfl⟩
  all_goals first | exact ⟨_, Or.inl rfl⟩ | exact ⟨_, Or.inr rfl⟩

theorem map_allOff_dark {inst : Option P.Inst} : ∀ i ∈ inst.map P.allOff, P.Dark i := by
  intro i inside
  rcases Option.mem_map.mp inside with ⟨before, _, rfl⟩
  exact P.allOff_dark before

theorem write_dark (dark : a.Dark) {call : Call Output P.Inst} (off : call.energises ≠ true) :
    ∀ inst ∈ (a.write call).1, P.Dark inst := by
  have written {inst : P.Inst} (dark : P.Dark inst) : ∀ other ∈ some inst, P.Dark other := by
    intro other inside
    exact Option.mem_some_iff.mp inside ▸ dark
  unfold write
  split
  · rename_i o on inst present
    have before := dark inst present
    have low : on = false := by simpa [Call.energises] using off
    subst low
    split
    · exact written (P.setOutput_off_dark inst o before)
    · exact written before
  · rename_i pct inst present
    have low : pct ≤ 0 := by simpa [Call.energises] using off
    exact written (P.setFanPct_dark inst pct low (dark inst present))
  · rename_i hz inst present
    exact written (P.setPwmFrequency_dark inst hz (dark inst present))
  · exact nofun
  · exact nofun
  · exact nofun
  · exact map_allOff_dark
  · exact map_allOff_dark
  · exact dark
  · rename_i inst
    exact written (P.allOff_dark inst)
  · exact nofun

variable [DecidableEq Thread]

theorem Quenched.go (quenched : a.Quenched) {s : Stage P.Inst} (calm : ¬s.Energising) :
    (a.go t s).Quenched where
  latched := quenched.latched
  dark := quenched.dark
  calm := (Function.forall_update_iff a.stage fun _ s => ¬s.Energising).mpr
    ⟨calm, fun u _ => quenched.calm u⟩

theorem Quenched.moved {owner : Option Thread} {inst : Option P.Inst} {state : Output → Bool}
    {fanPct : ℤ} {s : Stage P.Inst} (quenched : a.Quenched) (dark : ∀ i ∈ inst, P.Dark i)
    (calm : ¬s.Energising) :
    ({ latched := a.latched, owner := owner, inst := inst, state := state, fanPct := fanPct
       stage := Function.update a.stage t s } : Arbiter P Thread).Quenched where
  latched := quenched.latched
  dark := dark
  calm := (quenched.go calm).calm

theorem Quenched.enter (quenched : a.Quenched) (call : Call ℕ P.Inst) :
    (a.enter t call).Quenched := by
  unfold Arbiter.enter
  split
  · apply Quenched.go _ (begin_outside call).2.1
    exact ⟨latchedBy_latched quenched.latched call, quenched.dark, quenched.calm⟩
  · exact quenched

theorem Quenched.advance (quenched : a.Quenched) : (a.advance t).Quenched := by
  unfold Arbiter.advance
  rcases here : a.stage t with rc | call | call | call | ⟨call, rc⟩ | ⟨call, rc⟩ | _ | _
  · exact quenched
  · by_cases free : a.owner = none
    · simp only [if_pos free]
      exact quenched.moved quenched.dark id
    · simpa only [if_neg free] using quenched
  · exact quenched.go (recheck_calm quenched.latched call)
  · have off : call.energises ≠ true := by
      have calm := quenched.calm t
      rwa [here] at calm
    have calm : ¬(a.write call).2.Energising := by
      rcases write_stage (a := a) call with ⟨rc, next | next⟩ <;> (rw [next]; exact id)
    exact quenched.moved (write_dark quenched.dark off) calm
  · exact quenched.moved quenched.dark id
  · exact quenched.moved quenched.dark id
  · exact quenched.moved map_allOff_dark id
  · exact quenched.moved quenched.dark id

/-- No event of any thread ends the quenched state. -/
theorem Quenched.step (quenched : a.Quenched) (event : Thread × Event P.Inst) :
    (Arbiter.step event a).Quenched := by
  rcases event with ⟨t, call | _ | _⟩
  · exact quenched.enter call
  · exact quenched.advance
  · simp only [Arbiter.step]
    split
    · exact quenched.go id
    · exact quenched

/-- An emergency off that holds the lock quenches: no other thread is past the
second check. -/
theorem Sound.quench (sound : a.Sound) (here : a.stage t = .writing .emergencyOff) :
    (a.advance t).Quenched := by
  have latched : a.latched = true := sound.latching t (by rw [here]; trivial)
  have inside : (a.stage t).Inside := by rw [here]; trivial
  unfold Arbiter.advance
  simp only [here]
  refine ⟨latched, map_allOff_dark, ?_⟩
  intro u
  by_cases same : u = t
  · subst same
    simp [Arbiter.go, write, Stage.Energising]
  · simp only [Arbiter.go, Function.update_of_ne same]
    intro energising
    apply same
    apply sound.exclusive.unique _ inside
    rcases there : a.stage u with rc | call | call | call | ⟨call, rc⟩ | ⟨call, rc⟩ | _ | _ <;>
      first
      | trivial
      | (rw [there] at energising; exact energising.elim)

theorem Exclusive.enter_call (exclusive : Exclusive Stage.Inside a.stage a.owner)
    (call : Call ℕ P.Inst) :
    Exclusive Stage.Inside (a.enter t call).stage (a.enter t call).owner := by
  unfold Arbiter.enter
  split
  · rename_i rc here
    apply exclusive.move
    exact iff_of_false (begin_outside call).1 (by rw [here]; exact id)
  · exact exclusive

theorem Exclusive.advance_call (exclusive : Exclusive Stage.Inside a.stage a.owner) :
    Exclusive Stage.Inside (a.advance t).stage (a.advance t).owner := by
  unfold Arbiter.advance
  rcases here : a.stage t with rc | call | call | call | ⟨call, rc⟩ | ⟨call, rc⟩ | _ | _
  · exact exclusive
  · by_cases free : a.owner = none
    · simp only [if_pos free]
      rw [free] at exclusive
      exact exclusive.enter trivial
    · simpa only [if_neg free] using exclusive
  · apply exclusive.move
    exact iff_of_true (recheck_inside call) (by rw [here]; trivial)
  · apply exclusive.move
    rcases write_stage (a := a) call with ⟨rc, next | next⟩ <;>
      simp only [next, here, Stage.Inside]
  · apply exclusive.move
    simp only [here, Stage.Inside]
  · apply exclusive.leave _ id
    rw [here]
    trivial
  · apply exclusive.move
    simp only [here, Stage.Inside]
  · apply exclusive.move
    simp only [here, Stage.Inside]

theorem latched_step (latched : a.latched = true) (event : Thread × Event P.Inst) :
    (step event a).latched = true := by
  rcases event with ⟨t, call | _ | _⟩
  · simp only [step, enter]
    split
    · exact latchedBy_latched latched call
    · exact latched
  · simp only [step, advance]
    split
    · exact latched
    · split <;> exact latched
    all_goals exact latched
  · simp only [step]
    split <;> exact latched

theorem step_stage_of_ne {u : Thread} (other : u ≠ t) (e : Event P.Inst) :
    (step (t, e) a).stage u = a.stage u := by
  have gone {b : Arbiter P Thread} {s : Stage P.Inst} : (b.go t s).stage u = b.stage u :=
    by simp [go, other]
  rcases e with call | _ | _
  · simp only [step, enter]
    split
    · exact gone
    · rfl
  · simp only [step, advance]
    split
    · rfl
    · split
      · exact gone
      · rfl
    all_goals exact gone
  · simp only [step]
    split
    · exact gone
    · rfl

theorem go_stage {b : Arbiter P Thread} {s : Stage P.Inst} : (b.go t s).stage t = s := by
  simp [go]

theorem latching_enter {call : Call ℕ P.Inst} (is : Latching ((a.enter t call).stage t)) :
    Latching (a.stage t) ∨ (a.enter t call).latched = true := by
  revert is
  unfold enter
  split
  · rw [go_stage]
    exact fun is => Or.inr (latching_begin is)
  · exact Or.inl

theorem latching_advance (is : Latching ((a.advance t).stage t)) : Latching (a.stage t) := by
  revert is
  unfold advance
  rcases here : a.stage t with rc | call | call | call | ⟨call, rc⟩ | ⟨call, rc⟩ | _ | _
  · simp only [here]
    exact id
  · by_cases free : a.owner = none
    · simp only [if_pos free, go_stage]
      rcases call <;> exact id
    · simp only [if_neg free, here]
      exact id
  · simp only [go_stage, recheck]
    split
    · exact False.elim
    · rcases call <;> exact id
  · rcases write_stage (a := a) call with ⟨rc, next | next⟩ <;>
      (simp only [go_stage, next]; exact False.elim)
  all_goals
    simp only [go_stage]
    exact False.elim

theorem Sound.latching_step (sound : a.Sound) (event : Thread × Event P.Inst) :
    ∀ u, Latching ((step event a).stage u) → (step event a).latched = true := by
  have kept {u : Thread} (before : Latching (a.stage u)) : (step event a).latched = true :=
    latched_step (sound.latching u before) event
  intro u is
  rcases event with ⟨t, e⟩
  by_cases own : u = t
  · subst own
    rcases e with call | _ | _
    · rcases latching_enter is with before | latched
      · exact kept before
      · exact latched
    · exact kept (latching_advance is)
    · revert is
      simp only [step]
      split
      · rw [go_stage]
        exact False.elim
      · exact sound.latching u
  · rw [step_stage_of_ne own] at is
    exact kept is

theorem drivenOff_advance (is : DrivenOff ((a.advance t).stage t)) :
    DrivenOff (a.stage t) ∨ a.stage t = .writing .emergencyOff := by
  revert is
  unfold advance
  rcases here : a.stage t with rc | call | call | call | ⟨call, rc⟩ | ⟨call, rc⟩ | _ | _
  · simp only [here]
    exact Or.inl
  · by_cases free : a.owner = none
    · simp only [if_pos free, go_stage]
      exact False.elim
    · simp only [if_neg free, here]
      exact Or.inl
  · simp only [go_stage, recheck]
    split
    · rename_i refused
      rcases call <;> first | exact False.elim | exact absurd refused.2 nofun
    · exact False.elim
  · intro is
    right
    rcases write_stage (a := a) call with ⟨rc, next | next⟩ <;>
      (simp only [go_stage, next] at is; rcases call <;> first | rfl | exact is.elim)
  · simp only [go_stage]
    rcases call <;> exact Or.inl
  · simp only [go_stage]
    exact False.elim
  · simp only [go_stage]
    exact False.elim
  · simp only [go_stage]
    exact False.elim

theorem drivenOff_step {event : Thread × Event P.Inst} {u : Thread}
    (is : DrivenOff ((step event a).stage u)) :
    DrivenOff (a.stage u) ∨ event = (u, .advance) ∧ a.stage u = .writing .emergencyOff := by
  rcases event with ⟨t, e⟩
  by_cases own : u = t
  · subst own
    rcases e with call | _ | _
    · revert is
      simp only [step, enter]
      split
      · rw [go_stage]
        exact fun is => ((begin_outside call).2.2 is).elim
      · exact Or.inl
    · rcases drivenOff_advance is with before | here
      · exact Or.inl before
      · exact Or.inr ⟨rfl, here⟩
    · revert is
      simp only [step]
      split
      · rw [go_stage]
        exact False.elim
      · exact Or.inl
  · rw [step_stage_of_ne own] at is
    exact Or.inl is

theorem Sound.step (sound : a.Sound) (event : Thread × Event P.Inst) :
    (Arbiter.step event a).Sound where
  exclusive := by
    rcases event with ⟨t, call | _ | _⟩
    · exact Exclusive.enter_call sound.exclusive call
    · exact Exclusive.advance_call sound.exclusive
    · simp only [Arbiter.step]
      split
      · rename_i here
        apply sound.exclusive.move
        simp only [here, Stage.Inside]
      · exact sound.exclusive
  latching := sound.latching_step event
  drivenOff u is := by
    rcases drivenOff_step is with before | ⟨rfl, here⟩
    · exact (sound.drivenOff u before).step event
    · exact sound.quench here

/-! ## Whole runs -/

theorem sound_run (inst : Option P.Inst) (events : List (Thread × Event P.Inst)) :
    (run step events (start inst)).Sound :=
  run_invariant Sound (fun event _ sound => sound.step event) (sound_start inst)

theorem Quenched.throughout (quenched : a.Quenched) (events : List (Thread × Event P.Inst)) :
    Throughout Arbiter.step (fun a => a.latched = true ∧ a.Dark) events a := by
  apply Along.strengthen Quenched (fun event _ quenched _ => quenched.step event) _ quenched
    (along_of_forall (fun _ _ _ => trivial) a)
  intro event a quenched _
  exact ⟨(quenched.step event).latched, (quenched.step event).dark⟩

/-- In every interleaving of calls from any number of threads: once an emergency
off that obtained the lock gives it back, no output line is on again, and the latch
is never cleared. -/
theorem emergency_off_holds (P : Platform) {Thread : Type} [DecidableEq Thread]
    (inst : Option P.Inst) (before after : List (Thread × Event P.Inst)) (t : Thread) (rc : ℤ)
    (completes : (run step before (start inst)).stage t = .leaving .emergencyOff rc) :
    Throughout step (fun a => a.latched = true ∧ a.Dark) ((t, .advance) :: after)
      (run step before (start inst)) := by
  have quenched : (run step before (start inst)).Quenched := by
    apply (sound_run inst before).drivenOff t
    rw [completes]
    trivial
  exact quenched.throughout _

/-- One writer past the second check, one past the first, and the emergency off. -/
def latchRace : List (ℕ × Event SimState) :=
  [(0, .call (.set 2 true)), (0, .advance), (0, .advance), (1, .call (.set 3 true)),
    (2, .call .emergencyOff), (0, .advance), (0, .advance), (0, .advance), (2, .advance),
    (2, .advance), (2, .advance), (2, .advance)]

/-- What comes after: the second writer, and a new one. -/
def latchAftermath : List (ℕ × Event SimState) :=
  [(1, .advance), (1, .advance), (1, .advance), (0, .call (.set 2 true)), (0, .advance)]

theorem emergency_off_holds_in_race :
    Throughout step (fun a : Arbiter platformSim ℕ => a.latched = true ∧ a.Dark)
      ((2, .advance) :: latchAftermath)
      (run step latchRace (start (some { out := fun _ => false, fanPct := 0 }))) :=
  emergency_off_holds platformSim _ latchRace latchAftermath 2 0 rfl

/-! ## Calls that nobody interrupts -/

/-- A call with all the steps it takes. -/
def alone (t : Thread) (call : Call ℕ P.Inst) : List (Thread × Event P.Inst) :=
  (t, .call call) :: List.replicate 5 (t, .advance)

theorem all_idxOf (o : Output) : Output.all[Output.all.idxOf o]? = some o := by
  cases o <;> rfl

theorem outputs_set_alone {rc : ℤ} {inst : P.Inst} (idle : a.stage t = .returned rc)
    (free : a.owner = none) (clear : a.latched = false) (present : a.inst = some inst)
    {o : Output} {on : Bool} (succeeds : (P.setOutput inst o on).2 = 0) :
    (run step (alone t (.set (Output.all.idxOf o) on)) a).outputs = outputsSet o on a.outputs := by
  by_cases changes : a.state o = on
  · have ran : run step (alone t (.set (Output.all.idxOf o) on)) a = a.go t (.returned 0) := by
      simp [alone, step, enter, advance, begin, all_idxOf, latchedBy, idle, free, clear, go,
        recheck, write, present, changes]
    rw [ran]
    subst changes
    cases o <;> simp [outputs, outputsSet, go]
  · have ran : run step (alone t (.set (Output.all.idxOf o) on)) a =
        { a with
          inst := some (P.setOutput inst o on).1
          state := Function.update a.state o on
          fanPct := if o = Output.fan ∧ on = false then 0 else a.fanPct }.go t (.returned 0) := by
      simp [alone, step, enter, advance, begin, all_idxOf, latchedBy, idle, free, clear, go,
        recheck, write, present, changes, book, succeeds]
    rw [ran]
    cases o <;> simp [outputs, outputsSet, go, changes]

theorem outputs_fanPct_alone {rc : ℤ} {inst : P.Inst} (idle : a.stage t = .returned rc)
    (free : a.owner = none) (clear : a.latched = false) (present : a.inst = some inst) {pct : ℤ}
    (succeeds : (P.setFanPct inst pct).2 = 0) :
    (run step (alone t (.fanPct pct)) a).outputs = outputsFanPct pct a.outputs := by
  have ran : run step (alone t (.fanPct pct)) a =
      { a with
        inst := some (P.setFanPct inst pct).1
        fanPct := pct }.go t (.returned 0) := by
    simp [alone, step, enter, advance, begin, latchedBy, idle, free, clear, go, recheck, write,
      present, book, succeeds]
  rw [ran]
  rfl

theorem outputs_allOff_alone {rc : ℤ} (idle : a.stage t = .returned rc) (free : a.owner = none) :
    (run step (alone t .allOff) a).outputs = outputsAllOff := by
  have ran : run step (alone t .allOff) a =
      { a with
        inst := a.inst.map P.allOff
        state := fun _ => false
        fanPct := 0 }.go t (.returned 0) := by
    simp [alone, step, enter, advance, begin, latchedBy, idle, free, go, recheck, write, book,
      Call.energises]
  rw [ran]
  rfl

end Arbiter

end PiFire
