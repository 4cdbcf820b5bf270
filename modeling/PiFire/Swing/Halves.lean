import PiFire.Swing.Ends
import PiFire.Swing.Sized

/-!
# The halves of the swing

The test keeps how long each half took, and tells the high halves from the low ones by the
phase it is in when it reads them. Beside a run the time is counted tick by tick, to the phase
the relay is in: the halves that are kept are these times, whatever is thrown away between.
-/

namespace PiFire.Swing

/-- A half: when it began, and how long of it the relay was high and low. -/
structure Half where
  began : ℚ
  hi : ℚ
  lo : ℚ

namespace Half

def total (h : Half) : ℚ := h.hi + h.lo

/-- Time passes in a phase. -/
def spend (phase : ℤ) (dt : ℚ) (h : Half) : Half :=
  if phase > 0 then { h with hi := h.hi + dt } else { h with lo := h.lo + dt }

/-- All of the half was in one phase. -/
def Pure (high : Bool) (h : Half) : Prop := if high then h.lo = 0 else h.hi = 0

end Half

def highTime (l : List Half) : ℚ := (l.map Half.hi).sum

def lowTime (l : List Half) : ℚ := (l.map Half.lo).sum

/-- When the oldest of these halves began, the newest of which ended at a time. -/
def beginning (till : ℚ) : List Half → ℚ
  | [] => till
  | h :: rest => beginning h.began rest

/-- Halves that lie end to end up to a time, the newest first, each in one phase and in turn. -/
def Laid : Bool → ℚ → List Half → Prop
  | _, _, [] => True
  | high, till, h :: rest =>
      h.Pure high ∧ h.began + h.total = till ∧ Laid (!high) h.began rest

/-- The time of the last tick, the half that goes on, and those that are over. -/
structure Spent where
  last : ℚ
  since : Half
  halves : List Half

/-- A tick, with the test before it and after it. -/
def Spent.tick (t : Look) (s s' : Test) (g : Spent) : Spent :=
  let spent := g.since.spend s.phase (t.now - g.last)
  if s'.recentres ≠ s.recentres then ⟨t.now, ⟨t.now, 0, 0⟩, []⟩
  else if s'.crossings ≠ s.crossings then ⟨t.now, ⟨t.now, 0, 0⟩, spent :: g.halves⟩
  else ⟨t.now, spent, g.halves⟩

def Spent.start (t : Look) : Spent := ⟨t.now, ⟨t.now, 0, 0⟩, []⟩

/-- A run with its time counted. -/
def counted (ticks : ℕ → Look) (r : Run) (g : Spent) : ℕ → Option (Run × Spent)
  | 0 => some (r, g)
  | n + 1 => (counted ticks r g n).bind fun c =>
      (c.1.tick (ticks n)).map fun r' => (r', c.2.tick (ticks n) c.1.test r'.test)

/-- The stretch that is measured: the last whole cycles, three at most. -/
def Spent.stretch (g : Spent) : List Half := g.halves.take (2 * min 3 ((g.halves.length - 1) / 2))

/-- The part of the stretch, up to a time, that the relay was high. -/
def Spent.share (till : ℚ) (g : Spent) : ℚ :=
  let length := till - beginning till g.stretch
  if length > 0 then highTime g.stretch / length else 1 / 2

theorem states_counted (ticks : ℕ → Look) (r : Run) (g : Spent) (n : ℕ) :
    (counted ticks r g n).map Prod.fst = states ticks r n := by
  induction n with
  | zero => rfl
  | succ n ih =>
      rw [states, ← ih, counted]
      cases counted ticks r g n with
      | none => rfl
      | some c => simp [Function.comp_def]

/-! ### Times that are laid end to end -/

theorem Laid.spend {phase : ℤ} {last now : ℚ} {h : Half} {rest : List Half}
    (laid : Laid (0 < phase) last (h :: rest)) :
    Laid (0 < phase) now (h.spend phase (now - last) :: rest) := by
  obtain ⟨pure, ends, before⟩ := laid
  rw [Half.total] at ends
  rw [Half.spend]
  by_cases high : phase > 0
  · rw [if_pos high]
    refine ⟨by simpa [Half.Pure, gt_iff_lt.mp high] using pure, ?_, before⟩
    dsimp only [Half.total]
    linarith
  · rw [if_neg high]
    refine ⟨by simpa [Half.Pure, show ¬0 < phase from high] using pure, ?_, before⟩
    dsimp only [Half.total]
    linarith

theorem Laid.sum_eq {high : Bool} {till : ℚ} {l : List Half} (laid : Laid high till l) (k : ℕ) :
    highTime (l.take k) + lowTime (l.take k) = till - beginning till (l.take k) := by
  induction l generalizing high till k with
  | nil => simp [highTime, lowTime, beginning]
  | cons h rest ih =>
      cases k with
      | zero => simp [highTime, lowTime, beginning]
      | succ k =>
          obtain ⟨-, ends, before⟩ := laid
          have further := ih before k
          simp only [highTime, lowTime, List.take_succ_cons, List.map_cons, List.sum_cons,
            beginning, Half.total] at *
          linarith

/-! ### What a tick does to the halves -/

/-- What a tick does to the relay: nothing, a crossing, or a new beginning. -/
inductive Moves (t : Look) (s s' : Test) : Prop
  | still (phase : s'.phase = s.phase) (cross : s'.lastCrossT = s.lastCrossT)
      (count : s'.crossings = s.crossings) (halves : s'.halves = s.halves)
      (centre : s'.recentres = s.recentres)
  | crosses (phase : 0 < s'.phase ↔ ¬0 < s.phase) (cross : s'.lastCrossT = t.now)
      (count : s'.crossings = s.crossings + 1) (room : s.crossings < atMax)
      (halves : s'.halves = s.halves.set s.crossings (t.now - s.lastCrossT) room)
      (centre : s'.recentres = s.recentres)
  | recentres (cross : s'.lastCrossT = t.now) (count : s'.crossings = 0)
      (centre : s'.recentres = s.recentres + 1)

/-- The halves that are kept are the times that were spent in them. -/
structure Kept (g : Spent) (s : Test) : Prop where
  laid : Laid (0 < s.phase) g.last (g.since :: g.halves)
  began : g.since.began = s.lastCrossT
  count : g.halves.length = s.crossings
  kept : g.halves.map Half.total = (s.halves.toList.take s.crossings).reverse

theorem Kept.moves {g : Spent} {t : Look} {s s' : Test} (kept : Kept g s) (moves : Moves t s s') :
    Kept (g.tick t s s') s' := by
  have spent : Laid _ t.now _ := kept.laid.spend
  cases moves with
  | still phase cross count halves centre =>
      rw [Spent.tick, if_neg (not_not.mpr centre), if_neg (not_not.mpr count)]
      refine ⟨by rw [phase]; exact spent, ?_, ?_, ?_⟩
      · rw [cross, ← kept.began]
        dsimp only [Half.spend]
        split_ifs <;> rfl
      · rw [count, ← kept.count]
      · rw [count, halves, ← kept.kept]
  | crosses phase cross count room halves centre =>
      rw [Spent.tick, if_neg (not_not.mpr centre), if_pos (by omega)]
      have ends := spent.2.1
      have began : (g.since.spend s.phase (t.now - g.last)).began = s.lastCrossT := by
        rw [← kept.began, Half.spend]
        split_ifs <;> rfl
      refine ⟨⟨?_, by simp [Half.total], ?_⟩, cross.symm, ?_, ?_⟩
      · dsimp only [Half.Pure]
        split_ifs <;> rfl
      · have turns : (!decide (0 < s'.phase)) = decide (0 < s.phase) := by
          by_cases high : 0 < s.phase <;> simp [phase, high]
        rw [turns]
        exact spent
      · simp [count, kept.count]
      · rw [began] at ends
        rw [count, halves, Vector.toList_set, List.take_succ_eq_append_getElem (by simpa using room)]
        rw [List.take_set_of_le le_rfl]
        simp only [List.map_cons, kept.kept, List.getElem_set_self, List.reverse_append,
          List.reverse_singleton, List.singleton_append, List.cons.injEq, and_true]
        linarith
  | recentres cross count centre =>
      rw [Spent.tick, if_pos (by omega)]
      refine ⟨⟨?_, by simp [Half.total], trivial⟩, cross.symm, count.symm, by simp [count]⟩
      dsimp only [Half.Pure]
      split_ifs <;> rfl

/-- What the halves are counted by. -/
def Test.core (s : Test) : ℤ × ℚ × ℕ × Cells × ℕ :=
  (s.phase, s.lastCrossT, s.crossings, s.halves, s.recentres)

theorem Moves.congr {t : Look} {r r' s s' : Test} (moves : Moves t s s') (before : r.core = s.core)
    (after : r'.core = s'.core) : Moves t r r' := by
  simp only [Test.core, Prod.mk.injEq] at before after
  obtain ⟨p, c, n, h, m⟩ := before
  obtain ⟨p', c', n', h', m'⟩ := after
  cases moves with
  | still => exact .still (by simp_all) (by simp_all) (by simp_all) (by simp_all) (by simp_all)
  | crosses phase cross count room halves centre =>
      exact .crosses (by rw [p, p', phase]) (by rw [c', cross]) (by rw [n, n', count])
        (by rw [n]; exact room) (by simp only [h', h, n, c, halves]) (by rw [m, m', centre])
  | recentres => exact .recentres (by simp_all) (by simp_all) (by simp_all)

/-! ### What the test does -/

namespace Test

variable {t : Look} {s s' : Test}

theorem core_condition (conditioned : s.condition t = some s') : s'.core = s.core := by
  rw [condition] at conditioned
  split_ifs at conditioned
  · simp only [bind, Option.bind_eq_some_iff] at conditioned
    obtain ⟨c, -, here⟩ := conditioned
    cases here
    rw [correct]
    cases newSwing t c { s with lastLoad := s.cycleLoad t c } with
    | some swing => rfl
    | none =>
        dsimp only [centre]
        split_ifs <;> rfl
  · cases conditioned
    rfl

theorem goOn_moves (t : Look) (s : Test) :
    (s.goOn t).test.core = s.core ∨ ∀ r : Test, r.recentres = s.recentres →
      Moves t r (s.goOn t).test := by
  rw [goOn]
  split_ifs with off edge
  · exact Or.inl rfl
  · exact Or.inr fun r same => .recentres rfl rfl (by rw [same]; rfl)
  all_goals exact Or.inl rfl

theorem goOn_unmeasured (t : Look) (s : Test) (m : Measured) :
    (s.goOn t).outcome ≠ some (.measured m) := by
  rw [goOn]
  split_ifs <;> simp [fail]

theorem cross_moves (crosses : s.want t ≠ s.phase) (room : s.crossings < atMax)
    (crossed : s.cross t = some s') :
    Moves t s s' ∧ s'.lastCrossT = t.now ∧ s'.recentres = s.recentres := by
  rw [cross, if_pos room] at crossed
  simp only [bind, Option.bind_eq_some_iff, Option.some.injEq, Cells.write, dif_pos room] at crossed
  obtain ⟨_, rfl, _, rfl, _, rfl, _, rfl, rfl⟩ := crossed
  refine ⟨.crosses ?_ rfl rfl room rfl rfl, rfl, rfl⟩
  dsimp only
  rw [want] at crosses ⊢
  split_ifs at crosses ⊢ with up down
  · exact iff_of_true one_pos (by omega)
  · exact iff_of_false (by decide) (not_not.mpr down.1)
  · exact absurd rfl crosses

theorem step_moves {a : Answer} (room : s.crossings < atMax) (stepped : s.step t = some a) :
    Moves t s a.test ∧ ∀ m, a.outcome = some (.measured m) →
      ∃ s' : Test, s'.core = a.test.core ∧ s'.lastCrossT = t.now ∧
        s'.read t = some (.measured m) := by
  rw [step] at stepped
  split_ifs at stepped with crosses
  · simp only [bind, Option.bind_eq_some_iff] at stepped
    rcases stepped with ⟨crossed, cross_eq, conditioned, condition_eq, complete, -, rest⟩
    obtain ⟨tracked, cross, centre⟩ := cross_moves (s := s.trackPeaks t) crosses room cross_eq
    have moves : Moves t s crossed := tracked.congr rfl rfl
    have same := core_condition condition_eq
    cases complete with
    | true =>
        rw [if_pos rfl, Option.bind_eq_some_iff] at rest
        obtain ⟨outcome, read_eq, ended⟩ := rest
        cases ended
        refine ⟨moves.congr rfl same, fun m measured => ⟨conditioned, rfl, ?_, ?_⟩⟩
        · exact (congrArg (fun core => core.2.1) same).trans cross
        · cases measured
          exact read_eq
    | false =>
        rw [if_neg (by decide)] at rest
        cases rest
        refine ⟨?_, fun m measured => ?_⟩
        · rcases goOn_moves t conditioned with still | anew
          · exact moves.congr rfl (still.trans same)
          · simp only [core, Prod.mk.injEq] at same
            exact anew s (same.2.2.2.2.trans centre).symm
        · exact absurd measured (goOn_unmeasured t conditioned m)
  · cases stepped
    refine ⟨?_, fun m measured => absurd measured (goOn_unmeasured t _ m)⟩
    rcases goOn_moves t (s.trackPeaks t) with still | anew
    · simp only [core, Prod.mk.injEq] at still
      exact .still still.1 still.2.1 still.2.2.1 still.2.2.2.1 still.2.2.2.2
    · exact anew s rfl

end Test

/-! ### What is read of the halves -/

theorem Kept.congr {g : Spent} {s s' : Test} (kept : Kept g s) (same : s'.core = s.core) :
    Kept g s' := by
  simp only [Test.core, Prod.mk.injEq] at same
  obtain ⟨phase, cross, count, halves, -⟩ := same
  obtain ⟨laid, began, length, totals⟩ := kept
  refine ⟨by rw [phase]; exact laid, began.trans cross.symm, length.trans count.symm, ?_⟩
  rw [totals, count, halves]

theorem Cells.read_of_prefix {c : Cells} {l : List ℚ} (starts : l <+: c.toList) {k : ℕ} {x : ℚ}
    (here : l[k]? = some x) : c.read k = some x := by
  obtain ⟨rest, whole⟩ := starts
  have inside : k < l.length := (List.getElem?_eq_some_iff.mp here).1
  rw [← List.getElem?_append_left inside, whole] at here
  simpa [Cells.read] using here

theorem Laid.cycle {high : Bool} {till : ℚ} {a b : Half} {rest : List Half}
    (laid : Laid high till (a :: b :: rest)) :
    (if high then (a.total, b.total) else (b.total, a.total)) = (a.hi + b.hi, a.lo + b.lo) := by
  obtain ⟨first, -, second, -, -⟩ := laid
  simp only [Half.Pure, Half.total] at *
  cases high <;> simp_all

theorem lastHalves_eq {s : Test} (fuel : ℕ) {l : List Half} {till : ℚ}
    (laid : Laid (!decide (0 < s.phase)) till l)
    (starts : (l.map Half.total).reverse <+: s.halves.toList) (even : (s.kept + l.length) % 2 = 0) :
    ∃ pairs, s.lastHalves fuel (l.length - 1) = some pairs ∧
      (pairs.map Prod.fst).sum = highTime (l.take (2 * min fuel ((l.length - 1) / 2))) ∧
      (pairs.map Prod.snd).sum = lowTime (l.take (2 * min fuel ((l.length - 1) / 2))) := by
  induction fuel generalizing l till with
  | zero => exact ⟨[], rfl, by simp [highTime], by simp [lowTime]⟩
  | succ fuel ih =>
      rw [Test.lastHalves]
      rcases l with _ | ⟨a, _ | ⟨b, _ | ⟨c, rest⟩⟩⟩
      iterate 3
        · rw [if_neg (by simp)]
          exact ⟨[], rfl, by simp [highTime], by simp [lowTime]⟩
      · have tail : ((c :: rest).map Half.total).reverse <+: s.halves.toList :=
          List.IsPrefix.trans ⟨[b.total, a.total], by simp⟩ starts
        have onward : Laid (!decide (0 < s.phase)) b.began (c :: rest) := by
          simpa using laid.2.2.2.2
        obtain ⟨pairs, found, his, los⟩ := ih onward tail
          (by simp only [List.length_cons] at even ⊢; omega)
        have last : ((a :: b :: c :: rest).length : ℤ) - 1 = (rest.length + 2 : ℕ) := by
          push_cast [List.length_cons]
          ring
        have older : ((rest.length + 2 : ℕ) : ℤ) - 1 = (rest.length + 1 : ℕ) := by
          push_cast
          ring
        have next : ((rest.length + 2 : ℕ) : ℤ) - 2 = (c :: rest).length - 1 := by
          push_cast [List.length_cons]
          ring
        have first : s.halves.read (rest.length + 2 : ℕ) = some a.total :=
          Cells.read_of_prefix starts (by simp)
        have second : s.halves.read (rest.length + 1 : ℕ) = some b.total :=
          Cells.read_of_prefix starts (by simp)
        have odd : (s.kept - ((rest.length + 2 : ℕ) : ℤ)) % 2 = 1 := by
          simp only [List.length_cons] at even
          omega
        have cycles : 2 * min (fuel + 1) (((a :: b :: c :: rest).length - 1) / 2) =
            2 * min fuel (((c :: rest).length - 1) / 2) + 2 := by
          simp only [List.length_cons]
          omega
        have told : (if decide ((1 : ℤ) = if s.phase > 0 then 0 else 1) = true
            then (a.total, b.total) else (b.total, a.total)) = (a.hi + b.hi, a.lo + b.lo) := by
          rw [← laid.cycle]
          by_cases up : 0 < s.phase <;> simp [up]
        rw [last, if_pos (by omega), older, next, first, second, found, odd, cycles]
        refine ⟨(a.hi + b.hi, a.lo + b.lo) :: pairs, by rw [← told]; rfl, ?_, ?_⟩
        · simp only [List.map_cons, List.sum_cons, his, highTime, List.take_succ_cons]
          ring
        · simp only [List.map_cons, List.sum_cons, los, lowTime, List.take_succ_cons]
          ring

/-- The totals of the measured stretch are the times the relay was high and low in it, and the
duty is the part of it that it was high. -/
theorem read_gamma {t : Look} {s : Test} {g : Spent} {m : Measured} (kept : Kept g s)
    (inside : s.crossings ≤ atMax) (here : g.since.began = t.now)
    (read_eq : s.read t = some (.measured m)) :
    m.gamma = clamp (g.share t.now) (15 / 100) (85 / 100) := by
  have kept_eq : s.kept = g.halves.length := by rw [Test.kept, min_eq_left inside, kept.count]
  obtain ⟨pairs, found, his, los⟩ := lastHalves_eq 3 kept.laid.2.2
    (by rw [kept.kept, List.reverse_reverse]; exact List.take_prefix _ _) (by omega)
  have length := kept.laid.2.2.sum_eq (2 * min 3 ((g.halves.length - 1) / 2))
  rw [here, ← his, ← los] at length
  simp only [Test.read, bind, Option.bind_eq_some_iff] at read_eq
  obtain ⟨cycles, -, read_eq⟩ := read_eq
  split_ifs at read_eq <;> simp only [Option.bind_eq_some_iff, reduceCtorEq, Option.some.injEq] at read_eq
  obtain ⟨settled, -, read_eq⟩ := read_eq
  rw [kept_eq, found] at read_eq
  split_ifs at read_eq
  · cases read_eq
  · cases read_eq
    dsimp only
    rw [length, his]
    rfl

theorem whole_eq {s : Test} {g : Spent} {c : Test.Whole} (kept : Kept g s)
    (found : s.whole = some c) :
    (c.tHi, c.tLo) = (highTime (g.halves.take 2), lowTime (g.halves.take 2)) := by
  have starts : (g.halves.map Half.total).reverse <+: s.halves.toList := by
    rw [kept.kept, List.reverse_reverse]
    exact List.take_prefix _ _
  have laid := kept.laid.2.2
  simp only [Test.whole, bind, Option.bind_eq_some_iff] at found
  rw [← kept.count] at found
  obtain ⟨x, x_eq, y, y_eq, _, -, _, -, _, -, _, -, here⟩ := found
  cases here
  generalize g.halves = halves at laid starts x_eq y_eq
  rcases halves with _ | ⟨a, _ | ⟨b, rest⟩⟩
  · cases x_eq
  · cases y_eq
  · have newest : ((a :: b :: rest).length : ℤ) - 1 = (rest.length + 1 : ℕ) := by
      push_cast [List.length_cons]
      ring
    have older : ((a :: b :: rest).length : ℤ) - 2 = (rest.length : ℕ) := by
      push_cast [List.length_cons]
      ring
    rw [newest, Cells.read_of_prefix starts (x := a.total) (by simp)] at x_eq
    rw [older, Cells.read_of_prefix starts (x := b.total) (by simp)] at y_eq
    have told := laid.cycle
    cases x_eq
    cases y_eq
    by_cases up : 0 < s.phase <;> simp_all [highTime, lowTime]

theorem Run.ask_moves {t : Look} {r : Run} {a : Answer} (room : r.test.crossings < atMax)
    (asked : r.ask t = some a) : Moves t r.test a.test ∧ ∀ m, a.outcome = some (.measured m) →
      ∃ s' : Test, s'.core = a.test.core ∧ s'.lastCrossT = t.now ∧ s'.read t = some (.measured m) := by
  rw [Run.ask] at asked
  split_ifs at asked
  · cases asked
    exact ⟨.still rfl rfl rfl rfl rfl, fun m none_ => by cases none_⟩
  · exact Test.step_moves room asked

theorem Kept.tick {t : Look} {r r' : Run} {g : Spent} (kept : Kept g r.test)
    (sound : r.test.Sound) (ticked : r.tick t = some r') : Kept (g.tick t r.test r'.test) r'.test := by
  refine kept.moves ?_
  rw [Run.tick] at ticked
  split_ifs at ticked with due
  · simp only [bind, Option.bind_eq_some_iff] at ticked
    obtain ⟨answer, asked, here⟩ := ticked
    cases here
    have moves := (Run.ask_moves (sound.room due.1) asked).1
    dsimp only
    split_ifs
    · exact moves.congr rfl rfl
    · exact moves
  · cases ticked
    exact .still rfl rfl rfl rfl rfl

theorem kept_start (t : Look) (centre : ℚ) (sigma : Option ℚ) (rate : ℚ) :
    Kept (.start t) (start t centre sigma rate).test := by
  refine ⟨⟨?_, by simp [Half.total, Spent.start], trivial⟩, rfl, rfl, rfl⟩
  dsimp only [Half.Pure, Spent.start]
  split_ifs <;> rfl

/-- In every run the halves that are kept are the times that were spent in them, each in one
phase; what a cycle has of high and low time is told by the phase; and a duty that is measured
is the part of its stretch, up to the last crossing, that the relay was high, held between
0.15 and 0.85. -/
theorem halves_counted (begun : Look) (centre : ℚ) (sigma : Option ℚ) (rate : ℚ)
    (ticks : ℕ → Look) (n : ℕ) {r : Run} {g : Spent}
    (reached : counted ticks (start begun centre sigma rate) (.start begun) n = some (r, g)) :
    Kept g r.test ∧
    (∀ c, r.test.whole = some c →
      (c.tHi, c.tLo) = (highTime (g.halves.take 2), lowTime (g.halves.take 2))) ∧
    ∀ a m, r.test.active = true → r.ask (ticks n) = some a → a.outcome = some (.measured m) →
      let g' := g.tick (ticks n) r.test a.test
      highTime g'.stretch + lowTime g'.stretch =
        (ticks n).now - beginning (ticks n).now g'.stretch ∧
      m.gamma = clamp (g'.share (ticks n).now) (15 / 100) (85 / 100) := by
  have sound {n : ℕ} {c : Run × Spent}
      (reached : counted ticks (start begun centre sigma rate) (.start begun) n = some c) :
      c.1.test.Sound := by
    obtain ⟨r', state_eq, sound⟩ := exists_states ticks (sound_start begun centre sigma rate) n
    rw [← states_counted ticks _ (.start begun), reached, Option.map_some] at state_eq
    cases state_eq
    exact sound
  have kept {n : ℕ} {c : Run × Spent}
      (reached : counted ticks (start begun centre sigma rate) (.start begun) n = some c) :
      Kept c.2 c.1.test := by
    induction n generalizing c with
    | zero =>
        cases reached
        exact kept_start begun centre sigma rate
    | succ n ih =>
        rw [counted, Option.bind_eq_some_iff] at reached
        obtain ⟨before, before_eq, ticked⟩ := reached
        rw [Option.map_eq_some_iff] at ticked
        obtain ⟨r', tick_eq, rfl⟩ := ticked
        exact (ih before_eq).tick (sound before_eq) tick_eq
  refine ⟨kept reached, fun c found => whole_eq (kept reached) found, ?_⟩
  intro a m running asked measured g'
  obtain ⟨moves, measures⟩ := Run.ask_moves ((sound reached).room running) asked
  obtain ⟨s', same, cross, read_eq⟩ := measures m measured
  have after : Kept g' s' := ((kept reached).moves moves).congr same
  have here : g'.since.began = (ticks n).now := after.began.trans cross
  have inside : s'.crossings ≤ atMax := by
    obtain ⟨a', asked', sound', -⟩ := r.ask_goes (ticks n) (sound reached) running
    cases asked.symm.trans asked'
    exact (congrArg (fun core => core.2.2.1) same).trans_le sound'.crossings
  refine ⟨?_, read_gamma after inside here read_eq⟩
  rw [← here]
  exact after.laid.2.2.sum_eq _

/-- A grill that heats for nine parts of ten and comes down in the tenth. -/
def slowLooks : List (ℚ × ℚ) :=
  [(20, -3), (920, 3), (1020, -3), (1920, 3), (2020, -3)]

/-- The run to its last tick, and what that answers. -/
def slowRun : Option ((Run × Spent) × Answer) := do
  let c ← counted (swungTicks slowLooks) (swungStart (1 / 2)) (.start (swungLook (0, 3))) 4
  let a ← c.1.ask (swungTicks slowLooks 4)
  some (c, a)

/-- The duty of an outcome. -/
def Outcome.gamma? : Outcome → Option ℚ
  | .measured m => some m.gamma
  | .failed _ => none

theorem halves_counted_on_bench : ∃ c a m, slowRun = some (c, a) ∧ a.outcome = some (.measured m) ∧
    m.gamma = clamp ((c.2.tick (swungTicks slowLooks 4) c.1.test a.test).share 2020)
      (15 / 100) (85 / 100) := by
  have measures : (slowRun.map fun found =>
      (found.1.1.test.active, (found.2.outcome.bind Outcome.gamma?).isSome)) = some (true, true) := by
    decide +kernel
  obtain ⟨⟨c, a⟩, run_eq, facts⟩ := Option.map_eq_some_iff.mp measures
  obtain ⟨running, measured⟩ := Prod.mk.inj facts
  obtain ⟨gamma, gamma_eq⟩ := Option.isSome_iff_exists.mp measured
  obtain ⟨outcome, outcome_eq, is_gamma⟩ := Option.bind_eq_some_iff.mp gamma_eq
  cases outcome with
  | failed why => cases is_gamma
  | measured m =>
      obtain ⟨c', reached, asked⟩ := Option.bind_eq_some_iff.mp run_eq
      obtain ⟨a', asked, here⟩ := Option.bind_eq_some_iff.mp asked
      cases here
      exact ⟨c, a, m, run_eq, outcome_eq, ((halves_counted (swungLook (0, 3)) (1 / 2) none 0
        (swungTicks slowLooks) 4 reached).2.2 a m running asked outcome_eq).2⟩

/-- The duty that is filed is not the part of the time that the relay was high. -/
theorem duty_is_held :
    (slowRun.map fun found => (found.2.outcome.bind Outcome.gamma?,
      (found.1.2.tick (swungTicks slowLooks 4) found.1.1.test found.2.test).share 2020)) =
      some (some (85 / 100), 9 / 10) := by
  decide +kernel

end PiFire.Swing
