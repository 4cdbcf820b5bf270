import PiFire.Swing.Sound

/-!
# The size of the swing

The swing is sized about each centre a test moves to, and resized at most twice: narrowed
where it throws the pit too far, widened where it is too thin to be read. Beside a run
stands what it did to its swing so far, and what that leaves of the size is proved of every
run. The cap of a narrowing and the floor of a widening are kept apart, and where both are
set the floor has the last word, whichever came last.
-/

namespace PiFire.Swing

/-! ## What a run does to its swing -/

/-- A tick sizes the swing, or resizes it; with the room there was about the centre. -/
inductive Act where
  | size (room : ℚ)
  | resize (h : ℚ) (wider : Bool) (room : ℚ)

/-- What was done to a swing: the widths it was resized to, the latest first and with the
wider ones marked, and the room it was last sized for. -/
structure Sizing where
  resizes : List (ℚ × Bool)
  room : ℚ

namespace Sizing

/-- A narrowing keeps to the room the swing was sized for before. -/
def after (g : Sizing) : Act → Sizing
  | .size room => { g with room := room }
  | .resize h wider room =>
    { resizes := (h, wider) :: g.resizes, room := if wider then room else g.room }

/-- The width of the latest narrowing, or of the latest widening. -/
def latest (g : Sizing) (wider : Bool) : ℚ :=
  ((g.resizes.find? fun resize => resize.2 == wider).map Prod.fst).getD 0

end Sizing

namespace Test

/-- The room about the centre, to the nearer limit of the feed. -/
def room (t : Look) (s : Test) : ℚ := min (s.uCenter - t.uMin) (t.uMax - s.uCenter)

/-- The centre that a cycle leads to. -/
def nextCentre (t : Look) (load : ℚ) (s : Test) : ℚ :=
  clamp (s.uCenter + s.centreStep t load) (t.uMin + 2 / 100) (t.uMax - 2 / 100)

/-- The centre is moved to where the cycle leads, and not only trimmed. -/
def movesCentre (t : Look) (load : ℚ) (s : Test) : Prop :=
  |s.centreStep t load| > 15 / 100 * s.h ∧
    (s.adjusts < 2 ∨ |s.centreStep t load| < 8 / 10 * |s.lastCStep|) ∧ s.adjusts < 5

instance (t : Look) (load : ℚ) (s : Test) : Decidable (s.movesCentre t load) :=
  inferInstanceAs (Decidable (_ ∧ _ ∧ _))

/-- What the corrections of a whole cycle do to the swing. -/
def correctActs (t : Look) (c : Whole) (s : Test) : List Act :=
  let found := { s with lastLoad := s.cycleLoad t c }
  match found.newSwing t c with
  | some (h, wider) => [.resize h wider (s.room t)]
  | none =>
    if found.movesCentre t found.lastLoad then
      [.size (room t { s with uCenter := found.nextCentre t found.lastLoad })]
    else []

def conditionActs (t : Look) (s : Test) : List Act :=
  if s.crossings ≥ 3 ∧ s.crossings ≤ 9 ∧ s.crossings % 2 = 1 ∧ s.cycN > 4 then
    s.whole.elim [] fun c => s.correctActs t c
  else []

def goOnActs (t : Look) (s : Test) : List Act :=
  if s.offCentre t ∧ s.atEdge t = false then
    [.size (room t { s with uCenter := s.moved t })]
  else []

/-- What a step does to the swing. -/
def acts (t : Look) (s : Test) : List Act :=
  let s := s.trackPeaks t
  if s.want t ≠ s.phase then
    (s.cross t).elim [] fun s =>
      s.conditionActs t ++ (s.condition t).elim [] fun s =>
        if s.complete = some true then [] else s.goOnActs t
  else s.goOnActs t

end Test

/-- What a tick of Hold does to the swing. -/
def Run.acts (t : Look) (r : Run) : List Act :=
  if r.test.active ∧ cycleDone r.cycle t.now ∧ t.lidOpen = false then r.test.acts t else []

/-- What a run did to its swing, beside its states. -/
def sizing (ticks : ℕ → Look) (r : Run) (g : Sizing) : ℕ → Sizing
  | 0 => g
  | n + 1 =>
    (states ticks r n).elim (sizing ticks r g n) fun r' =>
      (r'.acts (ticks n)).foldl Sizing.after (sizing ticks r g n)

/-- What is done to the swing of a test as it begins: it is sized about the first centre. -/
def firstSizing (t : Look) (r : Run) : Sizing := ⟨[], r.test.room t⟩

/-! ## What the resizes leave of the size -/

/-- A half-width that what was done to the swing allows. -/
structure Sized (g : Sizing) (h : ℚ) : Prop where
  /-- After a narrowing it is no wider, unless a widening before had gone further. -/
  narrowed : ∀ n before, g.resizes = (n, false) :: before →
    (∀ w, (w, true) ∈ before → w ≤ n) → h ≤ n
  /-- After a widening it is no narrower than the room allows. -/
  widened : ∀ w before, g.resizes = (w, true) :: before → min w g.room ≤ h
  /-- It keeps to the room, or to the least swing where there is less. -/
  within : h ≤ max (3 / 100) g.room

/-- What a test has to remember of its resizes. -/
structure Fits (g : Sizing) (s : Test) : Prop where
  sized : Sized g s.h
  least : 3 / 100 ≤ s.h
  cap : s.hCap = g.latest false
  floor : s.hFloor = g.latest true
  wide : ∀ resize ∈ g.resizes, 3 / 100 ≤ resize.1

namespace Test

variable {t : Look} {s s' : Test} {g : Sizing}

/-! ### Sizing -/

theorem size_spec (t : Look) (s : Test) :
    ∃ base, 3 / 100 ≤ base ∧ base ≤ max (3 / 100) (s.room t) ∧ ∃ capped,
      capped = (if s.hCap > 0 ∧ base > s.hCap then s.hCap else base) ∧
      (size t s).h =
        if s.hFloor > 0 ∧ capped < s.hFloor then min s.hFloor (max (s.room t) capped)
        else capped := by
  set fits : ℚ := min (15 / 100) (min (55 / 100 * s.uCenter) (s.room t)) with fits_eq
  refine ⟨if fits < 3 / 100 then 3 / 100 else fits, ?_, ?_, _, rfl, rfl⟩
  · split_ifs with small
    · exact le_rfl
    · exact not_lt.mp small
  · split_ifs
    · exact le_max_left _ _
    · exact ((min_le_right _ _).trans (min_le_right _ _)).trans (le_max_right _ _)

theorem size_least (cap : s.hCap > 0 → 3 / 100 ≤ s.hCap) : 3 / 100 ≤ (size t s).h := by
  obtain ⟨base, least, _, capped, capped_eq, size_eq⟩ := size_spec t s
  have wide : 3 / 100 ≤ capped := by
    rw [capped_eq]
    split_ifs with held
    · exact cap held.1
    · exact least
  rw [size_eq]
  split_ifs with raised
  · exact le_min (wide.trans raised.2.le) (wide.trans (le_max_right _ _))
  · exact wide

theorem size_within (t : Look) (s : Test) : (size t s).h ≤ max (3 / 100) (s.room t) := by
  obtain ⟨base, _, within, capped, capped_eq, size_eq⟩ := size_spec t s
  have below : capped ≤ max (3 / 100) (s.room t) := by
    rw [capped_eq]
    split_ifs with held
    · exact held.2.le.trans within
    · exact within
  rw [size_eq]
  split_ifs
  · exact (min_le_right _ _).trans (max_le (le_max_right _ _) below)
  · exact below

theorem size_le_cap (capped : 0 < s.hCap) (below : s.hFloor ≤ s.hCap) :
    (size t s).h ≤ s.hCap := by
  obtain ⟨base, _, _, capped', capped_eq, size_eq⟩ := size_spec t s
  have held : capped' ≤ s.hCap := by
    rw [capped_eq]
    split_ifs with cut
    · exact le_rfl
    · exact not_lt.mp fun above => cut ⟨capped, above⟩
  rw [size_eq]
  split_ifs
  · exact (min_le_left _ _).trans below
  · exact held

theorem size_ge_floor (raised : 0 < s.hFloor) : min s.hFloor (s.room t) ≤ (size t s).h := by
  obtain ⟨base, _, _, capped, _, size_eq⟩ := size_spec t s
  rw [size_eq]
  split_ifs with low
  · exact min_le_min le_rfl (le_max_left _ _)
  · exact (min_le_left _ _).trans (not_lt.mp fun below => low ⟨raised, below⟩)

end Test

/-! ### The latest resize -/

theorem Sizing.latest_mem (g : Sizing) (wider : Bool) :
    (g.latest wider, wider) ∈ g.resizes ∨ g.latest wider = 0 := by
  unfold Sizing.latest
  cases found : g.resizes.find? fun resize => resize.2 == wider with
  | none => exact Or.inr rfl
  | some resize =>
      have kind := List.find?_some found
      rw [beq_iff_eq] at kind
      rw [← kind]
      exact Or.inl (List.mem_of_find?_eq_some found)

namespace Fits

variable {t : Look} {s s' : Test} {g : Sizing}

theorem congr (fits : Fits g s) (h : s'.h = s.h) (cap : s'.hCap = s.hCap)
    (floor : s'.hFloor = s.hFloor) : Fits g s' where
  sized := h ▸ fits.sized
  least := h ▸ fits.least
  cap := cap.trans fits.cap
  floor := floor.trans fits.floor
  wide := fits.wide

theorem least_cap (fits : Fits g s) (set : s.hCap > 0) : 3 / 100 ≤ s.hCap := by
  rw [fits.cap] at set ⊢
  rcases g.latest_mem false with made | none_
  · exact fits.wide _ made
  · rw [none_] at set
    exact absurd set (lt_irrefl 0)

theorem size (fits : Fits g s) (s' : Test) (cap : s'.hCap = s.hCap) (floor : s'.hFloor = s.hFloor) :
    Fits (g.after (.size (s'.room t))) (Test.size t s') where
  sized := by
    constructor
    · intro n before latest below
      have capped : s'.hCap = n := by
        rw [cap, fits.cap, Sizing.latest, show g.resizes = (n, false) :: before from latest]
        rfl
      have wide : 3 / 100 ≤ n := fits.wide (n, false) (by
        rw [show g.resizes = (n, false) :: before from latest]
        exact List.mem_cons_self)
      rw [← capped]
      apply Test.size_le_cap
      · rw [capped]
        linarith
      · rw [capped, floor, fits.floor]
        rcases g.latest_mem true with made | none_
        · rw [show g.resizes = (n, false) :: before from latest] at made
          rcases List.mem_cons.mp made with here | earlier
          · cases here
          · exact below _ earlier
        · rw [none_]
          linarith
    · intro w before latest
      have raised : s'.hFloor = w := by
        rw [floor, fits.floor, Sizing.latest, show g.resizes = (w, true) :: before from latest]
        rfl
      have wide : 3 / 100 ≤ w := fits.wide (w, true) (by
        rw [show g.resizes = (w, true) :: before from latest]
        exact List.mem_cons_self)
      rw [← raised]
      apply Test.size_ge_floor
      rw [raised]
      linarith
    · exact Test.size_within t s'
  least := Test.size_least fun set => by
    rw [cap] at set ⊢
    exact fits.least_cap set
  cap := cap.trans fits.cap
  floor := floor.trans fits.floor
  wide := fits.wide

end Fits

/-! ### Resizing -/

namespace Test

variable {t : Look} {s : Test} {c : Whole} {h : ℚ}

/-- A swing is narrowed to less than it was, and to no less than the auger can deliver. -/
theorem newSwing_narrower (narrower : s.newSwing t c = some (h, false)) (positive : 0 ≤ s.h) :
    5 / 100 ≤ h ∧ h ≤ s.h := by
  rw [newSwing] at narrower
  split_ifs at narrower with fat thin
  · cases narrower
    constructor
    · exact (le_max_left _ _).trans (le_max_right _ _)
    · linarith [fat.2]
  · cases narrower

theorem newSwing_wider (wider : s.newSwing t c = some (h, true)) (positive : 0 < s.h) :
    s.h ≤ h ∧ h ≤ s.room t := by
  rw [newSwing] at wider
  split_ifs at wider with fat thin
  · cases wider
  · cases wider
    have further : s.h < s.grown t c := by linarith [thin.2]
    have most : s.grown t c ≤
        max (min (t.uMax - 2 / 100 - s.uCenter) (s.uCenter - t.uMin - 2 / 100)) s.h :=
      (clamp_mem (le_max_right _ _)).2
    refine ⟨further.le, ?_⟩
    rcases le_max_iff.mp most with inside | still
    · rw [le_min_iff] at inside
      exact le_min (by linarith [inside.2]) (by linarith [inside.1])
    · exact absurd still (not_le.mpr further)

end Test

namespace Fits

variable {t : Look} {s : Test} {g : Sizing} {c : Test.Whole} {h : ℚ} {wider : Bool}

theorem resize (fits : Fits g s) (resized : s.newSwing t c = some (h, wider)) :
    Fits (g.after (.resize h wider (s.room t))) (s.resize h wider) := by
  have positive : 0 < s.h := lt_of_lt_of_le (by norm_num) fits.least
  cases wider with
  | false =>
      obtain ⟨least, narrower⟩ := Test.newSwing_narrower resized positive.le
      have wide : 3 / 100 ≤ h := by linarith
      refine ⟨⟨?_, ?_, ?_⟩, wide, rfl, fits.floor, ?_⟩
      · intro n before latest _
        cases latest
        exact le_rfl
      · intro w before latest
        cases latest
      · exact narrower.trans fits.sized.within
      · exact List.forall_mem_cons.mpr ⟨wide, fits.wide⟩
  | true =>
      obtain ⟨further, inside⟩ := Test.newSwing_wider resized positive
      have wide : 3 / 100 ≤ h := fits.least.trans further
      refine ⟨⟨?_, ?_, ?_⟩, wide, fits.cap, rfl, ?_⟩
      · intro n before latest
        cases latest
      · intro w before latest
        cases latest
        exact min_le_left _ _
      · exact inside.trans (le_max_right _ _)
      · exact List.forall_mem_cons.mpr ⟨wide, fits.wide⟩

/-! ## What a tick keeps -/

theorem centre (fits : Fits g s) (load : ℚ) :
    Fits ((if s.movesCentre t load then
        [Act.size (Test.room t { s with uCenter := s.nextCentre t load })] else []).foldl
      Sizing.after g) (s.centre t load) := by
  by_cases moves : s.movesCentre t load
  · rw [if_pos moves]
    have centre_eq : (s.centre t load).h =
          (Test.size t { s with uCenter := s.nextCentre t load }).h ∧
        (s.centre t load).hCap = s.hCap ∧ (s.centre t load).hFloor = s.hFloor := by
      rw [Test.centre, if_pos (by simpa [Test.movesCentre] using moves)]
      exact ⟨rfl, rfl, rfl⟩
    exact (fits.size { s with uCenter := s.nextCentre t load } rfl rfl).congr
      centre_eq.1 centre_eq.2.1 centre_eq.2.2
  · rw [if_neg moves, Test.centre, if_neg (by simpa [Test.movesCentre] using moves)]
    split_ifs <;> exact fits.congr rfl rfl rfl

theorem correct (fits : Fits g s) (c : Test.Whole) :
    Fits ((s.correctActs t c).foldl Sizing.after g) (s.correct t c) := by
  have found : Fits g { s with lastLoad := s.cycleLoad t c } := fits.congr rfl rfl rfl
  rw [Test.correctActs, Test.correct]
  cases resized : ({ s with lastLoad := s.cycleLoad t c } : Test).newSwing t c with
  | none => exact (found.centre (s.cycleLoad t c)).congr rfl rfl rfl
  | some swing =>
      rcases swing with ⟨h, wider⟩
      exact (found.resize resized).congr rfl rfl rfl

theorem condition {s' : Test} (fits : Fits g s) (conditioned : s.condition t = some s') :
    Fits ((s.conditionActs t).foldl Sizing.after g) s' := by
  rw [Test.condition] at conditioned
  rw [Test.conditionActs]
  split_ifs at conditioned ⊢ with early
  · cases whole_eq : s.whole with
    | none =>
        rw [whole_eq] at conditioned
        cases conditioned
    | some c =>
        rw [whole_eq] at conditioned
        cases conditioned
        exact fits.correct c
  · cases conditioned
    exact fits

theorem goOn (fits : Fits g s) : Fits ((s.goOnActs t).foldl Sizing.after g) (s.goOn t).test := by
  rw [Test.goOn, Test.goOnActs]
  by_cases off : s.offCentre t = true
  · rw [if_pos off]
    by_cases edge : s.atEdge t = true
    · rw [if_neg (by simp [edge])]
      dsimp only
      rw [if_pos edge]
      exact fits.congr rfl rfl rfl
    · rw [if_pos ⟨off, by simpa using edge⟩]
      dsimp only
      rw [if_neg edge]
      exact (fits.size { s with uCenter := s.moved t } rfl rfl).congr rfl rfl rfl
  · rw [if_neg off, if_neg (by simp [off])]
    split_ifs <;> exact fits.congr rfl rfl rfl

theorem cross {s' : Test} (fits : Fits g s) (crossed : s.cross t = some s') : Fits g s' := by
  rw [Test.cross] at crossed
  split_ifs at crossed
  · simp only [bind, Option.bind_eq_some_iff, Option.some.injEq] at crossed
    rcases crossed with ⟨_, _, _, _, _, _, _, rfl, rfl⟩
    exact fits.congr rfl rfl rfl
  · cases crossed
    exact fits.congr rfl rfl rfl

theorem step {a : Answer} (fits : Fits g s) (stepped : s.step t = some a) :
    Fits ((s.acts t).foldl Sizing.after g) a.test := by
  have tracked : Fits g (s.trackPeaks t) := fits.congr rfl rfl rfl
  rw [Test.step] at stepped
  rw [Test.acts]
  split_ifs at stepped ⊢ with crosses
  · simp only [bind, Option.bind_eq_some_iff] at stepped
    rcases stepped with ⟨crossed, cross_eq, conditioned, condition_eq, complete, complete_eq, rest⟩
    have fitted := (tracked.cross cross_eq).condition condition_eq
    rw [cross_eq, Option.elim_some, condition_eq, Option.elim_some, complete_eq, List.foldl_append]
    cases complete with
    | true =>
        rw [if_pos rfl, Option.bind_eq_some_iff] at rest
        rcases rest with ⟨outcome, _, ended⟩
        cases ended
        rw [if_pos rfl]
        exact fitted.congr rfl rfl rfl
    | false =>
        rw [if_neg (by decide)] at rest
        cases rest
        rw [if_neg (by decide)]
        exact fitted.goOn
  · cases stepped
    exact tracked.goOn

theorem tick {r r' : Run} (fits : Fits g r.test) (ticked : r.tick t = some r') :
    Fits ((r.acts t).foldl Sizing.after g) r'.test := by
  rw [Run.tick] at ticked
  rw [Run.acts]
  by_cases due : r.test.active = true ∧ cycleDone r.cycle t.now = true
  · rw [if_pos due] at ticked
    simp only [bind, Option.bind_eq_some_iff, Run.ask] at ticked
    rcases ticked with ⟨answer, asked, here⟩
    cases here
    by_cases lid : t.lidOpen = true
    · rw [if_pos lid] at asked
      cases asked
      rw [if_neg (by simp [lid])]
      dsimp only
      split_ifs <;> exact fits.congr rfl rfl rfl
    · rw [if_neg lid] at asked
      rw [if_pos ⟨due.1, due.2, by simpa using lid⟩]
      dsimp only
      split_ifs <;> exact (fits.step asked).congr rfl rfl rfl
  · rw [if_neg due] at ticked
    cases ticked
    rw [if_neg fun all => due ⟨all.1, all.2.1⟩]
    exact fits

theorem states {ticks : ℕ → Look} {r r' : Run} {n : ℕ} (fits : Fits g r.test)
    (state_eq : Swing.states ticks r n = some r') : Fits (sizing ticks r g n) r'.test := by
  induction n generalizing r' with
  | zero =>
      cases state_eq
      exact fits
  | succ n ih =>
      rw [Swing.states, Option.bind_eq_some_iff] at state_eq
      rcases state_eq with ⟨before, before_eq, ticked⟩
      rw [sizing, before_eq, Option.elim_some]
      exact (ih before_eq).tick ticked

end Fits

theorem fits_start (t : Look) (centre : ℚ) (sigma : Option ℚ) (rate : ℚ) :
    Fits (firstSizing t (start t centre sigma rate)) (start t centre sigma rate).test where
  sized := by
    refine ⟨?_, ?_, Test.size_within t _⟩
    · intro n before none_
      cases none_
    · intro w before none_
      cases none_
  least := Test.size_least fun set => absurd set (lt_irrefl 0)
  cap := rfl
  floor := rfl
  wide := fun _ none_ => absurd none_ List.not_mem_nil

/-- Over every run the latest resize holds: a narrowing that no earlier widening went past
is a ceiling, a widening is a floor as far as the room goes, and the swing keeps to the room
it was last sized for, or is the least one. -/
theorem latest_resize_holds (begun : Look) (centre : ℚ) (sigma : Option ℚ) (rate : ℚ)
    (ticks : ℕ → Look) (n : ℕ) {r : Run}
    (reached : states ticks (start begun centre sigma rate) n = some r) :
    Sized (sizing ticks (start begun centre sigma rate)
      (firstSizing begun (start begun centre sigma rate)) n) r.test.h :=
  ((fits_start begun centre sigma rate).states reached).sized

/-- A test after a tick, reached by a run that did this to its swing. -/
def Reached (g : Sizing) (t : Look) (s : Test) : Prop :=
  ∃ begun centre sigma rate ticks n r,
    states ticks (start begun centre sigma rate) (n + 1) = some r ∧ r.test = s ∧ ticks n = t ∧
      sizing ticks (start begun centre sigma rate)
        (firstSizing begun (start begun centre sigma rate)) (n + 1) = g

/-- A pit so many degrees off its set point, in cycles of twenty seconds. -/
def swungLook (look : ℚ × ℚ) : Look :=
  { now := look.1, pitC := 100 + look.2, pitValid := true, setpointC := 100, lidOpen := false
    uFf := 0, uMin := 1 / 10, uMax := 9 / 10
    ccfg := { cycleS := 20, uMin := 1 / 10, uMax := 9 / 10, maxOnS := 60 } }

/-- A pit that is seen at these times, so many degrees off. -/
def swungTicks (looks : List (ℚ × ℚ)) (n : ℕ) : Look := swungLook (looks.getD n (0, 0))

/-- A test that begins with the pit a little too hot. -/
def swungStart (centre : ℚ) : Run := start (swungLook (0, 3)) centre none 0

/-- What a run from a swung pit did to its swing. -/
def swungSizing (looks : List (ℚ × ℚ)) (centre : ℚ) : ℕ → Sizing :=
  sizing (swungTicks looks) (swungStart centre)
    (firstSizing (swungLook (0, 3)) (swungStart centre))

/-- A first cycle that swings so far to either side, and comes down ten times as slowly as it
goes up. -/
def wildLooks (error : ℚ) : List (ℚ × ℚ) :=
  [(20, -error), (40, error), (60, 0), (80, 0), (100, 0), (240, -error)]

/-- A pit that swings ten degrees either way has its swing narrowed, and the narrowing
holds. -/
theorem narrowing_holds_on_bench :
    ∃ r, states (swungTicks (wildLooks 10)) (swungStart (1 / 2)) 6 = some r ∧
      (swungSizing (wildLooks 10) (1 / 2) 6).resizes = [(21 / 400, false)] ∧
      Sized (swungSizing (wildLooks 10) (1 / 2) 6) r.test.h := by
  have runs : (states (swungTicks (wildLooks 10)) (swungStart (1 / 2)) 6).isSome = true := by
    decide +kernel
  obtain ⟨r, reached⟩ := Option.isSome_iff_exists.mp runs
  refine ⟨r, reached, by decide +kernel, ?_⟩
  exact latest_resize_holds (swungLook (0, 3)) (1 / 2) none 0 (swungTicks (wildLooks 10)) 6 reached

/-- A first cycle that is too thin to be read. -/
def thinLooks : List (ℚ × ℚ) :=
  [(20, -3 / 2), (40, 3 / 2), (60, 0), (80, 0), (100, 0), (120, -3 / 2)]

/-- After the thin cycle, one that finds little load, and one that finds a little more. -/
def trimmedLooks : List (ℚ × ℚ) :=
  thinLooks ++ [(140, 3 / 2), (160, 0), (180, 0), (200, 0), (480, -3 / 2), (500, 0), (520, 0),
    (660, 3 / 2), (700, 0), (800, -3 / 2)]

/-- After the thin cycle, one that finds the load at the centre, a wild one, and one that
finds more load. -/
def regrownLooks : List (ℚ × ℚ) :=
  thinLooks ++ [(200, 3 / 2), (220, 0), (240, 0), (260, 0), (280, -3 / 2),
    (360, 10), (380, 0), (400, 0), (420, 0), (440, -10),
    (560, 3 / 2), (580, 0), (600, 0), (620, 0), (640, -3 / 2)]

theorem reached_swung {looks : List (ℚ × ℚ)} {centre : ℚ} {n : ℕ} {r : Run}
    (reached : states (swungTicks looks) (swungStart centre) (n + 1) = some r) :
    Reached (swungSizing looks centre (n + 1)) (swungTicks looks n) r.test :=
  ⟨swungLook (0, 3), centre, none, 0, swungTicks looks, n, r, reached, rfl, rfl, rfl⟩

/-- A narrowing below an earlier widening is undone by the next sizing, a trim leaves the
swing where it is though there is more room than before, and the least swing is wider than
the room near the least feed. -/
theorem latest_resize_alone_fails :
    (¬∀ g t s, Reached g t s → ∀ n before, g.resizes = (n, false) :: before → s.h ≤ n) ∧
      (¬∀ g t s, Reached g t s →
        ∀ w before, g.resizes = (w, true) :: before → min w (s.room t) ≤ s.h) ∧
      ¬∀ g t s, Reached g t s → s.h ≤ s.room t := by
  refine ⟨?_, ?_, ?_⟩
  · intro narrowed
    have regrown : (states (swungTicks regrownLooks) (swungStart (3 / 10)) 21).map
        (fun r => r.test.h) = some (18 / 100) := by
      decide +kernel
    have resizes : (swungSizing regrownLooks (3 / 10) 21).resizes =
        [(63 / 1000, false), (18 / 100, true)] := by
      decide +kernel
    obtain ⟨r, reached, h_eq⟩ := Option.map_eq_some_iff.mp regrown
    have least := narrowed _ _ _ (reached_swung reached) _ _ resizes
    rw [h_eq] at least
    norm_num at least
  · intro widened
    have trimmed : (states (swungTicks trimmedLooks) (swungStart (3 / 10)) 16).map
        (fun r => (r.test.h, r.test.room (swungTicks trimmedLooks 15))) =
          some (40 / 1000, 45 / 1000) := by
      decide +kernel
    have resizes : (swungSizing trimmedLooks (3 / 10) 16).resizes = [(18 / 100, true)] := by
      decide +kernel
    obtain ⟨r, reached, sizes⟩ := Option.map_eq_some_iff.mp trimmed
    obtain ⟨h_eq, room_eq⟩ := Prod.mk.inj sizes
    have most := widened _ _ _ (reached_swung reached) _ _ resizes
    rw [h_eq, room_eq] at most
    norm_num at most
  · intro within
    have least : (states (swungTicks (wildLooks 3)) (swungStart (1 / 10)) 6).map
        (fun r => (r.test.h, r.test.room (swungTicks (wildLooks 3) 5))) =
          some (3 / 100, 2 / 100) := by
      decide +kernel
    obtain ⟨r, reached, sizes⟩ := Option.map_eq_some_iff.mp least
    obtain ⟨h_eq, room_eq⟩ := Prod.mk.inj sizes
    have most := within _ _ _ (reached_swung reached)
    rw [h_eq, room_eq] at most
    norm_num at most

end PiFire.Swing
