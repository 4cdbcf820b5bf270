import PiFire.Ranking.Rank
import PiFire.Transition.Run
import Mathlib.Algebra.Order.Field.Rat
import Mathlib.Algebra.Order.BigOperators.Group.List
import Mathlib.Data.List.Induction
import Mathlib.Tactic.Linarith
import Mathlib.Tactic.NormNum

/-!
# What a probe is said to read

Three stages follow one another: the median of the last five readings, the mean of the last ten
medians, and a gate on how fast the reported value may move. What a few wrong readings cannot
do is take the reported value out of an interval that the others lie in; and it moves faster
than the gate allows only when it has been held back for some time.
-/

namespace PiFire.Probes

open Ranking Transition

/-- The last values, a fixed number of them, the newest first. -/
structure Window (n : ℕ) where
  values : List ℚ
  length_values : values.length = n

namespace Window

variable {n : ℕ}

/-- Before anything was read. -/
def zeros (n : ℕ) : Window n := ⟨List.replicate n 0, List.length_replicate⟩

def fill (n : ℕ) (c : ℚ) : Window n := ⟨List.replicate n c, List.length_replicate⟩

/-- A value comes in at the front, and the oldest one falls out. -/
def push (c : ℚ) (w : Window n) : Window n :=
  ⟨(c :: w.values).take n, by rw [List.length_take, List.length_cons, w.length_values]; omega⟩

theorem reverse_push (c : ℚ) (w : Window (n + 1)) :
    (w.push c).values.reverse = w.values.reverse.tail ++ [c] := by
  change ((c :: w.values).take (n + 1)).reverse = _
  rw [List.take_succ_cons, List.reverse_cons, List.tail_reverse, List.dropLast_eq_take,
    w.length_values, Nat.add_sub_cancel]

end Window

/-- `pf_tempq`. What is not a number is `none`. -/
structure TempQ where
  med : Window 5
  q : Window 10
  len : ℕ
  lastAvg : Option ℚ
  haveAvg : Bool
  slewCs : ℚ
  holdS : ℚ
  outC : Option ℚ
  outT : ℚ
  holdSince : ℚ
  unstable : Bool

/-- The sorted copy, held from its end: the insertion looks from there for a place. -/
def sortedDown (v : List ℚ) : List ℚ := v.foldl (fun s x => s.orderedInsert (· ≥ ·) x) []

/-- `median` -/
def median (v : List ℚ) : ℚ :=
  let s := (sortedDown v).reverse
  let n := v.length
  if n % 2 = 1 then s.getD (n / 2) 0 else 1 / 2 * (s.getD (n / 2 - 1) 0 + s.getD (n / 2) 0)

namespace TempQ

/-- `pf_tempq_init` -/
def init : TempQ :=
  { med := Window.zeros 5
    q := Window.zeros 10
    len := 0
    lastAvg := none
    haveAvg := false
    slewCs := 0
    holdS := 0
    outC := none
    outT := 0
    holdSince := 0
    unstable := false }

/-- `pf_tempq_limits` -/
def limits (slewCs holdS : ℚ) (t : TempQ) : TempQ :=
  { t with
    slewCs := if 0 < slewCs then slewCs else 0
    holdS := if 0 < holdS then holdS else 0 }

/-- `pf_tempq_reset` -/
def reset (t : TempQ) : TempQ := { init with slewCs := t.slewCs, holdS := t.holdS }

/-- The time step, as far as the gate goes by it. -/
def step (now : ℚ) (t : TempQ) : ℚ :=
  let dt := now - t.outT
  let dt := if 0 < dt then dt else 1 / 4
  if 5 < dt then 5 else dt

/-- What the gate lets the value move. -/
def allowed (now : ℚ) (t : TempQ) : ℚ := t.slewCs * t.step now

/-- The value is believed. -/
def believe (f : ℚ) (t : TempQ) : TempQ :=
  { t with outC := some f, holdSince := 0, unstable := false }

/-- The value is held back. -/
def holdBack (now out d : ℚ) (t : TempQ) : TempQ :=
  { t with
    holdSince := if 0 < t.holdSince then t.holdSince else now
    outC := some (out + if 0 < d then t.allowed now else -t.allowed now)
    unstable := true }

/-- `gate` -/
def gate (f now : ℚ) (t : TempQ) : TempQ :=
  match t.outC with
  | none => { t.believe f with outT := now }
  | some out =>
      if 0 < t.slewCs then
        let d := f - out
        let t' :=
          if |d| ≤ t.allowed now then t.believe f
          else if 0 < t.holdSince ∧ t.holdS ≤ now - t.holdSince then t.believe f
          else t.holdBack now out d
        { t' with outT := now }
      else { t.believe f with outT := now }

/-- The first two stages: the value they make of a reading, and what they keep. -/
def filter (c : ℚ) (t : TempQ) : ℚ × TempQ :=
  if t.len = 0 then
    (c, { t with
      med := Window.fill 5 c
      q := Window.fill 10 c
      len := 10
      lastAvg := some c
      haveAvg := true })
  else
    let med := t.med.push c
    let q := t.q.push (median med.values)
    let mean := q.values.sum / 10
    (mean, { t with med := med, q := q, lastAvg := some mean, haveAvg := true })

/-- `pf_tempq_push`: the value to report. -/
def push (c : Option ℚ) (now : ℚ) (t : TempQ) : Option ℚ × TempQ :=
  match c with
  | none => (if t.haveAvg then (t.outC.or t.lastAvg) else none, t)
  | some c =>
      let filtered := t.filter c
      let t' := filtered.2.gate filtered.1 now
      (t'.outC, t')

end TempQ

/-! ## Readings over time -/

/-- A reading, and when it was taken. -/
structure Sampled where
  c : Option ℚ
  now : ℚ
  deriving DecidableEq

/-- What a reading leaves. -/
def take (r : Sampled) (t : TempQ) : TempQ := (t.push r.c r.now).2

/-- The readings that are numbers. -/
def numbers (readings : List Sampled) : List ℚ := readings.filterMap (·.c)

/-- The first reading counts five times. -/
def counted : List ℚ → List ℚ
  | [] => []
  | first :: later => List.replicate 4 first ++ first :: later

/-- At least three of every five consecutive values lie in an interval. -/
def Mostly (a b : ℚ) (values : List ℚ) : Prop :=
  ∀ window, window <:+: values → window.length = 5 →
    3 ≤ window.countP fun x => a ≤ x ∧ x ≤ b

/-- What is reported lies in the interval. -/
def Reports (a b : ℚ) (r : Sampled) (t : TempQ) : Prop :=
  ∀ v, (t.push r.c r.now).1 = some v → a ≤ v ∧ v ≤ b

/-- The filtered value is further from what was reported than the gate lets it move. -/
def Strays (r : Sampled) (t : TempQ) : Prop :=
  ∀ c out, r.c = some c → t.outC = some out → t.allowed r.now < |(t.filter c).1 - out|

/-- What is reported moves further than that. -/
def Jumps (r : Sampled) (t : TempQ) : Prop :=
  ∃ out y, t.outC = some out ∧ (t.push r.c r.now).1 = some y ∧ t.allowed r.now < |y - out|

/-- From one of the readings on, taken so long before the last one, the filtered value always
was further from what was reported than the gate lets it move. -/
def StrayedFor (hold : ℚ) (start : TempQ) (readings : List Sampled) (last : Sampled) : Prop :=
  ∃ older q newer, readings ++ [last] = older ++ q :: newer ∧ hold ≤ last.now - q.now ∧
    Along take Strays (q :: newer) (run take older start)

/-! ## The first two stages -/

theorem sortedDown_eq (v : List ℚ) : sortedDown v = v.reverse.insertionSort (· ≥ ·) := by
  rw [sortedDown, List.insertionSort, List.foldr_reverse]

theorem sortedDown_perm (v : List ℚ) : (sortedDown v).reverse.Perm v := by
  rw [sortedDown_eq]
  exact (List.reverse_perm _).trans ((List.perm_insertionSort _ _).trans (List.reverse_perm v))

/-- Two wrong values of five do not take the median out of an interval. -/
theorem median_mem {v : List ℚ} {a b : ℚ} (five : v.length = 5)
    (most : 3 ≤ v.countP fun x => a ≤ x ∧ x ≤ b) : a ≤ median v ∧ median v ≤ b := by
  have same := sortedDown_perm v
  have sorted : (sortedDown v).reverse.SortedLE := by
    rw [sortedDown_eq]
    exact List.SortedGE.reverse List.sortedGE_insertionSort
  have length : (sortedDown v).reverse.length = 2 * 2 + 1 := same.length_eq.trans five
  have middle := middle_mem sorted length (a := a) (b := b) (by rw [same.countP_eq]; omega)
  have here : median v = (sortedDown v).reverse[2] := by
    simp only [median, five]
    rw [if_pos (by norm_num), List.getD_eq_getElem?_getD, List.getElem?_eq_getElem (by omega)]
    rfl
  rw [here]
  exact middle

theorem mean_mem {values : List ℚ} {a b : ℚ} (ten : values.length = 10)
    (all : ∀ x ∈ values, a ≤ x ∧ x ≤ b) : a ≤ values.sum / 10 ∧ values.sum / 10 ≤ b := by
  have least := List.card_nsmul_le_sum values a fun x inside => (all x inside).1
  have most := List.sum_le_card_nsmul values b fun x inside => (all x inside).2
  rw [ten, nsmul_eq_mul] at least most
  push_cast at least most
  constructor <;> linarith

/-! ## The gate -/

variable {t : TempQ} {f now : ℚ} {r : Sampled}

theorem step_pos (now : ℚ) (t : TempQ) : 0 < t.step now := by
  simp only [TempQ.step]
  split_ifs <;> linarith

/-- What the gate can do with a value when it is on and something was reported before. -/
inductive Gated (f now : ℚ) (t : TempQ) (out : ℚ) : TempQ → Prop
  | close {t' : TempQ} (near : |f - out| ≤ t.allowed now) (moved : t'.outC = some f)
      (since : t'.holdSince = 0) : Gated f now t out t'
  | lasted {t' : TempQ} (far : t.allowed now < |f - out|) (set_ : 0 < t.holdSince)
      (long : t.holdS ≤ now - t.holdSince) (moved : t'.outC = some f) (since : t'.holdSince = 0) :
      Gated f now t out t'
  | held {t' : TempQ} (far : t.allowed now < |f - out|)
      (moved : t'.outC = some (out + if 0 < f - out then t.allowed now else -t.allowed now))
      (since : t'.holdSince = if 0 < t.holdSince then t.holdSince else now) :
      Gated f now t out t'

theorem gated {out : ℚ} (reported : t.outC = some out) (on : 0 < t.slewCs) :
    Gated f now t out (t.gate f now) := by
  simp only [TempQ.gate, reported, if_pos on]
  split_ifs with near lasted
  · exact Gated.close near rfl rfl
  · exact Gated.lasted (not_le.mp near) lasted.1 lasted.2 rfl rfl
  · exact Gated.held (not_le.mp near) rfl rfl

theorem gate_off {out : ℚ} (reported : t.outC = some out) (off : ¬0 < t.slewCs) :
    (t.gate f now).outC = some f := by
  simp only [TempQ.gate, reported, if_neg off]
  rfl

theorem gate_first (none_ : t.outC = none) : (t.gate f now).outC = some f := by
  simp only [TempQ.gate, none_]
  rfl

theorem gate_mem {a b : ℚ} (now : ℚ) (here : a ≤ f ∧ f ≤ b)
    (before : ∀ v, t.outC = some v → a ≤ v ∧ v ≤ b) :
    ∃ v, (t.gate f now).outC = some v ∧ a ≤ v ∧ v ≤ b := by
  cases reported : t.outC with
  | none => exact ⟨f, gate_first reported, here⟩
  | some out =>
      by_cases on : 0 < t.slewCs
      · have did : Gated f now t out (t.gate f now) := gated reported on
        cases did with
        | close near moved since => exact ⟨f, moved, here⟩
        | lasted far set_ long moved since => exact ⟨f, moved, here⟩
        | held far moved since =>
            -- the value moves towards the filtered one, and not as far as that
            refine ⟨_, moved, ?_⟩
            have between := before out reported
            have nonneg : 0 ≤ t.allowed now := mul_nonneg on.le (step_pos now t).le
            split_ifs with up
            · rw [abs_of_pos up] at far
              constructor <;> linarith
            · rw [abs_of_nonpos (not_lt.mp up)] at far
              constructor <;> linarith
      · exact ⟨f, gate_off reported on, here⟩

@[simp]
theorem gate_stages (f now : ℚ) (t : TempQ) :
    (t.gate f now).med = t.med ∧ (t.gate f now).q = t.q ∧ (t.gate f now).len = t.len ∧
      (t.gate f now).lastAvg = t.lastAvg ∧ (t.gate f now).haveAvg = t.haveAvg ∧
      (t.gate f now).slewCs = t.slewCs ∧ (t.gate f now).holdS = t.holdS := by
  unfold TempQ.gate
  split
  · exact ⟨rfl, rfl, rfl, rfl, rfl, rfl, rfl⟩
  · simp only
    split_ifs <;> exact ⟨rfl, rfl, rfl, rfl, rfl, rfl, rfl⟩

theorem filter_gate (c : ℚ) (t : TempQ) :
    (t.filter c).2.outC = t.outC ∧ (t.filter c).2.outT = t.outT ∧
      (t.filter c).2.holdSince = t.holdSince ∧ (t.filter c).2.slewCs = t.slewCs ∧
      (t.filter c).2.holdS = t.holdS := by
  unfold TempQ.filter
  split_ifs <;> exact ⟨rfl, rfl, rfl, rfl, rfl⟩

theorem allowed_filter (c now : ℚ) (t : TempQ) : (t.filter c).2.allowed now = t.allowed now := by
  obtain ⟨-, outT, -, slew, -⟩ := filter_gate c t
  rw [TempQ.allowed, TempQ.allowed, TempQ.step, TempQ.step, outT, slew]

/-! ## Inside an interval -/

variable {a b c : ℚ} {read : List ℚ}

theorem counted_append (some_ : read ≠ []) (more : List ℚ) :
    counted (read ++ more) = counted read ++ more := by
  cases read with
  | nil => exact absurd rfl some_
  | cons first later => rfl

theorem Mostly.of_append {values more : List ℚ} (mostly : Mostly a b (values ++ more)) :
    Mostly a b values := by
  intro window inside five
  exact mostly window (inside.trans (List.prefix_append values more).isInfix) five

/-- What the filter holds after some numbers, when all it made of them lies in an interval. -/
structure Seen (a b : ℚ) (read : List ℚ) (t : TempQ) : Prop where
  fresh : read = [] → t.len = 0 ∧ t.haveAvg = false
  started : read ≠ [] → t.len = 10 ∧ t.med.values.reverse <:+ counted read
  q : read ≠ [] → ∀ x ∈ t.q.values, a ≤ x ∧ x ≤ b
  avg : ∀ v, t.lastAvg = some v → a ≤ v ∧ v ≤ b
  out : ∀ v, t.outC = some v → a ≤ v ∧ v ≤ b

theorem seen_limits (slew hold : ℚ) : Seen a b [] (TempQ.init.limits slew hold) :=
  ⟨fun _ => ⟨rfl, rfl⟩, fun some_ => absurd rfl some_, fun some_ => absurd rfl some_, nofun, nofun⟩

theorem filter_first (seen : Seen a b [] t) (inside : a ≤ c ∧ c ≤ b) :
    (a ≤ (t.filter c).1 ∧ (t.filter c).1 ≤ b) ∧ Seen a b [c] (t.filter c).2 := by
  rw [TempQ.filter, if_pos (seen.fresh rfl).1]
  refine ⟨inside, nofun, fun _ => ⟨rfl, ?_⟩, fun _ x member => ?_, fun v average => ?_, seen.out⟩
  · exact List.suffix_refl _
  · rw [List.eq_of_mem_replicate member]
    exact inside
  · rw [← Option.some.inj average]
    exact inside

theorem filter_later (seen : Seen a b read t) (some_ : read ≠ [])
    (mostly : Mostly a b (counted (read ++ [c]))) :
    (a ≤ (t.filter c).1 ∧ (t.filter c).1 ≤ b) ∧ Seen a b (read ++ [c]) (t.filter c).2 := by
  obtain ⟨full, older, window⟩ := seen.started some_
  rw [counted_append some_] at mostly
  have med : (t.med.push c).values.reverse <:+ counted read ++ [c] := by
    rw [Window.reverse_push, ← window]
    refine ⟨older ++ t.med.values.reverse.take 1, ?_⟩
    rw [← List.drop_one, List.append_assoc, ← List.append_assoc (List.take 1 _),
      List.take_append_drop, List.append_assoc]
  have most := mostly _ med.isInfix (by rw [List.length_reverse, (t.med.push c).length_values])
  rw [(List.reverse_perm _).countP_eq] at most
  have middle := median_mem (t.med.push c).length_values most
  have ten : ∀ x ∈ (t.q.push (median (t.med.push c).values)).values, a ≤ x ∧ x ≤ b := by
    intro x member
    rcases List.mem_cons.mp (List.mem_of_mem_take member) with rfl | before
    · exact middle
    · exact seen.q some_ x before
  have mean := mean_mem (t.q.push (median (t.med.push c).values)).length_values ten
  rw [TempQ.filter, if_neg (by omega)]
  refine ⟨mean, fun none_ => absurd none_ (by simp), fun _ => ⟨full, ?_⟩, fun _ => ten,
    fun v average => ?_, seen.out⟩
  · rwa [counted_append some_]
  · rw [← Option.some.inj average]
    exact mean

theorem Seen.number (seen : Seen a b read t) (first : read = [] → a ≤ c ∧ c ≤ b)
    (mostly : Mostly a b (counted (read ++ [c]))) (now : ℚ) :
    Seen a b (read ++ [c]) ((t.filter c).2.gate (t.filter c).1 now) ∧
      ∃ v, ((t.filter c).2.gate (t.filter c).1 now).outC = some v ∧ a ≤ v ∧ v ≤ b := by
  have filtered : (a ≤ (t.filter c).1 ∧ (t.filter c).1 ≤ b) ∧
      Seen a b (read ++ [c]) (t.filter c).2 := by
    by_cases none_ : read = []
    · subst none_
      exact filter_first seen (first rfl)
    · exact filter_later seen none_ mostly
  obtain ⟨inside, seen⟩ := filtered
  obtain ⟨v, reported, between⟩ := gate_mem now inside seen.out
  obtain ⟨med, q, len, avg, -, -, -⟩ := gate_stages (t.filter c).1 now (t.filter c).2
  refine ⟨⟨fun none_ => absurd none_ (by simp), ?_, ?_, ?_, ?_⟩, v, reported, between⟩
  · rw [len, med]
    exact seen.started
  · rw [q]
    exact seen.q
  · rw [avg]
    exact seen.avg
  · intro v' reported'
    rw [reported] at reported'
    rwa [← Option.some.inj reported']

theorem reports_mem {readings : List Sampled} (seen : Seen a b read t)
    (first : read = [] → ∀ c ∈ (numbers readings).head?, a ≤ c ∧ c ≤ b)
    (mostly : Mostly a b (counted (read ++ numbers readings))) :
    Along take (Reports a b) readings t := by
  induction readings generalizing read t with
  | nil => trivial
  | cons r readings ih =>
      cases number : r.c with
      | none =>
          have same : numbers (r :: readings) = numbers readings := by
            rw [numbers, List.filterMap_cons_none number]
            rfl
          rw [same] at first mostly
          have left : take r t = t := by rw [take, number, TempQ.push]
          constructor
          · intro v reported
            rw [number, TempQ.push] at reported
            split_ifs at reported
            rcases Option.or_eq_some_iff.mp reported with out | ⟨-, average⟩
            · exact seen.out v out
            · exact seen.avg v average
          · rw [left]
            exact ih seen first mostly
      | some c =>
          have same : numbers (r :: readings) = c :: numbers readings := by
            rw [numbers, List.filterMap_cons_some number]
            rfl
          rw [same] at first mostly
          have apart : read ++ c :: numbers readings = read ++ [c] ++ numbers readings := by simp
          have some_ : read ++ [c] ≠ [] := by simp
          rw [apart, counted_append some_] at mostly
          have here := seen.number (fun none_ => first none_ c rfl) mostly.of_append r.now
          obtain ⟨seen, v, reported, between⟩ := here
          have left : take r t = (t.filter c).2.gate (t.filter c).1 r.now := by
            rw [take, number, TempQ.push]
          constructor
          · intro v' reported'
            rw [number, TempQ.push] at reported'
            simp only [reported, Option.some_inj] at reported'
            rwa [← reported']
          · rw [left]
            apply ih seen (fun none_ => absurd none_ some_)
            rwa [counted_append some_]

/-! ## Faster than the gate lets it -/

variable {start : TempQ} {past : List Sampled}

/-- Since it was set, the time of the hold is that of a reading from which on every filtered
value was too far away. -/
def Holding (start : TempQ) (past : List Sampled) (t : TempQ) : Prop :=
  0 < t.holdSince → ∃ older q newer, past = older ++ q :: newer ∧ q.now = t.holdSince ∧
    Along take Strays (q :: newer) (run take older start)

theorem strays_of_far {out : ℚ} (number : r.c = some c) (reported : t.outC = some out)
    (far : t.allowed r.now < |(t.filter c).1 - out|) : Strays r t := by
  intro c' out' number' reported'
  rw [number] at number'
  rw [reported] at reported'
  cases number'
  cases reported'
  exact far

theorem gated_take {out : ℚ} (number : r.c = some c) (reported : t.outC = some out)
    (on : 0 < t.slewCs) :
    (t.push r.c r.now).1 = (take r t).outC ∧
      Gated (t.filter c).1 r.now (t.filter c).2 out (take r t) := by
  obtain ⟨outC, -, -, slew, -⟩ := filter_gate c t
  have same : take r t = (t.filter c).2.gate (t.filter c).1 r.now := by
    rw [take, number, TempQ.push]
  rw [same]
  constructor
  · rw [number, TempQ.push]
  · exact gated (outC.trans reported) (by rwa [slew])

theorem take_none (number : r.c = none) : take r t = t := by rw [take, number, TempQ.push]

theorem holdSince_first (number : r.c = some c) (none_ : t.outC = none) :
    (take r t).holdSince = 0 := by
  obtain ⟨outC, -⟩ := filter_gate c t
  rw [take, number, TempQ.push]
  simp only [TempQ.gate, outC.trans none_]
  rfl

theorem Holding.take (holding : Holding start past (run take past start))
    (on : 0 < (run take past start).slewCs) (r : Sampled) :
    Holding start (past ++ [r]) (run take (past ++ [r]) start) := by
  rw [run_append, run_cons, run_nil]
  generalize here : run Probes.take past start = t at holding on
  intro set_
  have further (strays : Strays r t) (since : 0 < t.holdSince) :
      ∃ older q newer, past ++ [r] = older ++ q :: newer ∧ q.now = t.holdSince ∧
        Along Probes.take Strays (q :: newer) (run Probes.take older start) := by
    obtain ⟨older, q, newer, rfl, at_, along⟩ := holding since
    refine ⟨older, q, newer ++ [r], by simp, at_, ?_⟩
    have whole : run Probes.take (q :: newer) (run Probes.take older start) = t := by
      rw [← run_append, here]
    rw [← List.cons_append]
    apply along_append.mpr
    exact ⟨along, by rwa [whole], trivial⟩
  cases number : r.c with
  | none =>
      rw [take_none number] at set_ ⊢
      apply further _ set_
      intro c out number'
      rw [number] at number'
      cases number'
  | some c =>
      cases reported : t.outC with
      | none =>
          rw [holdSince_first number reported] at set_
          exact absurd set_ (lt_irrefl 0)
      | some out =>
          obtain ⟨-, did⟩ := gated_take number reported on
          obtain ⟨-, -, since_, -, -⟩ := filter_gate c t
          cases did with
          | close near moved since =>
              rw [since] at set_
              exact absurd set_ (lt_irrefl 0)
          | lasted far _ long moved since =>
              rw [since] at set_
              exact absurd set_ (lt_irrefl 0)
          | held far moved since =>
              rw [allowed_filter] at far
              have strays := strays_of_far number reported far
              rw [since_] at since
              rw [since]
              split_ifs with before
              · exact further strays before
              · refine ⟨past, r, [], rfl, rfl, ?_, trivial⟩
                rwa [here]

theorem jumps_after_hold (on : 0 < t.slewCs) (jumps : Jumps r t) :
    Strays r t ∧ 0 < t.holdSince ∧ t.holdS ≤ r.now - t.holdSince := by
  obtain ⟨out, y, reported, answer, jumps⟩ := jumps
  have nonneg : 0 ≤ t.allowed r.now := mul_nonneg on.le (step_pos r.now t).le
  cases number : r.c with
  | none =>
      -- what is not a number leaves what was reported
      rw [number, TempQ.push] at answer
      split_ifs at answer
      rw [reported, Option.some_or, Option.some_inj] at answer
      rw [answer, sub_self, abs_zero] at jumps
      exact absurd jumps (not_lt.mpr nonneg)
  | some c =>
      obtain ⟨same, did⟩ := gated_take number reported on
      obtain ⟨-, -, since_, -, hold⟩ := filter_gate c t
      rw [same] at answer
      cases did with
      | close near moved since =>
          rw [moved, Option.some_inj] at answer
          rw [allowed_filter, answer] at near
          exact absurd jumps (not_lt.mpr near)
      | lasted far set_ long moved since =>
          rw [allowed_filter] at far
          rw [since_] at set_ long
          rw [hold] at long
          exact ⟨strays_of_far number reported far, set_, long⟩
      | held far moved since =>
          rw [moved, Option.some_inj, allowed_filter] at answer
          rw [← answer, add_sub_cancel_left] at jumps
          refine absurd jumps (not_lt.mpr ?_)
          split_ifs
          · exact (abs_of_nonneg nonneg).le
          · rw [abs_neg]
            exact (abs_of_nonneg nonneg).le

theorem limits_take (r : Sampled) (t : TempQ) :
    (take r t).slewCs = t.slewCs ∧ (take r t).holdS = t.holdS := by
  cases number : r.c with
  | none =>
      rw [take_none number]
      exact ⟨rfl, rfl⟩
  | some c =>
      obtain ⟨-, -, -, slew, hold⟩ := filter_gate c t
      obtain ⟨-, -, -, -, -, slew', hold'⟩ := gate_stages (t.filter c).1 r.now (t.filter c).2
      rw [take, number, TempQ.push]
      exact ⟨slew'.trans slew, hold'.trans hold⟩

theorem limits_run (past : List Sampled) (t : TempQ) :
    (run take past t).slewCs = t.slewCs ∧ (run take past t).holdS = t.holdS := by
  induction past generalizing t with
  | nil => exact ⟨rfl, rfl⟩
  | cons r past ih =>
      obtain ⟨slew, hold⟩ := ih (take r t)
      obtain ⟨slew', hold'⟩ := limits_take r t
      exact ⟨slew.trans slew', hold.trans hold'⟩

theorem reset_run (slew hold : ℚ) (past : List Sampled) :
    (run take past (TempQ.init.limits slew hold)).reset = TempQ.init.limits slew hold := by
  obtain ⟨slew', hold'⟩ := limits_run past (TempQ.init.limits slew hold)
  rw [TempQ.reset, slew', hold']
  rfl

theorem holding_run (none_ : start.holdSince = 0) (on : 0 < start.slewCs) (past : List Sampled) :
    Holding start past (run take past start) := by
  induction past using List.reverseRecOn with
  | nil =>
      intro set_
      rw [run_nil, none_] at set_
      exact absurd set_ (lt_irrefl 0)
  | append_singleton past r ih =>
      apply ih.take
      rwa [(limits_run past start).1]

theorem strayed_of_jump (none_ : start.holdSince = 0) (on : 0 < start.slewCs)
    (jumps : Jumps r (run take past start)) : StrayedFor start.holdS start past r := by
  have on' : 0 < (run take past start).slewCs := by rwa [(limits_run past start).1]
  obtain ⟨strays, set_, long⟩ := jumps_after_hold on' jumps
  obtain ⟨older, q, newer, split, at_, along⟩ := holding_run none_ on past set_
  rw [(limits_run past start).2, ← at_] at long
  refine ⟨older, q, newer ++ [r], by rw [split]; simp, long, ?_⟩
  have whole : run take (q :: newer) (run take older start) = run take past start := by
    rw [← run_append, ← split]
  rw [← List.cons_append]
  apply along_append.mpr
  exact ⟨along, by rwa [whole], trivial⟩

/-- What is reported lies in every interval that the first reading and most of every five lie
in. -/
def KeepsInside (start : TempQ) : Prop :=
  ∀ a b readings, (∀ first ∈ (numbers readings).head?, a ≤ first ∧ first ≤ b) →
    Mostly a b (counted (numbers readings)) → Along take (Reports a b) readings start

/-- What is reported moves faster than the gate lets it only after the hold. -/
def MovesSlowly (start : TempQ) : Prop :=
  ∀ past r, Jumps r (run take past start) → StrayedFor start.holdS start past r

/-- The filter keeps inside, whatever its limits; and with a limit on how fast it may move, it
moves faster only after the hold. -/
theorem filter_sound (slew hold : ℚ) :
    KeepsInside (TempQ.init.limits slew hold) ∧
      (0 < slew → MovesSlowly (TempQ.init.limits slew hold)) := by
  constructor
  · intro a b readings first mostly
    exact reports_mem (seen_limits slew hold) (fun _ => first) mostly
  · intro positive past r jumps
    apply strayed_of_jump rfl _ jumps
    exact (if_pos positive).ge.trans_lt' positive

/-- Two hundred degrees, from the second reading on. -/
def jump : List Sampled := [⟨some 100, 1⟩, ⟨some 200, 2⟩, ⟨some 200, 3⟩]

/-- A filter whose gate is off moves at once. -/
theorem gate_off_jumps :
    ¬∀ slew hold, KeepsInside (TempQ.init.limits slew hold) ∧
      MovesSlowly (TempQ.init.limits slew hold) := by
  intro right
  have slow := (right 0 10).2 jump ⟨some 200, 4⟩ ⟨100, 110, by decide +kernel⟩
  obtain ⟨older, q, newer, split, long, -⟩ := slow
  have late : ∀ r ∈ jump ++ [⟨some 200, 4⟩], 1 ≤ r.now := by decide +kernel
  have first : 1 ≤ q.now := late q (by rw [split]; simp)
  have hold : (TempQ.init.limits 0 10).holdS = 10 := rfl
  rw [hold] at long
  have last : ((4 : ℚ) - q.now) = (⟨some 200, 4⟩ : Sampled).now - q.now := rfl
  linarith

end PiFire.Probes
