import Mathlib.Data.List.Dedup
import Mathlib.Data.List.Sort
import Mathlib.Data.List.TakeWhile
import Mathlib.Data.Finset.Card
import Mathlib.Data.List.ReduceOption
import Mathlib.Tactic.Linarith

/-!
# Rows onto an axis

An axis of keys in ascending order, and rows that come by ascending key. Each row goes to the
place of its key, every place before it that no row came for is left blank, and a row whose key
the axis does not have is dropped. In the end every place says what the rows say of its key.
-/

namespace Ranking

universe u v w

variable {κ : Type u} {ρ : Type v} {α : Type w} [LinearOrder κ]

/-- The distinct keys in ascending order. -/
def keys (l : List κ) : List κ := l.dedup.insertionSort (· ≤ ·)

theorem mem_keys {l : List κ} {k : κ} : k ∈ keys l ↔ k ∈ l := by
  rw [keys, List.mem_insertionSort, List.mem_dedup]

theorem sorted_keys (l : List κ) : (keys l).SortedLT := by
  have nodup : (keys l).Nodup := (List.perm_insertionSort _ _).nodup_iff.mpr (List.nodup_dedup l)
  exact (List.sortedLE_insertionSort (l := l.dedup)).sortedLT_of_nodup nodup

variable (axis : List κ) (key : ρ → κ) (value : ρ → α) (blank : α)

/-- What rows say of a key. -/
def sayOf (rows : List ρ) (k : κ) : α := ((rows.find? (key · = k)).map value).getD blank

/-- The first place from `i` on that a key does not come after. -/
def placeFrom (k : κ) (i : ℕ) : ℕ := i + ((axis.drop i).takeWhile (· < k)).length

/-- The place after a row. -/
def placeAfter (r : ρ) (i : ℕ) : ℕ :=
  let j := placeFrom axis (key r) i
  if axis[j]? = some (key r) then j + 1 else j

/-- The entries with a row's, and with a blank for each place that is passed over. -/
def addRow (r : ρ) (i : ℕ) (entries : List α) : List α :=
  let j := placeFrom axis (key r) i
  let entries := entries ++ List.replicate (j - i) blank
  if axis[j]? = some (key r) then entries ++ [value r] else entries

/-- Rows that lie before a place of the axis. -/
structure Before (rows : List ρ) (i : ℕ) : Prop where
  le : i ≤ axis.length
  reached : ∀ k ∈ axis.take i, ∃ r ∈ rows, k ≤ key r
  passed : ∀ r ∈ rows, ∀ k ∈ axis.drop i, key r < k

variable {axis key value blank} {rows : List ρ} {r : ρ} {i : ℕ}

theorem placeAfter_of_meets (meets : axis[placeFrom axis (key r) i]? = some (key r)) :
    placeAfter axis key r i = placeFrom axis (key r) i + 1 := if_pos meets

theorem placeAfter_of_misses (misses : axis[placeFrom axis (key r) i]? ≠ some (key r)) :
    placeAfter axis key r i = placeFrom axis (key r) i := if_neg misses

theorem addRow_of_meets (meets : axis[placeFrom axis (key r) i]? = some (key r))
    (entries : List α) : addRow axis key value blank r i entries =
      entries ++ List.replicate (placeFrom axis (key r) i - i) blank ++ [value r] := if_pos meets

theorem addRow_of_misses (misses : axis[placeFrom axis (key r) i]? ≠ some (key r))
    (entries : List α) : addRow axis key value blank r i entries =
      entries ++ List.replicate (placeFrom axis (key r) i - i) blank := if_neg misses

theorem before_nil : Before axis key [] 0 :=
  ⟨Nat.zero_le _, by simp, by simp⟩

theorem sayOf_of_ne {k : κ} (none_ : ∀ r ∈ rows, key r ≠ k) :
    sayOf key value blank rows k = blank := by
  have missed : rows.find? (key · = k) = none := by
    rw [List.find?_eq_none]
    intro r inside
    simpa using none_ r inside
  rw [sayOf, missed]
  rfl

theorem sayOf_append_of_ne {k : κ} {more : List ρ} (apart : ∀ r ∈ more, key r ≠ k) :
    sayOf key value blank (rows ++ more) k = sayOf key value blank rows k := by
  have missed : more.find? (key · = k) = none := by
    rw [List.find?_eq_none]
    intro r inside
    simpa using apart r inside
  rw [sayOf, sayOf, List.find?_append, missed, Option.or_none]

theorem sayOf_append_self (new : ∀ q ∈ rows, key q < key r) :
    sayOf key value blank (rows ++ [r]) (key r) = value r := by
  have missed : rows.find? (key · = key r) = none := by
    rw [List.find?_eq_none]
    intro q inside
    simpa using (new q inside).ne
  rw [sayOf, List.find?_append, missed]
  simp

theorem placeFrom_le (k : κ) (inside : i ≤ axis.length) : placeFrom axis k i ≤ axis.length := by
  have whole := (List.takeWhile_prefix (p := (· < k)) (l := axis.drop i)).length_le
  rw [List.length_drop] at whole
  rw [placeFrom]
  omega

theorem between_eq (k : κ) (i : ℕ) :
    (axis.drop i).take (placeFrom axis k i - i) = (axis.drop i).takeWhile (· < k) := by
  rw [placeFrom, Nat.add_sub_cancel_left]
  exact (List.prefix_iff_eq_take.mp (List.takeWhile_prefix _)).symm

theorem take_placeFrom (k : κ) (i : ℕ) :
    axis.take (placeFrom axis k i) = axis.take i ++ (axis.drop i).takeWhile (· < k) := by
  have split : placeFrom axis k i = i + (placeFrom axis k i - i) := by
    rw [placeFrom]
    omega
  rw [← between_eq, split, List.take_add, Nat.add_sub_cancel_left]

theorem drop_placeFrom (k : κ) (i : ℕ) :
    axis.drop (placeFrom axis k i) = (axis.drop i).dropWhile (· < k) := by
  rw [placeFrom, ← List.drop_drop]
  conv => lhs; rw [← List.takeWhile_append_dropWhile (p := (· < k)) (l := axis.drop i)]
  rw [List.drop_left' (by rw [List.takeWhile_append_dropWhile])]

theorem lt_of_skipped {k k' : κ} (skipped : k ∈ (axis.drop i).takeWhile (· < k')) : k < k' := by
  simpa using List.mem_takeWhile_imp skipped

/-- What the rows so far say of the keys before a place. -/
def column (axis : List κ) (key : ρ → κ) (value : ρ → α) (blank : α) (rows : List ρ) (i : ℕ) :
    List α :=
  (axis.take i).map (sayOf key value blank rows)

theorem drop_of_meets (sorted : axis.SortedLT) {k : κ} {j : ℕ} (meets : axis[j]? = some k) :
    axis.drop j = k :: axis.drop (j + 1) ∧ ∀ k' ∈ axis.drop (j + 1), k < k' := by
  obtain ⟨inside, rfl⟩ := List.getElem?_eq_some_iff.mp meets
  have split := List.drop_eq_getElem_cons inside
  refine ⟨split, ?_⟩
  have rest : (axis.drop j).Pairwise (· < ·) := sorted.pairwise.sublist (List.drop_sublist j axis)
  rw [split] at rest
  exact (List.pairwise_cons.mp rest).1

theorem lt_of_misses (sorted : axis.SortedLT) {k : κ}
    (misses : axis[placeFrom axis k i]? ≠ some k) :
    ∀ k' ∈ axis.drop (placeFrom axis k i), k < k' := by
  have rest : (axis.drop (placeFrom axis k i)).Pairwise (· < ·) :=
    sorted.pairwise.sublist (List.drop_sublist _ axis)
  have stops : axis.drop (placeFrom axis k i) = (axis.drop i).dropWhile (· < k) :=
    drop_placeFrom k i
  cases here : axis.drop (placeFrom axis k i) with
  | nil => exact List.forall_mem_nil _
  | cons first later =>
      have at_ : axis[placeFrom axis k i]? = some first := by
        rw [← List.head?_drop, here]
        rfl
      have notBelow : ¬first < k := by
        have head := List.head?_dropWhile_not (· < k) (axis.drop i)
        rw [← stops, here] at head
        simpa using head
      have beyond : k < first := by
        apply lt_of_le_of_ne (not_lt.mp notBelow)
        rintro rfl
        exact misses at_
      rw [here] at rest
      intro k' inside
      rcases List.mem_cons.mp inside with rfl | inside
      · exact beyond
      · exact beyond.trans ((List.pairwise_cons.mp rest).1 k' inside)

theorem Before.next (before : Before axis key rows i) (sorted : axis.SortedLT)
    (new : ∀ q ∈ rows, key q < key r) :
    Before axis key (rows ++ [r]) (placeAfter axis key r i) := by
  have passed (q : ρ) (inside : q ∈ rows ++ [r]) (k : κ) (late : key r < k) : key q < k := by
    rcases List.mem_append.mp inside with inside | inside
    · exact (new q inside).trans late
    · rwa [List.mem_singleton.mp inside]
  have reached (k : κ) (early : k ∈ axis.take (placeFrom axis (key r) i)) :
      ∃ q ∈ rows ++ [r], k ≤ key q := by
    rw [take_placeFrom] at early
    rcases List.mem_append.mp early with early | skipped
    · obtain ⟨q, inside, le⟩ := before.reached k early
      exact ⟨q, List.mem_append_left _ inside, le⟩
    · exact ⟨r, List.mem_append_right _ List.mem_cons_self,
        (lt_of_skipped skipped).le⟩
  rw [placeAfter]
  split_ifs with meets
  · obtain ⟨split, later⟩ := drop_of_meets sorted meets
    have inside := (List.getElem?_eq_some_iff.mp meets).1
    refine ⟨inside, ?_, fun q member k late => passed q member k (later k late)⟩
    intro k early
    rw [List.take_add_one, meets] at early
    rcases List.mem_append.mp early with early | here
    · exact reached k early
    · rw [List.mem_singleton.mp here]
      exact ⟨r, List.mem_append_right _ List.mem_cons_self, le_rfl⟩
  · exact ⟨placeFrom_le _ before.le, reached, fun q member k late =>
      passed q member k (lt_of_misses sorted meets k late)⟩

theorem column_next (before : Before axis key rows i)
    (new : ∀ q ∈ rows, key q < key r) :
    addRow axis key value blank r i (column axis key value blank rows i) =
      column axis key value blank (rows ++ [r]) (placeAfter axis key r i) := by
  have same : column axis key value blank rows i =
      (axis.take i).map (sayOf key value blank (rows ++ [r])) := by
    apply List.map_congr_left
    intro k early
    obtain ⟨q, inside, le⟩ := before.reached k early
    refine (sayOf_append_of_ne ?_).symm
    intro r' last
    rw [List.mem_singleton.mp last]
    exact (le.trans_lt (new q inside)).ne'
  have skipped : List.replicate (placeFrom axis (key r) i - i) blank =
      ((axis.drop i).takeWhile (· < key r)).map (sayOf key value blank (rows ++ [r])) := by
    symm
    rw [List.eq_replicate_iff]
    constructor
    · rw [List.length_map, placeFrom, Nat.add_sub_cancel_left]
    · intro e inside
      obtain ⟨k, skipped, rfl⟩ := List.mem_map.mp inside
      apply sayOf_of_ne
      intro q member
      have ahead : k ∈ axis.drop i := (List.takeWhile_sublist _).subset skipped
      rcases List.mem_append.mp member with member | last
      · exact (before.passed q member k ahead).ne
      · rw [List.mem_singleton.mp last]
        exact (lt_of_skipped skipped).ne'
  have padded : column axis key value blank rows i ++
      List.replicate (placeFrom axis (key r) i - i) blank =
        (axis.take (placeFrom axis (key r) i)).map (sayOf key value blank (rows ++ [r])) := by
    rw [same, skipped, take_placeFrom, List.map_append]
  simp only [addRow, placeAfter, padded]
  split_ifs with meets
  · rw [column, List.take_add_one, meets, List.map_append]
    simp only [Option.toList_some, List.map_cons, List.map_nil, sayOf_append_self new]
  · rfl

theorem column_full (before : Before axis key rows i) :
    column axis key value blank rows i ++ List.replicate (axis.length - i) blank =
      axis.map (sayOf key value blank rows) := by
  have rest : List.replicate (axis.length - i) blank =
      (axis.drop i).map (sayOf key value blank rows) := by
    symm
    rw [List.eq_replicate_iff]
    constructor
    · rw [List.length_map, List.length_drop]
    · intro e inside
      obtain ⟨k, ahead, rfl⟩ := List.mem_map.mp inside
      exact sayOf_of_ne fun q member => (before.passed q member k ahead).ne
  rw [column, rest, ← List.map_append, List.take_append_drop]

end Ranking

/-!
# Rows onto an axis by counting

Rows of several groups come in the order of their keys, and the place of a row in its group's
column is not looked up on an axis: it is counted, by the distinct keys among all the rows so
far. Such columns agree with an axis of keys only where the rows are regular.
-/

namespace Ranking

universe u v w

variable {κ : Type u} {ρ : Type v} {γ : Type w} [LinearOrder κ]

/-- A row is put at its place behind blanks, or at the next place where its own is taken. -/
def put (place : ρ → ℤ) (column : List (Option ρ)) (r : ρ) : List (Option ρ) :=
  column ++ List.replicate (place r - column.length).toNat none ++ [some r]

/-- The column of rows. -/
def filled (place : ρ → ℤ) (rows : List ρ) : List (Option ρ) := rows.foldl (put place) []

/-- Every place of a column has the rows of its key on the axis: the row, or a blank where there
is none. -/
def Aligned (axis : List κ) (key : ρ → κ) (rows : List ρ) (column : List (Option ρ)) : Prop :=
  column.map Option.toList = axis.map fun k => rows.filter (key · = k)

/-- How many distinct keys come before a key. -/
def rank (key : ρ → κ) (rows : List ρ) (k : κ) : ℕ := ((rows.map key).toFinset.filter (· < k)).card

variable {place : ρ → ℤ} {axis : List κ} {key : ρ → κ} {rows : List ρ} {r : ρ}

/-! ## What a column has -/

theorem filled_append (rows : List ρ) (r : ρ) :
    filled place (rows ++ [r]) = put place (filled place rows) r := List.foldl_append

theorem reduceOption_filled (rows : List ρ) : (filled place rows).reduceOption = rows := by
  induction rows using List.reverseRecOn with
  | nil => rfl
  | append_singleton rows r ih =>
      rw [filled_append, put, List.reduceOption_append, List.reduceOption_append,
        ih, List.reduceOption_replicate_none, List.append_nil]
      rfl

theorem filled_blank {p : ℕ} (blank : (filled place rows)[p]? = some none) :
    ∃ r ∈ rows, ∃ j : ℕ, place r = j ∧ p < j ∧ (filled place rows)[j]? = some (some r) := by
  induction rows using List.reverseRecOn with
  | nil => cases blank
  | append_singleton rows r ih =>
      rw [filled_append, put] at blank ⊢
      by_cases old : p < (filled place rows).length
      · rw [List.append_assoc, List.getElem?_append_left old] at blank
        obtain ⟨q, inside, j, at_, below, here⟩ := ih blank
        obtain ⟨old, -⟩ := List.getElem?_eq_some_iff.mp here
        refine ⟨q, List.mem_append_left _ inside, j, at_, below, ?_⟩
        rwa [List.append_assoc, List.getElem?_append_left old]
      · generalize (filled place rows) = column at old ⊢ blank
        have skipped : p < (column ++ List.replicate (place r - column.length).toNat none).length := by
          by_contra beyond
          rw [List.getElem?_append_right (not_lt.mp beyond)] at blank
          cases List.mem_singleton.mp (List.mem_of_getElem? blank)
        rw [List.length_append, List.length_replicate] at skipped
        have at_ : (column ++ List.replicate (place r - column.length).toNat none).length =
            (place r).toNat := by
          rw [List.length_append, List.length_replicate]
          omega
        refine ⟨r, List.mem_append_right _ List.mem_cons_self, (place r).toNat, by omega,
          by omega, ?_⟩
        rw [← at_, List.getElem?_concat_length]

theorem getLast?_filled (some_ : rows ≠ []) :
    ∃ r ∈ rows, (filled place rows).getLast? = some (some r) := by
  induction rows using List.reverseRecOn with
  | nil => exact absurd rfl some_
  | append_singleton rows r _ =>
      refine ⟨r, List.mem_append_right _ List.mem_cons_self, ?_⟩
      rw [filled_append, put, List.getLast?_append]
      rfl

/-! ## What an alignment says of the rows -/

theorem Aligned.rows_eq (aligned : Aligned axis key rows (filled place rows)) :
    axis.flatMap (fun k => rows.filter (key · = k)) = rows := by
  have flat : ((filled place rows).map Option.toList).flatten = rows := by
    have entries : (filled place rows).reduceOption = rows := reduceOption_filled rows
    conv => rhs; rw [← entries]
    clear entries
    induction filled place rows with
    | nil => rfl
    | cons e column ih =>
        cases e with
        | none => simpa using ih
        | some r => simpa using ih
  rw [aligned] at flat
  exact flat

theorem Aligned.on_axis (aligned : Aligned axis key rows (filled place rows)) (inside : r ∈ rows) :
    key r ∈ axis := by
  rw [← aligned.rows_eq] at inside
  obtain ⟨k, here, among⟩ := List.mem_flatMap.mp inside
  rw [of_decide_eq_true (List.mem_filter.mp among).2]
  exact here

theorem Aligned.place_iff {column : List (Option ρ)} (aligned : Aligned axis key rows column)
    {p : ℕ} {k : κ} (here : axis[p]? = some k) :
    ∃ e, column[p]? = some e ∧ e.toList = rows.filter (key · = k) := by
  have entry := congrArg (·[p]?) aligned
  simp only [List.getElem?_map, here, Option.map_some] at entry
  exact Option.map_eq_some_iff.mp entry

theorem Aligned.key_eq {column : List (Option ρ)} (aligned : Aligned axis key rows column)
    {p : ℕ} (here : column[p]? = some (some r)) : axis[p]? = some (key r) := by
  have entry := congrArg (·[p]?) aligned
  simp only [List.getElem?_map, here, Option.map_some] at entry
  obtain ⟨k, at_, same⟩ := Option.map_eq_some_iff.mp entry.symm
  have among : r ∈ rows.filter (key · = k) := by
    rw [same]
    exact List.mem_cons_self
  rw [at_, of_decide_eq_true (List.mem_filter.mp among).2]

theorem Aligned.length_le {column : List (Option ρ)} (aligned : Aligned axis key rows column)
    {k : κ} (here : k ∈ axis) : (rows.filter (key · = k)).length ≤ 1 := by
  obtain ⟨p, at_⟩ := List.mem_iff_getElem?.mp here
  obtain ⟨e, -, list⟩ := aligned.place_iff at_
  rw [← list]
  cases e with
  | none => exact Nat.zero_le _
  | some r => exact le_rfl

theorem Aligned.count_eq_one (aligned : Aligned axis key rows (filled place rows))
    (inside : r ∈ rows) : axis.count (key r) = 1 := by
  have own : (rows.filter (key · = key r)).length = 1 := by
    have among : r ∈ rows.filter (key · = key r) := by simpa using inside
    have positive := List.length_pos_of_mem among
    have single := aligned.length_le (aligned.on_axis inside)
    omega
  have split : ∀ axis : List κ,
      ((axis.flatMap fun k => rows.filter (key · = k)).filter (key · = key r)).length =
        axis.count (key r) * (rows.filter (key · = key r)).length := by
    intro axis
    induction axis with
    | nil => simp
    | cons k axis ih =>
        rw [List.flatMap_cons, List.filter_append, List.length_append, ih,
          List.filter_filter, List.count_cons]
        by_cases same : k = key r
        · subst same
          simp only [Bool.and_self, BEq.rfl, if_true, Nat.add_mul, Nat.one_mul, Nat.add_comm]
        · have none_ : rows.filter (fun q => decide (key q = key r) && decide (key q = k)) = [] := by
            rw [List.filter_eq_nil_iff]
            intro q _ both
            simp only [Bool.and_eq_true, decide_eq_true_eq] at both
            exact same (both.2.symm.trans both.1)
          simp [none_, same]
  have whole := split axis
  rw [aligned.rows_eq, own, Nat.mul_one] at whole
  exact whole.symm

/-! ## Counted places -/

section Groups

variable [DecidableEq γ] (axis : List κ) (key : ρ → κ) (group : ρ → γ) (late : ℤ) (rows : List ρ)

/-- The rows of a group. -/
def groupOf (g : γ) : List ρ := rows.filter (group · = g)

/-- The column of a group, by counted places, counting from a start that may be late. -/
def counted (g : γ) : List (Option ρ) :=
  filled (fun r => rank key rows (key r) - late) (groupOf group rows g)

/-- The rows have the axis' keys, each group has one row for a key and one for the last, and if
the counting starts late, each has one for every key. -/
structure Regular : Prop where
  distinct : axis.Nodup
  same : ∀ k, k ∈ axis ↔ ∃ r ∈ rows, key r = k
  single : (rows.map fun r => (group r, key r)).Nodup
  last : ∀ r ∈ rows, ∃ q ∈ rows, group q = group r ∧ ∀ s ∈ rows, key s ≤ key q
  gapless : late = 0 ∨ ∀ r ∈ rows, ∀ s ∈ rows, ∃ q ∈ rows, group q = group r ∧ key q = key s

variable {axis key group late rows}

theorem mem_groupOf {q : ρ} {g : γ} : q ∈ groupOf group rows g ↔ q ∈ rows ∧ group q = g := by
  simp [groupOf]

theorem le_of_place_le (sorted : axis.SortedLE) {i j : ℕ} {a b : κ} (left : axis[i]? = some a)
    (right : axis[j]? = some b) (le : i ≤ j) : a ≤ b := by
  obtain ⟨i_lt, rfl⟩ := List.getElem?_eq_some_iff.mp left
  obtain ⟨j_lt, rfl⟩ := List.getElem?_eq_some_iff.mp right
  exact sorted.getElem_le_getElem_of_le le

omit [LinearOrder κ] in
theorem mem_take_of_place {p j : ℕ} {k : κ} (here : axis[p]? = some k) (below : p < j) :
    k ∈ axis.take j := by
  obtain ⟨inside, rfl⟩ := List.getElem?_eq_some_iff.mp here
  exact List.mem_take_iff_getElem.mpr ⟨p, by omega, rfl⟩

theorem rank_le (sorted : axis.SortedLE) (on : ∀ r ∈ rows, key r ∈ axis) {j : ℕ} {k : κ}
    (here : axis[j]? = some k) :
    (rows.map key).toFinset.filter (· < k) ⊆ (axis.take j).toFinset := by
  intro k' before
  obtain ⟨among, less⟩ := Finset.mem_filter.mp before
  obtain ⟨r, inside, rfl⟩ := List.mem_map.mp (List.mem_toFinset.mp among)
  obtain ⟨i, at_⟩ := List.mem_iff_getElem?.mp (on r inside)
  have early : i < j := by
    by_contra not_early
    exact absurd less (not_lt.mpr (le_of_place_le sorted here at_ (not_lt.mp not_early)))
  exact List.mem_toFinset.mpr (mem_take_of_place at_ early)

theorem of_blank (sorted : axis.SortedLE) (from_ : 0 ≤ late) (on : ∀ r ∈ rows, key r ∈ axis) {g : γ}
    (aligned : Aligned axis key (groupOf group rows g) (counted key group late rows g)) {p : ℕ}
    {k : κ} (here : axis[p]? = some k) (blank : (counted key group late rows g)[p]? = some none) :
    late = 0 ∧ ∃ r ∈ rows, key r = k := by
  obtain ⟨r, -, j, place, below, at_⟩ := filled_blank blank
  have before := rank_le sorted on (aligned.key_eq at_)
  have few : (axis.take j).toFinset.card ≤ j :=
    (List.toFinset_card_le _).trans (List.length_take_le _ _)
  have many := Finset.card_le_card before
  have counts : (rank key rows (key r) : ℤ) = j + late := by
    rw [← place, sub_add_cancel]
  rw [rank] at counts
  have same := Finset.eq_of_subset_of_card_le before (by omega)
  refine ⟨by omega, ?_⟩
  have member := List.mem_toFinset.mpr (mem_take_of_place here below)
  rw [← same] at member
  obtain ⟨q, inside, rfl⟩ := List.mem_map.mp (List.mem_toFinset.mp (Finset.mem_filter.mp member).1)
  exact ⟨q, inside, rfl⟩

theorem regular_of_aligned (sorted : axis.SortedLE) (from_ : 0 ≤ late) (some_ : rows ≠ [])
    (aligned : ∀ r ∈ rows, Aligned axis key (groupOf group rows (group r))
      (counted key group late rows (group r))) :
    Regular axis key group late rows := by
  have own : ∀ r ∈ rows, r ∈ groupOf group rows (group r) := fun r inside =>
    mem_groupOf.mpr ⟨inside, rfl⟩
  have on : ∀ r ∈ rows, key r ∈ axis := fun r inside =>
    (aligned r inside).on_axis (own r inside)
  have covered : ∀ k ∈ axis, ∃ r ∈ rows, key r = k := by
    intro k here
    obtain ⟨r, inside⟩ := List.exists_mem_of_ne_nil _ some_
    obtain ⟨p, at_⟩ := List.mem_iff_getElem?.mp here
    obtain ⟨e, entry, list⟩ := (aligned r inside).place_iff at_
    cases e with
    | none => exact (of_blank sorted from_ on (aligned r inside) at_ entry).2
    | some q =>
        have among : q ∈ (groupOf group rows (group r)).filter (key · = k) := by
          rw [← list]
          exact List.mem_cons_self
        obtain ⟨member, same⟩ := List.mem_filter.mp among
        exact ⟨q, (mem_groupOf.mp member).1, of_decide_eq_true same⟩
  refine ⟨?_, ?_, ?_, ?_, ?_⟩
  · rw [List.nodup_iff_count_le_one]
    intro k
    by_cases here : k ∈ axis
    · obtain ⟨r, inside, rfl⟩ := covered k here
      exact ((aligned r inside).count_eq_one (own r inside)).le
    · rw [List.count_eq_zero_of_not_mem here]
      exact Nat.zero_le _
  · intro k
    constructor
    · exact covered k
    · rintro ⟨r, inside, rfl⟩
      exact on r inside
  · rw [List.nodup_iff_count_le_one]
    rintro ⟨g, k⟩
    by_cases here : (g, k) ∈ rows.map fun r => (group r, key r)
    · obtain ⟨r, inside, pair⟩ := List.mem_map.mp here
      obtain ⟨rfl, rfl⟩ := Prod.mk.inj pair
      have single := (aligned r inside).length_le (on r inside)
      rw [groupOf, List.filter_filter, ← List.countP_eq_length_filter] at single
      rw [List.count, List.countP_map]
      refine le_of_eq_of_le (List.countP_congr ?_) single
      intro q _
      simp only [Function.comp, beq_iff_eq, Prod.mk.injEq, Bool.and_eq_true, decide_eq_true_eq]
      exact and_comm
    · rw [List.count_eq_zero_of_not_mem here]
      exact Nat.zero_le _
  · intro r inside
    have some_ : groupOf group rows (group r) ≠ [] := List.ne_nil_of_mem (own r inside)
    obtain ⟨q, member, last⟩ : ∃ q ∈ groupOf group rows (group r),
        (counted key group late rows (group r)).getLast? = some (some q) := getLast?_filled some_
    obtain ⟨member, same⟩ := mem_groupOf.mp member
    refine ⟨q, member, same, ?_⟩
    intro s inside'
    obtain ⟨p, at_⟩ := List.mem_iff_getElem?.mp (on s inside')
    have length : (counted key group late rows (group r)).length = axis.length := by
      have whole := congrArg List.length (aligned r inside)
      rwa [List.length_map, List.length_map] at whole
    rw [List.getLast?_eq_getElem?] at last
    have end_ := (aligned r inside).key_eq last
    have p_lt := (List.getElem?_eq_some_iff.mp at_).1
    apply le_of_place_le sorted at_ end_
    omega
  · by_cases start : late = 0
    · exact Or.inl start
    · refine Or.inr fun r inside s inside' => ?_
      obtain ⟨p, at_⟩ := List.mem_iff_getElem?.mp (on s inside')
      obtain ⟨e, entry, list⟩ := (aligned r inside).place_iff at_
      cases e with
      | none => exact absurd (of_blank sorted from_ on (aligned r inside) at_ entry).1 start
      | some q =>
          have among : q ∈ (groupOf group rows (group r)).filter (key · = key s) := by
            rw [← list]
            exact List.mem_cons_self
          obtain ⟨member, same⟩ := List.mem_filter.mp among
          obtain ⟨member, ours⟩ := mem_groupOf.mp member
          exact ⟨q, member, ours, of_decide_eq_true same⟩

/-! ## Regular rows are aligned -/

theorem takeWhile_eq_filter (sorted : axis.SortedLT) (k : κ) :
    axis.takeWhile (· < k) = axis.filter (· < k) := by
  have ascending := sorted.pairwise
  clear sorted
  induction axis with
  | nil => rfl
  | cons a axis ih =>
      obtain ⟨later, ascending⟩ := List.pairwise_cons.mp ascending
      by_cases less : a < k
      · rw [List.takeWhile_cons_of_pos (by simpa using less),
          List.filter_cons_of_pos (by simpa using less), ih ascending]
      · rw [List.takeWhile_cons_of_neg (by simpa using less),
          List.filter_cons_of_neg (by simpa using less), eq_comm, List.filter_eq_nil_iff]
        intro b inside
        simpa using (not_lt.mp less).trans (later b inside).le

theorem placeFrom_eq {i : ℕ} {k : κ} (le : i ≤ axis.length) (below : ∀ k' ∈ axis.take i, k' < k) :
    placeFrom axis k i = placeFrom axis k 0 := by
  have whole : axis.takeWhile (· < k) = axis.take i ++ (axis.drop i).takeWhile (· < k) := by
    conv => lhs; rw [← List.take_append_drop i axis]
    exact List.takeWhile_append_of_pos fun k' inside => decide_eq_true (below k' inside)
  rw [placeFrom, placeFrom, List.drop_zero, whole, List.length_append, List.length_take,
    min_eq_left le, Nat.zero_add]

omit [DecidableEq γ] in
theorem Regular.rank_eq (regular : Regular axis key group late rows) (sorted : axis.SortedLT)
    (k : κ) : rank key rows k = placeFrom axis k 0 := by
  have keys_ : (rows.map key).toFinset = axis.toFinset := by
    ext k'
    rw [List.mem_toFinset, List.mem_toFinset, regular.same, List.mem_map]
  have early : axis.toFinset.filter (· < k) = (axis.filter (· < k)).toFinset := by
    ext k'
    simp
  rw [rank, keys_, early, List.toFinset_card_of_nodup (regular.distinct.filter _), placeFrom,
    List.drop_zero, Nat.zero_add, takeWhile_eq_filter sorted]

theorem Regular.ascending (regular : Regular axis key group late rows)
    (ordered : rows.Pairwise (key · ≤ key ·)) (g : γ) :
    (groupOf group rows g).Pairwise (key · < key ·) := by
  have apart : rows.Pairwise fun q r => (group q, key q) ≠ (group r, key r) :=
    List.pairwise_map.mp regular.single
  apply ((ordered.and apart).filter (group · = g)).imp_of_mem
  rintro q r inQ inR ⟨le, ne⟩
  apply le.lt_of_ne
  intro same
  exact ne (Prod.ext ((mem_groupOf.mp inQ).2.trans (mem_groupOf.mp inR).2.symm) same)

variable {past rest : List ρ} {i : ℕ}

theorem meets_of_on_axis (sorted : axis.SortedLT) (before : Before axis key past i)
    (new : ∀ q ∈ past, key q < key r) (on : key r ∈ axis) :
    (∀ k ∈ axis.take i, k < key r) ∧ axis[placeFrom axis (key r) i]? = some (key r) := by
  have below : ∀ k ∈ axis.take i, k < key r := by
    intro k early
    obtain ⟨q, inside, le⟩ := before.reached k early
    exact le.trans_lt (new q inside)
  refine ⟨below, ?_⟩
  by_contra misses
  have beyond := lt_of_misses sorted misses
  rw [← List.take_append_drop (placeFrom axis (key r) i) axis, take_placeFrom] at on
  rcases List.mem_append.mp on with passed | ahead
  · rcases List.mem_append.mp passed with early | skipped
    · exact lt_irrefl _ (below _ early)
    · exact lt_irrefl _ (lt_of_skipped skipped)
  · exact lt_irrefl _ (beyond _ ahead)

theorem Regular.put_eq (regular : Regular axis key group late rows) (sorted : axis.SortedLT)
    (from_ : 0 ≤ late) {g : γ} (whole : past ++ r :: rest = groupOf group rows g)
    (ascending : (past ++ r :: rest).Pairwise (key · < key ·)) (before : Before axis key past i) :
    put (fun r => rank key rows (key r) - late) (column axis key some none past i) r =
      addRow axis key some none r i (column axis key some none past i) := by
  have new : ∀ q ∈ past, key q < key r := fun q inside =>
    (List.pairwise_append.mp ascending).2.2 q inside r List.mem_cons_self
  have inside : r ∈ groupOf group rows g := by
    rw [← whole]
    exact List.mem_append_right _ List.mem_cons_self
  obtain ⟨among, ours⟩ := mem_groupOf.mp inside
  obtain ⟨below, meets⟩ := meets_of_on_axis sorted before new
    ((regular.same _).mpr ⟨r, among, rfl⟩)
  have length : (column axis key some none past i).length = i := by
    rw [column, List.length_map, List.length_take, min_eq_left before.le]
  have counts : (rank key rows (key r) : ℤ) = placeFrom axis (key r) i := by
    rw [regular.rank_eq sorted, placeFrom_eq before.le below]
  have pads : ((rank key rows (key r) : ℤ) - late - i).toNat = placeFrom axis (key r) i - i := by
    rcases regular.gapless with right | gapless
    · rw [counts, right]
      omega
    · -- the group has a row for every key, so nothing is passed over on the way to this one
      have here : placeFrom axis (key r) i = i := by
        rw [placeFrom, Nat.add_eq_left, List.length_eq_zero_iff]
        cases ahead : axis.drop i with
        | nil => rfl
        | cons k later =>
            apply List.takeWhile_cons_of_neg
            rw [decide_eq_true_eq]
            intro less
            have on : k ∈ axis.drop i := by
              rw [ahead]
              exact List.mem_cons_self
            obtain ⟨s, member, rfl⟩ := (regular.same k).mp ((List.drop_sublist i axis).subset on)
            obtain ⟨q, inside, group_, same⟩ := gapless r among s member
            have early : q ∈ past ++ r :: rest := by
              rw [whole]
              exact mem_groupOf.mpr ⟨inside, group_.trans ours⟩
            rcases List.mem_append.mp early with earlier | further
            · exact (before.passed q earlier _ on).ne same
            · have later_ := (List.pairwise_cons.mp (List.pairwise_append.mp ascending).2.1).1
              rcases List.mem_cons.mp further with rfl | further
              · exact less.ne same.symm
              · exact absurd (later_ q further) (not_lt.mpr (same ▸ less).le)
      rw [counts, here]
      omega
  rw [addRow_of_meets meets, put, length, pads]

theorem Regular.filled_eq (regular : Regular axis key group late rows) (sorted : axis.SortedLT)
    (from_ : 0 ≤ late) {g : γ} (whole : past ++ rest = groupOf group rows g)
    (ascending : (past ++ rest).Pairwise (key · < key ·)) :
    ∃ i, Before axis key past i ∧
      filled (fun r => rank key rows (key r) - late) past = column axis key some none past i := by
  induction past using List.reverseRecOn generalizing rest with
  | nil => exact ⟨0, before_nil, rfl⟩
  | append_singleton past r ih =>
      rw [List.append_assoc, List.singleton_append] at whole ascending
      obtain ⟨i, before, same⟩ := ih whole ascending
      have new : ∀ q ∈ past, key q < key r := fun q inside =>
        (List.pairwise_append.mp ascending).2.2 q inside r List.mem_cons_self
      refine ⟨placeAfter axis key r i, before.next sorted new, ?_⟩
      rw [filled_append, same, regular.put_eq sorted from_ whole ascending before,
        column_next before new]

theorem toList_sayOf (ascending : rows.Pairwise (key · < key ·)) (k : κ) :
    (sayOf key some none rows k).toList = rows.filter (key · = k) := by
  have found : sayOf key some none rows k = rows.find? (key · = k) := by
    rw [sayOf]
    cases rows.find? (key · = k) <;> rfl
  rw [found]
  clear found
  induction rows with
  | nil => rfl
  | cons r rows ih =>
      obtain ⟨later, ascending⟩ := List.pairwise_cons.mp ascending
      by_cases same : key r = k
      · rw [List.find?_cons_of_pos (by simpa using same),
          List.filter_cons_of_pos (by simpa using same), eq_comm]
        apply congrArg (r :: ·)
        rw [List.filter_eq_nil_iff]
        intro q inside
        simpa [← same] using (later q inside).ne'
      · rw [List.find?_cons_of_neg (by simpa using same),
          List.filter_cons_of_neg (by simpa using same), ih ascending]

theorem Regular.aligned (regular : Regular axis key group late rows) (sorted : axis.SortedLE)
    (from_ : 0 ≤ late) (ordered : rows.Pairwise (key · ≤ key ·)) (inside : r ∈ rows) :
    Aligned axis key (groupOf group rows (group r)) (counted key group late rows (group r)) := by
  have strict : axis.SortedLT := sorted.sortedLT_of_nodup regular.distinct
  have ascending := regular.ascending ordered (group r)
  obtain ⟨i, before, same⟩ := regular.filled_eq strict from_
    (List.append_nil (groupOf group rows (group r))) (by rwa [List.append_nil])
  have full : i = axis.length := by
    apply le_antisymm before.le
    by_contra short
    have on := List.getElem_mem (l := axis.drop i) (n := 0) (by simp; omega)
    obtain ⟨s, member, key_⟩ := (regular.same _).mp ((List.drop_sublist i axis).subset on)
    obtain ⟨q, inside', group_, last⟩ := regular.last r inside
    have passed := before.passed q (mem_groupOf.mpr ⟨inside', group_⟩) _ on
    rw [← key_] at passed
    exact absurd passed (not_lt.mpr (last s member))
  rw [Aligned, counted, same, full, column, List.take_length, List.map_map]
  apply List.map_congr_left
  intro k _
  exact toList_sayOf ascending k

/-! ## The order does not matter to what is regular -/

omit [DecidableEq γ] in
theorem Regular.perm {axis' : List κ} {rows' : List ρ} (sameAxis : axis.Perm axis')
    (sameRows : rows.Perm rows') (regular : Regular axis key group late rows) :
    Regular axis' key group late rows' := by
  refine ⟨sameAxis.nodup_iff.mp regular.distinct, ?_,
    (sameRows.map _).nodup_iff.mp regular.single, ?_, regular.gapless.imp_right ?_⟩
  · intro k
    simpa only [← sameAxis.mem_iff, ← sameRows.mem_iff] using regular.same k
  · simpa only [← sameRows.mem_iff] using regular.last
  · simp only [← sameRows.mem_iff]
    exact id

end Groups

/-! ## The count as the rows come -/

theorem rank_first (least : ∀ q ∈ rows, key r ≤ key q) : rank key rows (key r) = 0 := by
  rw [rank, Finset.card_eq_zero, Finset.filter_eq_empty_iff]
  intro k among
  obtain ⟨q, inside, rfl⟩ := List.mem_map.mp (List.mem_toFinset.mp among)
  exact not_lt.mpr (least q inside)

theorem rank_next {q : ρ} (inside : q ∈ rows) (less : key q < key r)
    (between : ∀ s ∈ rows, key s < key r → key s ≤ key q) :
    rank key rows (key r) = rank key rows (key q) + 1 := by
  have added : (rows.map key).toFinset.filter (· < key r) =
      insert (key q) ((rows.map key).toFinset.filter (· < key q)) := by
    ext k
    simp only [Finset.mem_filter, Finset.mem_insert, List.mem_toFinset, List.mem_map]
    constructor
    · rintro ⟨⟨s, member, rfl⟩, before⟩
      rcases (between s member before).eq_or_lt with same | earlier
      · exact Or.inl same
      · exact Or.inr ⟨⟨s, member, rfl⟩, earlier⟩
    · rintro (rfl | ⟨among, before⟩)
      · exact ⟨⟨q, inside, rfl⟩, less⟩
      · exact ⟨among, before.trans less⟩
  rw [rank, added, Finset.card_insert_of_notMem (by simp), rank]

end Ranking
