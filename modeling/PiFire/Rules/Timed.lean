import PiFire.Rules.Watch
import PiFire.Rules.Tree
import Mathlib.Data.List.Perm.Subperm

/-!
# Timed conditions

A condition that asks to have been true for a time says so exactly when it was true at
every look of a stretch that long, whatever is beside it in its tree. This needs a clock
for each of the timed conditions: at most as many as the table has places, at paths that
differ.
-/

namespace PiFire.Rules

open Transition

/-! ## What a condition means -/

/-- The looks at a tree so far, the last one first. -/
abbrev History := List EvalCtx

/-- Something was true at every look of a stretch that ends now and is long enough. -/
def HeldFor (need : ℚ) (inner : History → Prop) (looks : History) : Prop :=
  ∃ n, ∃ last ∈ looks.head?, ∃ first ∈ looks[n]?,
    need ≤ last.now - first.now ∧ ∀ m ≤ n, inner (looks.drop m)

/-- What a comparison says at the last look. -/
def leafNow (node : Json) (looks : History) : Prop :=
  ∃ cx ∈ looks.head?, evalComparison cx node = true

/-- What a group says at the last look. -/
def groupNow (node : Json) (kids : List (History → Prop)) (looks : History) : Prop :=
  let gop := jsonStr node ["op"] "all"
  kids ≠ [] ∧
    if strcasecmp gop "any" then ∃ kid ∈ kids, kid looks
    else if strcasecmp gop "not" then ¬∀ kid ∈ kids, kid looks
    else ∀ kid ∈ kids, kid looks

/-- What a node says, from what it says at each look. -/
def timed (node : Json) (inner : History → Prop) (looks : History) : Prop :=
  if 0 < needOf node then HeldFor (needOf node) inner looks else inner looks

/-- What a condition says after some looks. -/
def Says : Json → History → Prop :=
  foldTree (fun node => timed node (leafNow node)) fun node kids => timed node (groupNow node kids)

/-- What a condition says at the last look, its own time left aside. -/
def Now (node : Json) : History → Prop :=
  match kidsOf node with
  | none => leafNow node
  | some items => groupNow node (items.map Says)

theorem says_eq (node : Json) : Says node = timed node (Now node) := by
  cases inside : kidsOf node with
  | none => rw [Says, foldTree_leaf _ _ inside, Now, inside]
  | some items =>
      rw [Says, foldTree_group _ _ inside, Now, inside]
      rfl

/-! ## Since when -/

section Since

open Classical in
/-- Since when something has been true at every look; zero where it is not. -/
noncomputable def since (inner : History → Prop) : History → ℚ
  | [] => 0
  | cx :: earlier => setClock cx.now (decide (inner (cx :: earlier))) (since inner earlier)

/-- The looks are at times that do not go back. -/
def Timely (looks : History) : Prop :=
  (∀ cx ∈ looks, 0 < cx.now) ∧ looks.Pairwise fun later earlier => earlier.now ≤ later.now

variable {inner : History → Prop} {looks : History}

theorem since_of_not (stopped : ¬inner looks) : since inner looks = 0 := by
  cases looks with
  | nil => rfl
  | cons cx earlier => simp [since, setClock, stopped]

theorem since_spec (timely : Timely looks) (some_ : looks ≠ []) (now : inner looks) :
    (∃ n, ∃ first ∈ looks[n]?, since inner looks = first.now ∧
      ∀ m ≤ n, inner (looks.drop m)) ∧
    ∀ n, ∀ first ∈ looks[n]?, (∀ m ≤ n, inner (looks.drop m)) → since inner looks ≤ first.now := by
  induction looks with
  | nil => exact absurd rfl some_
  | cons cx earlier ih =>
      have before : Timely earlier :=
        ⟨fun cx inside => timely.1 cx (List.mem_cons_of_mem _ inside), timely.2.of_cons⟩
      have said : since inner (cx :: earlier) =
          if since inner earlier = 0 then cx.now else since inner earlier := by
        simp [since, setClock, now]
      by_cases again : earlier ≠ [] ∧ inner earlier
      · obtain ⟨⟨n, first, here, start, all⟩, least⟩ :=
          ih before again.1 again.2
        have running : since inner earlier ≠ 0 := by
          rw [start]
          exact (before.1 first (List.mem_of_getElem? here)).ne'
        rw [said, if_neg running]
        refine ⟨⟨n + 1, first, here, start, ?_⟩, ?_⟩
        · rintro (_ | m) within
          · exact now
          · exact all m (Nat.le_of_succ_le_succ within)
        · rintro (_ | n) last there all
          · cases there
            rw [start]
            exact List.rel_of_pairwise_cons timely.2 (List.mem_of_getElem? here)
          · exact least n last there fun m within => all (m + 1) (Nat.succ_le_succ within)
      · have fresh : since inner earlier = 0 := by
          cases earlier with
          | nil => rfl
          | cons _ _ => exact since_of_not fun still => again ⟨by simp, still⟩
        rw [said, if_pos fresh]
        refine ⟨⟨0, cx, rfl, rfl, ?_⟩, ?_⟩
        · rintro m within
          rw [Nat.le_zero.mp within]
          exact now
        · rintro (_ | n) first here all
          · cases here
            exact le_rfl
          · refine absurd ⟨?_, all 1 (Nat.succ_le_succ (Nat.zero_le n))⟩ again
            rintro rfl
            cases here

theorem heldFor_iff {need : ℚ} {cx : EvalCtx} {earlier : History}
    (timely : Timely (cx :: earlier)) :
    HeldFor need inner (cx :: earlier) ↔
      inner (cx :: earlier) ∧ need ≤ cx.now - since inner (cx :: earlier) := by
  constructor
  · rintro ⟨n, last, there, first, here, long, all⟩
    cases there
    have now : inner (cx :: earlier) := all 0 (Nat.zero_le n)
    have begun := (since_spec timely (List.cons_ne_nil _ _) now).2 n first here all
    exact ⟨now, long.trans (sub_le_sub_left begun cx.now)⟩
  · rintro ⟨now, long⟩
    obtain ⟨n, first, here, start, all⟩ := (since_spec timely (List.cons_ne_nil _ _) now).1
    exact ⟨n, cx, rfl, first, here, start ▸ long, all⟩

end Since

/-! ## The table of clocks -/

/-- What the clock of a path shows; one that is not in the table shows nothing. -/
def clockAt (timers : List NodeTimer) (path : UInt32) : ℚ :=
  ((timers.find? (·.path = path)).map NodeTimer.since).getD 0

/-- A table in use for some paths: each has at most one place, and a spare place shows
nothing. -/
structure Tidy (paths : List UInt32) (timers : List NodeTimer) : Prop where
  size : timers.length = nodeTimers
  own : ∀ timer ∈ timers, timer.path ≠ 0 → timer.path ∈ paths
  apart : timers.Pairwise fun a b => a.path = b.path → a.path = 0
  spare : ∀ timer ∈ timers, timer.path = 0 → timer.since = 0

theorem find?_set_other {α : Type*} {p : α → Bool} {l : List α} {i : ℕ} {a : α}
    (old : ∀ b ∈ l[i]?, p b = false) (new : p a = false) : (l.set i a).find? p = l.find? p := by
  induction l generalizing i with
  | nil => rfl
  | cons first rest ih =>
      cases i with
      | zero =>
          have here : p first = false := old first rfl
          rw [List.set_cons_zero, List.find?_cons, List.find?_cons, new, here]
      | succ i =>
          rw [List.set_cons_succ, List.find?_cons, List.find?_cons, ih old]

theorem find?_set_self {α : Type*} {p : α → Bool} {l : List α} {i : ℕ} {a : α}
    (inside : i < l.length) (before : ∀ j < i, ∀ b ∈ l[j]?, p b = false) (new : p a = true) :
    (l.set i a).find? p = some a := by
  induction l generalizing i with
  | nil => cases inside
  | cons first rest ih =>
      cases i with
      | zero => rw [List.set_cons_zero, List.find?_cons, new]
      | succ i =>
          have here : p first = false := before 0 (Nat.succ_pos i) first rfl
          rw [List.set_cons_succ, List.find?_cons, here]
          exact ih (Nat.lt_of_succ_lt_succ inside) fun j within b there =>
            before (j + 1) (Nat.succ_lt_succ within) b there

theorem Tidy.unique {paths : List UInt32} {timers : List NodeTimer} (tidy : Tidy paths timers)
    {i j : ℕ} {a b : NodeTimer} (left : timers[i]? = some a) (right : timers[j]? = some b)
    (different : i ≠ j) (same : a.path = b.path) : a.path = 0 := by
  have pairs := List.pairwise_iff_getElem.mp tidy.apart
  obtain ⟨inside, rfl⟩ := List.getElem?_eq_some_iff.mp left
  obtain ⟨within, rfl⟩ := List.getElem?_eq_some_iff.mp right
  rcases Nat.lt_or_gt_of_ne different with less | more
  · exact pairs i j inside within less same
  · rw [same]
    exact pairs j i within inside more same.symm

section Table

variable {paths : List UInt32} {timers : List NodeTimer} {path : UInt32}

theorem exists_spare (tidy : Tidy paths timers) (room : paths.length ≤ nodeTimers)
    (among : path ∈ paths) (absent : ∀ timer ∈ timers, timer.path ≠ path) :
    ∃ timer ∈ timers, timer.path = 0 := by
  by_contra full
  push Not at full
  have different : (timers.map NodeTimer.path).Nodup := by
    rw [List.Nodup, List.pairwise_map]
    refine tidy.apart.imp_of_mem fun inside _ apart same => ?_
    exact full _ inside (apart same)
  have more : (path :: timers.map NodeTimer.path).Nodup := by
    refine List.nodup_cons.mpr ⟨?_, different⟩
    rw [List.mem_map]
    rintro ⟨timer, inside, same⟩
    exact absent timer inside same
  have inside : path :: timers.map NodeTimer.path ⊆ paths := by
    rw [List.cons_subset]
    refine ⟨among, ?_⟩
    rintro p there
    obtain ⟨timer, inside, rfl⟩ := List.mem_map.mp there
    exact tidy.own timer inside (full timer inside)
  have count := (List.subperm_of_subset more inside).length_le
  rw [List.length_cons, List.length_map, tidy.size] at count
  omega

theorem findTimer_tidy (tidy : Tidy paths timers) (room : paths.length ≤ nodeTimers)
    (among : path ∈ paths) (nonzero : path ≠ 0) :
    ∃ i timer, findTimer timers path = some i ∧ timers[i]? = some timer ∧
      timer.since = clockAt timers path ∧ (timer.path = path ∨ timer.path = 0) ∧
      ∀ j ≠ i, ∀ other ∈ timers[j]?, other.path ≠ path := by
  rw [findTimer]
  cases own : timers.findIdx? (·.path = path) with
  | some i =>
      obtain ⟨inside, found, before⟩ := List.findIdx?_eq_some_iff_getElem.mp own
      have here : timers[i].path = path := by simpa using found
      have first : timers.find? (·.path = path) = some timers[i] :=
        List.find?_eq_some_iff_getElem.mpr ⟨found, i, inside, rfl, fun j within => by
          simpa using before j within⟩
      refine ⟨i, timers[i], rfl, List.getElem?_eq_getElem inside, ?_, Or.inl here, ?_⟩
      · rw [clockAt, first]
        rfl
      · intro j other timer there same
        apply nonzero
        rw [← same]
        exact tidy.unique there (List.getElem?_eq_getElem inside) other (same.trans here.symm)
  | none =>
      have absent : ∀ timer ∈ timers, timer.path ≠ path := by
        simpa using List.findIdx?_eq_none_iff.mp own
      obtain ⟨spare, inside, zero⟩ := exists_spare tidy room among absent
      have some_ : (timers.findIdx? (·.path = 0)).isSome = true := by
        rw [List.findIdx?_isSome, List.any_eq_true]
        exact ⟨spare, inside, by simpa using zero⟩
      obtain ⟨i, free⟩ := Option.isSome_iff_exists.mp some_
      obtain ⟨within, found, -⟩ := List.findIdx?_eq_some_iff_getElem.mp free
      have here : timers[i].path = 0 := by simpa using found
      have none_ : timers.find? (·.path = path) = none :=
        List.find?_eq_none.mpr fun timer inside => by simpa using absent timer inside
      refine ⟨i, timers[i], free, List.getElem?_eq_getElem within, ?_, Or.inr here, ?_⟩
      · rw [clockAt, none_, tidy.spare _ (List.getElem_mem within) here]
        rfl
      · intro j other timer there
        exact absent timer (List.mem_of_getElem? there)

theorem heldLongEnough_tidy (now : ℚ) {node : Json} (nowTrue : Bool) (tidy : Tidy paths timers)
    (room : paths.length ≤ nodeTimers) (among : path ∈ paths) (nonzero : path ≠ 0)
    (timed : 0 < needOf node) :
    ∃ after, heldLongEnough now path node nowTrue (some timers) =
        (nowTrue && decide (needOf node ≤ now - clockAt after path), some after) ∧
      Tidy paths after ∧ clockAt after path = setClock now nowTrue (clockAt timers path) ∧
      ∀ q, q ≠ 0 → q ≠ path → clockAt after q = clockAt timers q := by
  obtain ⟨i, timer, found, here, shows_, kept, alone⟩ := findTimer_tidy tidy room among nonzero
  obtain ⟨inside, -⟩ := List.getElem?_eq_some_iff.mp here
  have own : clockAt (timers.set i ⟨path, setClock now nowTrue timer.since⟩) path =
      setClock now nowTrue timer.since := by
    rw [clockAt, find?_set_self inside (fun j before other there => ?_) (by simp)]
    · rfl
    · simpa using alone j before.ne other there
  refine ⟨timers.set i ⟨path, setClock now nowTrue timer.since⟩, ?_, ⟨?_, ?_, ?_, ?_⟩, ?_, ?_⟩
  · rw [heldLongEnough_timed timed found here, own]
  · rw [List.length_set, tidy.size]
  · intro other member taken
    rcases List.mem_or_eq_of_mem_set member with old | rfl
    · exact tidy.own other old taken
    · exact among
  · rw [List.pairwise_iff_getElem]
    intro j k before after less same
    rw [List.length_set] at before after
    simp only [List.getElem_set] at same ⊢
    split_ifs at same ⊢ with first second
    · omega
    · exact absurd same.symm (alone k (Ne.symm (by omega)) _ (List.getElem?_eq_getElem after))
    · exact absurd same (alone j (by omega) _ (List.getElem?_eq_getElem before))
    · exact tidy.unique (List.getElem?_eq_getElem before) (List.getElem?_eq_getElem after) less.ne
        same
  · intro other member free
    rcases List.mem_or_eq_of_mem_set member with old | rfl
    · exact tidy.spare other old free
    · exact absurd free nonzero
  · rw [own, shows_]
  · intro q taken other
    rw [clockAt, find?_set_other (fun old there => ?_) (by simpa using other.symm)]
    · rfl
    · rw [here, Option.mem_some_iff] at there
      subst there
      rcases kept with same | free
      · simpa [same] using other.symm
      · simpa [free] using taken.symm

end Table

/-! ## One look -/

/-- The clocks of some timed nodes show since when each has been true. -/
def Shows (looks : History) (clocks : List TimedNode) (timers : List NodeTimer) : Prop :=
  ∀ clock ∈ clocks, clockAt timers clock.path = since (Now clock.node) looks

/-- The paths of some timed nodes. -/
def pathsOf (clocks : List TimedNode) : List UInt32 := clocks.map TimedNode.path

/-- A look has moved the clocks of some timed nodes on, and no others. -/
structure Moved (paths : List UInt32) (looks : History) (clocks : List TimedNode)
    (timers after : List NodeTimer) : Prop where
  tidy : Tidy paths after
  shows_ : Shows looks clocks after
  others : ∀ path, path ≠ 0 → path ∉ pathsOf clocks → clockAt after path = clockAt timers path

section Looks

variable {paths : List UInt32} {cx : EvalCtx} {earlier looks : History}
  {timers middle after : List NodeTimer}

theorem Shows.left {first second : List TimedNode} (both : Shows looks (first ++ second) timers) :
    Shows looks first timers :=
  fun clock inside => both clock (List.mem_append_left _ inside)

theorem Shows.right {first second : List TimedNode} (both : Shows looks (first ++ second) timers) :
    Shows looks second timers :=
  fun clock inside => both clock (List.mem_append_right _ inside)

theorem Moved.keeps {first second : List TimedNode} (zero : 0 ∉ paths)
    (use : pathsOf (first ++ second) ⊆ paths) (apart : (pathsOf (first ++ second)).Nodup)
    (moved : Moved paths looks first timers after) (told : Shows earlier second timers) :
    Shows earlier second after := by
  intro clock inside
  have member : clock.path ∈ pathsOf second := List.mem_map_of_mem inside
  rw [pathsOf, List.map_append] at apart use
  rw [moved.others clock.path]
  · exact told clock inside
  · rintro free
    exact zero (free ▸ use (List.mem_append_right _ member))
  · intro shared
    exact List.disjoint_of_nodup_append apart shared member

theorem Moved.trans {first second : List TimedNode} (zero : 0 ∉ paths)
    (use : pathsOf (first ++ second) ⊆ paths) (apart : (pathsOf (first ++ second)).Nodup)
    (left : Moved paths looks first timers middle) (right : Moved paths looks second middle after) :
    Moved paths looks (first ++ second) timers after := by
  have swapped : pathsOf (second ++ first) ⊆ paths := by
    rw [pathsOf, List.map_append, List.append_subset] at use ⊢
    exact use.symm
  have different : (pathsOf (second ++ first)).Nodup := by
    rw [pathsOf, List.map_append] at apart ⊢
    exact List.nodup_append_comm.mp apart
  refine ⟨right.tidy, ?_, ?_⟩
  · intro clock inside
    rcases List.mem_append.mp inside with early | late
    · exact right.keeps zero swapped different left.shows_ clock early
    · exact right.shows_ clock late
  · intro path taken aside
    rw [pathsOf, List.map_append, List.mem_append, not_or] at aside
    rw [right.others path taken aside.2, left.others path taken aside.1]

open Classical in
theorem heldLongEnough_moved {path : UInt32} {denied : Bool} {node : Json} (zero : 0 ∉ paths)
    (room : paths.length ≤ nodeTimers) (timely : Timely (cx :: earlier)) (tidy : Tidy paths timers)
    (use : pathsOf (ownClock node path denied) ⊆ paths)
    (told : Shows earlier (ownClock node path denied) timers) :
    ∃ after, heldLongEnough cx.now path node (decide (Now node (cx :: earlier))) (some timers) =
        (decide (Says node (cx :: earlier)), some after) ∧
      Moved paths (cx :: earlier) (ownClock node path denied) timers after := by
  by_cases asks : 0 < needOf node
  · rw [ownClock, if_pos asks] at use told ⊢
    have among : path ∈ paths := use (List.mem_singleton_self path)
    have nonzero : path ≠ 0 := fun free => zero (free ▸ among)
    obtain ⟨after, said, kept, own, others⟩ :=
      heldLongEnough_tidy cx.now (decide (Now node (cx :: earlier))) tidy room among nonzero asks
    have before : clockAt timers path = since (Now node) earlier :=
      told _ (List.mem_singleton_self _)
    have shown : clockAt after path = since (Now node) (cx :: earlier) := by
      rw [own, before]
      rfl
    refine ⟨after, ?_, kept, ?_, ?_⟩
    · rw [said, shown, says_eq, timed, if_pos asks, heldFor_iff timely, Bool.decide_and]
    · intro clock inside
      rw [List.mem_singleton.mp inside]
      exact shown
    · intro q taken aside
      exact others q taken (by simpa [pathsOf] using aside)
  · refine ⟨timers, ?_, tidy, ?_, fun _ _ _ => rfl⟩
    · rw [heldLongEnough_untimed asks, says_eq, timed, if_neg asks]
    · rw [ownClock, if_neg asks]
      nofun

open Classical in
/-- What a look at a tree says and does. -/
def NodeTells (paths : List UInt32) (cx : EvalCtx) (earlier : History) (node : Json) : Prop :=
  ∀ (path : UInt32) (denied : Bool) (timers : List NodeTimer), Tidy paths timers →
    pathsOf (timedNodes node path denied) ⊆ paths → (pathsOf (timedNodes node path denied)).Nodup →
      Shows earlier (timedNodes node path denied) timers →
        ∃ after, evalPath cx node path (some timers) =
            (decide (Says node (cx :: earlier)), some after) ∧
          Moved paths (cx :: earlier) (timedNodes node path denied) timers after

open Classical in
theorem evalKids_moved {items : List Json} (zero : 0 ∉ paths)
    (each : ∀ item ∈ items, NodeTells paths cx earlier item) {path : UInt32} {denied : Bool} (i : ℕ)
    (tidy : Tidy paths timers)
    (use : pathsOf (kidClocks path denied i (items.map timedNodes)) ⊆ paths)
    (apart : (pathsOf (kidClocks path denied i (items.map timedNodes))).Nodup)
    (told : Shows earlier (kidClocks path denied i (items.map timedNodes)) timers) :
    ∃ after, evalKids path i (items.map (evalPath cx)) (some timers) =
        (items.map fun item => decide (Says item (cx :: earlier)), some after) ∧
      Moved paths (cx :: earlier) (kidClocks path denied i (items.map timedNodes)) timers
        after := by
  induction items generalizing i timers with
  | nil => exact ⟨timers, rfl, tidy, nofun, fun _ _ _ => rfl⟩
  | cons item rest ih =>
      have split : kidClocks path denied i ((item :: rest).map timedNodes) =
          timedNodes item (kidPath path i) denied ++
            kidClocks path denied (i + 1) (rest.map timedNodes) := rfl
      rw [split] at use apart told ⊢
      have parts : pathsOf (timedNodes item (kidPath path i) denied) ⊆ paths ∧
          pathsOf (kidClocks path denied (i + 1) (rest.map timedNodes)) ⊆ paths := by
        rwa [pathsOf, List.map_append, List.append_subset] at use
      have different : (pathsOf (timedNodes item (kidPath path i) denied)).Nodup ∧
          (pathsOf (kidClocks path denied (i + 1) (rest.map timedNodes))).Nodup := by
        rw [pathsOf, List.map_append] at apart
        exact ⟨apart.of_append_left, apart.of_append_right⟩
      obtain ⟨middle, first, left⟩ := each item List.mem_cons_self (kidPath path i) denied timers
        tidy parts.1 different.1 told.left
      obtain ⟨after, later, right⟩ := ih
        (fun item inside => each item (List.mem_cons_of_mem _ inside)) (i + 1) left.tidy parts.2
        different.2 (left.keeps zero use apart told.right)
      refine ⟨after, ?_, left.trans zero use apart right⟩
      rw [List.map_cons, List.map_cons, evalKids]
      simp only [kidPath] at first
      simp only [first, later]

open Classical in
theorem evalGroup_says (cx : EvalCtx) {node : Json} {items : List Json}
    (inside : kidsOf node = some items) {path : UInt32} {clocks after : Clocks}
    (kids : evalKids path 0 (items.map (evalPath cx)) clocks =
      (items.map fun item => decide (Says item looks), after))
    (still : items = [] → after = clocks) :
    evalGroup node (items.map (evalPath cx)) path clocks = (decide (Now node looks), after) := by
  have now : Now node = groupNow node (items.map Says) := by rw [Now, inside]
  rw [now]
  simp only [evalGroup, List.isEmpty_map]
  cases items with
  | nil => simp [groupNow, still rfl]
  | cons item rest =>
      rw [List.isEmpty_cons, if_neg Bool.false_ne_true, kids]
      by_cases anyOf : strcasecmp (jsonStr node ["op"] "all") "any" = true
      · simp only [if_pos anyOf]
        refine Prod.ext (Bool.eq_iff_iff.mpr ?_) rfl
        simp [groupNow, anyOf]
      by_cases notAll : strcasecmp (jsonStr node ["op"] "all") "not" = true
      · simp only [if_neg anyOf, if_pos notAll]
        refine Prod.ext (Bool.eq_iff_iff.mpr ?_) rfl
        simp [groupNow, anyOf, notAll, imp_iff_not_or]
      · simp only [if_neg anyOf, if_neg notAll]
        refine Prod.ext (Bool.eq_iff_iff.mpr ?_) rfl
        simp [groupNow, anyOf, notAll]

/-- Every tree says what it means, with a clock for each of its timed nodes. -/
theorem tells (zero : 0 ∉ paths) (room : paths.length ≤ nodeTimers)
    (timely : Timely (cx :: earlier)) (node : Json) : NodeTells paths cx earlier node := by
  induction node using tree_induction with
  | leaf node plain =>
      intro path denied timers tidy use apart told
      rw [timedNodes_leaf plain] at use told ⊢
      obtain ⟨after, said, moved⟩ := heldLongEnough_moved zero room timely tidy use told
      refine ⟨after, ?_, moved⟩
      rw [evalPath_leaf cx plain, evalLeaf, ← said, Now, plain]
      simp [leafNow]
  | group node items inside ih =>
      intro path denied timers tidy use apart told
      rw [timedNodes_group inside] at use apart told ⊢
      have parts :
          pathsOf (kidClocks path (denied ^^ denies node) 0 (items.map timedNodes)) ⊆ paths ∧
            pathsOf (ownClock node path denied) ⊆ paths := by
        rwa [pathsOf, List.map_append, List.append_subset] at use
      have different :
          (pathsOf (kidClocks path (denied ^^ denies node) 0 (items.map timedNodes))).Nodup := by
        rw [pathsOf, List.map_append] at apart
        exact apart.of_append_left
      obtain ⟨middle, kids, left⟩ :=
        evalKids_moved zero ih 0 tidy parts.1 different told.left
      obtain ⟨after, said, right⟩ := heldLongEnough_moved zero room timely left.tidy parts.2
        (left.keeps zero use apart told.right)
      refine ⟨after, ?_, left.trans zero use apart right⟩
      have group := evalGroup_says cx inside kids (by
        rintro rfl
        simpa [evalKids] using (congrArg Prod.snd kids).symm)
      rw [evalPath_group cx inside, evalTimedGroup, group, said]

end Looks

/-! ## Every node of a tree -/

/-- The node at a place of a tree: the place lists which condition to enter. -/
def nodeAt : List ℕ → Json → Option Json
  | [], node => some node
  | i :: place, node => (kidsOf node).bind fun items => items[i]?.bind (nodeAt place)

/-- What the node at a place is found to say while its tree is evaluated: the conditions
before it have been evaluated, and have moved their clocks. -/
def verdictAt (cx : EvalCtx) : List ℕ → Json → UInt32 → Clocks → Option Bool
  | [], node, path, clocks => some (evalPath cx node path clocks).1
  | i :: place, node, path, clocks =>
      (kidsOf node).bind fun items => items[i]?.bind fun item =>
        verdictAt cx place item (kidPath path i)
          (evalKids path 0 ((items.take i).map (evalPath cx)) clocks).2

section Places

variable {paths : List UInt32} {cx : EvalCtx} {earlier : History}

theorem kidClocks_append (path : UInt32) (denied : Bool) (i : ℕ)
    (first second : List (UInt32 → Bool → List TimedNode)) :
    kidClocks path denied i (first ++ second) =
      kidClocks path denied i first ++ kidClocks path denied (i + first.length) second := by
  induction first generalizing i with
  | nil => rfl
  | cons kid rest ih =>
      rw [List.cons_append, kidClocks, ih, kidClocks, List.append_assoc,
        List.length_cons, Nat.add_right_comm, Nat.add_assoc]

open Classical in
/-- Every node of a tree is found to say what it means. -/
theorem verdictAt_eq (zero : 0 ∉ paths) (room : paths.length ≤ nodeTimers)
    (timely : Timely (cx :: earlier)) {place : List ℕ} {tree node : Json} {path : UInt32}
    {denied : Bool} {timers : List NodeTimer} (here : nodeAt place tree = some node)
    (tidy : Tidy paths timers) (use : pathsOf (timedNodes tree path denied) ⊆ paths)
    (apart : (pathsOf (timedNodes tree path denied)).Nodup)
    (told : Shows earlier (timedNodes tree path denied) timers) :
    verdictAt cx place tree path (some timers) = some (decide (Says node (cx :: earlier))) := by
  induction place generalizing tree path denied timers with
  | nil =>
      cases here
      obtain ⟨after, said, -⟩ := tells zero room timely _ path denied timers tidy use apart told
      rw [verdictAt, said]
  | cons i place ih =>
      rw [nodeAt, Option.bind_eq_some_iff] at here
      obtain ⟨items, inside, here⟩ := here
      obtain ⟨item, there, here⟩ := Option.bind_eq_some_iff.mp here
      obtain ⟨short, rfl⟩ := List.getElem?_eq_some_iff.mp there
      have parted : items = items.take i ++ items[i] :: items.drop (i + 1) := by
        rw [List.getElem_cons_drop, List.take_append_drop]
      have clocks : timedNodes tree path denied =
          kidClocks path (denied ^^ denies tree) 0 ((items.take i).map timedNodes) ++
            (timedNodes items[i] (kidPath path i) (denied ^^ denies tree) ++
              (kidClocks path (denied ^^ denies tree) (i + 1)
                  ((items.drop (i + 1)).map timedNodes) ++
                ownClock tree path denied)) := by
        rw [timedNodes_group inside]
        conv_lhs => rw [parted]
        rw [List.map_append, kidClocks_append, List.map_cons, kidClocks, List.length_map,
          List.length_take_of_le short.le, Nat.zero_add]
        simp only [List.append_assoc]
      rw [clocks] at use apart told
      have parts : pathsOf (kidClocks path (denied ^^ denies tree) 0
            ((items.take i).map timedNodes)) ⊆ paths ∧
          pathsOf (timedNodes items[i] (kidPath path i) (denied ^^ denies tree)) ⊆ paths := by
        simp only [pathsOf, List.map_append, List.append_subset] at use
        exact ⟨use.1, use.2.1⟩
      have different : (pathsOf (kidClocks path (denied ^^ denies tree) 0
            ((items.take i).map timedNodes))).Nodup ∧
          (pathsOf (timedNodes items[i] (kidPath path i) (denied ^^ denies tree))).Nodup := by
        simp only [pathsOf, List.map_append] at apart
        exact ⟨apart.of_append_left, apart.of_append_right.of_append_left⟩
      obtain ⟨middle, kids, moved⟩ := evalKids_moved zero
        (fun item _ => tells zero room timely item) 0 tidy parts.1 different.1 told.left
      have later := ih here moved.tidy parts.2 different.2
        (moved.keeps zero use apart told.right).left
      rw [verdictAt, inside, Option.bind_some, there, Option.bind_some, kids, later]

end Places

/-! ## Runs -/

/-- The clocks of a tree, with the looks at it so far. -/
structure Looked where
  clocks : Clocks
  looks : History

/-- A tree that has not been looked at. -/
def Looked.start : Looked := ⟨some freshTimers, []⟩

def Looked.step (tree : Json) (cx : EvalCtx) (s : Looked) : Looked :=
  ⟨(evalNodeAt cx tree s.clocks).2, cx :: s.looks⟩

/-- Time is positive and does not go back. -/
def Onward (cx : EvalCtx) (s : Looked) : Prop :=
  0 < cx.now ∧ ∀ last ∈ s.looks.head?, last.now ≤ cx.now

instance (cx : EvalCtx) (s : Looked) : Decidable (Onward cx s) :=
  inferInstanceAs (Decidable (_ ∧ ∀ last ∈ s.looks.head?, last.now ≤ cx.now))

/-- Whether there is a clock for each timed node of a tree: they fit in the table, at
paths that differ and are not the mark of a spare place. -/
def Roomy (tree : Json) : Prop :=
  let paths := pathsOf (timedNodes tree 1 false)
  paths.length ≤ nodeTimers ∧ paths.Nodup ∧ 0 ∉ paths

instance (tree : Json) : Decidable (Roomy tree) := inferInstanceAs (Decidable (_ ∧ _ ∧ _))

/-- Every node is found true exactly where it says so: one that asks for a time, where it
was true at every look of a stretch that long. -/
def SaysRight (tree : Json) (cx : EvalCtx) (s : Looked) : Prop :=
  ∀ place node, nodeAt place tree = some node →
    ∃ said, verdictAt cx place tree 1 s.clocks = some said ∧
      (said = true ↔ timed node (Now node) (cx :: s.looks))

theorem clockAt_fresh (path : UInt32) : clockAt freshTimers path = 0 := by
  rw [clockAt, freshTimers]
  cases found : (List.replicate nodeTimers (⟨0, 0⟩ : NodeTimer)).find? (·.path = path) with
  | none => rfl
  | some timer =>
      have inside := List.mem_of_find?_eq_some found
      rw [List.eq_of_mem_replicate inside]
      rfl

theorem tidy_fresh (paths : List UInt32) : Tidy paths freshTimers := by
  have fresh (timer : NodeTimer) (inside : timer ∈ freshTimers) : timer = ⟨0, 0⟩ :=
    List.eq_of_mem_replicate inside
  refine ⟨List.length_replicate, ?_, ?_, ?_⟩
  · intro timer inside taken
    rw [fresh timer inside] at taken
    exact absurd rfl taken
  · exact List.pairwise_replicate.mpr (Or.inr fun _ => rfl)
  · intro timer inside _
    rw [fresh timer inside]

/-- A look at a pit at a temperature. -/
def lookAt (temp now : ℚ) : EvalCtx :=
  ⟨(Pit.tick [] "Hold" temp now).status, ⟨"grill", "grill", none⟩, 0, now⟩

/-- A pit that is warm for a minute, and beside it hot or not very hot for two. -/
def warmBeside : Json :=
  .obj [("op", .str "all"), ("conditions", .arr [hotMinute 200,
    .obj [("op", .str "any"), ("for_s", .num 120), ("conditions", .arr [hotMinute 300,
      .obj [("op", .str "not"), ("conditions", .arr [hotMinute 250])]])]])]

/-- Twelve conditions that are not met, and after them one that is. -/
def crowded : Json :=
  .obj [("op", .str "any"), ("conditions",
    .arr (List.replicate nodeTimers (hotMinute 500) ++ [hotMinute 200]))]

end PiFire.Rules
