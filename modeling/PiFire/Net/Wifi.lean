import PiFire.Text.Listed
import PiFire.Text.Scan
import Mathlib.Data.List.Sort

/-!
# The list of networks

`nmcli` lists the access points that are in reach, one on a line. The lines are read into the
networks: one for each name, with the strongest signal that it has anywhere.
-/

namespace PiFire.Net

/-- `unescape` -/
def unescape : List Char → List Char
  | '\\' :: c :: s => c :: unescape s
  | c :: s => c :: unescape s
  | [] => []

/-- The loop of `split_fields`: `more` fields may still begin after the one that is read. -/
def fieldsFrom : ℕ → List Char → List Char → List (List Char)
  | 0, field, p => [field ++ p]
  | _ + 1, field, [] => [field]
  | more + 1, field, '\\' :: c :: p => fieldsFrom (more + 1) (field ++ ['\\', c]) p
  | more + 1, field, c :: p =>
      if c = ':' then field :: fieldsFrom more [] p else fieldsFrom (more + 1) (field ++ [c]) p

/-- `split_fields` -/
def splitFields (line : List Char) (max : ℕ) : List (List Char) :=
  (fieldsFrom (max - 1) [] line).map unescape

/-- A character as `nmcli -t` prints it in a field. -/
def escape (c : Char) : List Char := if c = ':' ∨ c = '\\' then ['\\', c] else [c]

/-- The fields of a line as `nmcli -t` prints them. -/
def printFields (fields : List (List Char)) : List Char :=
  Text.joined ':' (fields.map fun field => field.flatMap escape)

theorem unescape_cons {c : Char} (plain : c ≠ '\\') (s : List Char) :
    unescape (c :: s) = c :: unescape s := by
  rw [unescape]
  rintro other s rfl
  exact absurd rfl plain

theorem unescape_escape (s : List Char) : unescape (s.flatMap escape) = s := by
  induction s with
  | nil => rfl
  | cons c s ih =>
      rw [List.flatMap_cons, escape]
      split_ifs with special
      · exact congrArg (c :: ·) ih
      · rw [List.singleton_append, unescape_cons (not_or.mp special).2, ih]

theorem fieldsFrom_cons {c : Char} (plain : c ≠ '\\') (more : ℕ) (field p : List Char) :
    fieldsFrom (more + 1) field (c :: p) =
      if c = ':' then field :: fieldsFrom more [] p else fieldsFrom (more + 1) (field ++ [c]) p := by
  rw [fieldsFrom]
  rintro other p rfl
  exact absurd rfl plain

theorem fieldsFrom_escape (more : ℕ) (field s p : List Char) :
    fieldsFrom (more + 1) field (s.flatMap escape ++ p) =
      fieldsFrom (more + 1) (field ++ s.flatMap escape) p := by
  induction s generalizing field with
  | nil => rw [List.flatMap_nil, List.nil_append, List.append_nil]
  | cons c s ih =>
      rw [List.flatMap_cons, escape, List.append_assoc, ← List.append_assoc field]
      split_ifs with special
      · exact ih (field ++ ['\\', c])
      · obtain ⟨colon, back⟩ := not_or.mp special
        rw [List.singleton_append, fieldsFrom_cons back, if_neg colon, ih]

theorem fieldsFrom_following (begun first : List Char) (rest : List (List Char)) :
    fieldsFrom rest.length begun (first.flatMap escape ++
        Text.following ':' (rest.map fun field => field.flatMap escape)) =
      (begun ++ first.flatMap escape) :: rest.map fun field => field.flatMap escape := by
  induction rest generalizing begun first with
  | nil => simp [Text.following, fieldsFrom]
  | cons next rest ih =>
      have spread : Text.following ':' ((next :: rest).map fun field => field.flatMap escape) =
          ':' :: (next.flatMap escape ++
            Text.following ':' (rest.map fun field => field.flatMap escape)) := by
        simp [Text.following]
      rw [List.length_cons, fieldsFrom_escape, spread, fieldsFrom_cons (by decide), if_pos rfl, ih,
        List.nil_append, List.map_cons]

theorem splitFields_print (first : List Char) (rest : List (List Char)) :
    splitFields (printFields (first :: rest)) (rest.length + 1) = first :: rest := by
  rw [splitFields, printFields, List.map_cons, Text.joined_cons, Nat.add_sub_cancel,
    fieldsFrom_following, List.nil_append, List.map_cons, List.map_map, unescape_escape]
  exact congrArg (first :: ·) ((List.map_congr_left fun field _ => unescape_escape field).trans
    (List.map_id rest))

/-- An element of the answer. -/
structure Network where
  ssid : List Char
  signal : ℤ
  security : List Char
  active : Bool
  deriving DecidableEq

/-- A network that was found before is found once more. -/
def Network.again (it found : Network) : Network :=
  { it with
    signal := if it.signal < found.signal then found.signal else it.signal
    active := if found.active then true else it.active }

/-- The network of a line is one of those found before, or a new one. -/
def merge (found : Network) : List Network → List Network
  | [] => [found]
  | it :: arr => if it.ssid = found.ssid then it.again found :: arr else it :: merge found arr

/-- A line of `nmcli`. -/
def readLine (arr : List Network) (line : List Char) : List Network :=
  match splitFields line 4 with
  | [active, ssid, signal, security] =>
      if ssid = [] then arr
      else merge ⟨ssid, (strtol signal).1, security, active = "yes".toList⟩ arr
  | _ => arr

/-- The insertion sort. What is sorted so far is kept from its weakest on. -/
def sortStrongest (arr : List Network) : List Network :=
  (arr.foldl (fun sorted it => sorted.orderedInsert (·.signal ≤ ·.signal) it) []).reverse

/-- The list where there is no radio. -/
def simulated (hotspot : Bool) (joined : List Char) : List Network :=
  [("SimNet", 82, "WPA2"), ("Neighbors 5G", 55, "WPA2"), ("CoffeeShop", 30, "")].map fun
    (name, signal, security) =>
      ⟨name.toList, signal, security.toList, !hotspot && name.toList = joined⟩

/-- `pf_wifi_scan`, with what `nmcli` returned and wrote. -/
def scan (sim : Option (Bool × List Char)) (rc : ℤ) (out : List Char) : List Network :=
  match sim with
  | some (hotspot, joined) => simulated hotspot joined
  | none =>
      if rc ≠ 0 then []
      else
        let lines := (Text.pieces '\n' (out.take 65535)).filter (· ≠ [])
        sortStrongest (lines.foldl readLine [])

/-- An access point as `nmcli` has it: the signal is a percentage, the security a list of names. -/
structure AccessPoint where
  active : Bool
  ssid : List Char
  signal : ℕ
  percent : signal ≤ 100
  security : List Char
  plain : '\n' ∉ security

namespace AccessPoint

def fields (ap : AccessPoint) : List (List Char) :=
  [(if ap.active then "yes" else "no").toList, ap.ssid, Nat.toDigits 10 ap.signal, ap.security]

def network (ap : AccessPoint) : Network := ⟨ap.ssid, ap.signal, ap.security, ap.active⟩

end AccessPoint

/-- What `nmcli` writes: a line for each access point. -/
def nmcli (aps : List AccessPoint) : List Char :=
  (aps.map fun ap => printFields ap.fields).flatMap (· ++ ['\n'])

/-- The access points with a name. -/
def named (aps : List AccessPoint) (name : List Char) : List AccessPoint :=
  aps.filter (·.ssid = name)

/-- A network stands for the access points of its name. -/
structure Sums (aps : List AccessPoint) (it : Network) : Prop where
  reached : ∃ ap ∈ named aps it.ssid, (ap.signal : ℤ) = it.signal
  strongest : ∀ ap ∈ named aps it.ssid, (ap.signal : ℤ) ≤ it.signal
  active : it.active = (named aps it.ssid).any (·.active)

/-- Each name that is not empty is listed once. -/
structure Lists (aps : List AccessPoint) (arr : List Network) : Prop where
  once : (arr.map (·.ssid)).Nodup
  names : ∀ name, name ∈ arr.map (·.ssid) ↔ name ≠ [] ∧ ∃ ap ∈ aps, ap.ssid = name
  sums : ∀ it ∈ arr, Sums aps it

variable {aps : List AccessPoint} {arr : List Network}

theorem readLine_print (arr : List Network) (ap : AccessPoint) :
    readLine arr (printFields ap.fields) = if ap.ssid = [] then arr else merge ap.network arr := by
  have number : (strtol (Nat.toDigits 10 ap.signal)).1 = ap.signal := by
    have fits : (ap.signal : ℤ) ≤ longMax := by
      have percent := ap.percent
      rw [longMax]
      omega
    have stops : ∀ c ∈ ([] : List Char).head?, c.isDigit = false := by simp
    have read := strtol_toDigits fits stops
    rw [List.append_nil] at read
    rw [read]
  have yes : decide ((if ap.active then "yes" else "no").toList = "yes".toList) = ap.active := by
    cases ap.active <;> decide
  have split : splitFields (printFields ap.fields) 4 = ap.fields := splitFields_print _ [_, _, _]
  rw [readLine, split, AccessPoint.fields]
  simp only [number, yes]
  rfl

theorem named_concat (ap : AccessPoint) (name : List Char) :
    named (aps ++ [ap]) name = if ap.ssid = name then named aps name ++ [ap] else named aps name := by
  rw [named, List.filter_append]
  split_ifs with same <;> simp [named, same]

theorem Sums.other {it : Network} {ap : AccessPoint} (sums : Sums aps it)
    (other : it.ssid ≠ ap.ssid) : Sums (aps ++ [ap]) it := by
  have same : named (aps ++ [ap]) it.ssid = named aps it.ssid := by
    rw [named_concat, if_neg (Ne.symm other)]
  exact ⟨same ▸ sums.reached, same ▸ sums.strongest, same ▸ sums.active⟩

theorem Sums.again {it : Network} {ap : AccessPoint} (sums : Sums aps it)
    (same : it.ssid = ap.ssid) : Sums (aps ++ [ap]) (it.again ap.network) := by
  have more : named (aps ++ [ap]) (it.again ap.network).ssid = named aps it.ssid ++ [ap] := by
    rw [Network.again, named_concat, if_pos same.symm]
  obtain ⟨best, inside, signal⟩ := sums.reached
  constructor <;> rw [more]
  · by_cases louder : it.signal < ap.signal
    · exact ⟨ap, List.mem_concat_self, (if_pos louder).symm⟩
    · exact ⟨best, List.mem_append_left [ap] inside, signal.trans (if_neg louder).symm⟩
  · intro other there
    simp only [Network.again, AccessPoint.network]
    rcases List.mem_append.mp there with before | last
    · have below := sums.strongest other before
      split_ifs <;> omega
    · rw [List.mem_singleton.mp last]
      split_ifs <;> omega
  · rw [List.any_append, ← sums.active]
    cases active : ap.active <;> simp [Network.again, AccessPoint.network, active]

theorem Sums.first {ap : AccessPoint} (new : ∀ other ∈ aps, other.ssid ≠ ap.ssid) :
    Sums (aps ++ [ap]) ap.network := by
  have none_ : named aps ap.ssid = [] := by
    rw [named, List.filter_eq_nil_iff]
    exact fun other inside => by simpa using new other inside
  have one : named (aps ++ [ap]) ap.network.ssid = [ap] := by
    rw [AccessPoint.network, named_concat, if_pos rfl, none_, List.nil_append]
  constructor <;> rw [one]
  · exact ⟨ap, List.mem_singleton_self ap, rfl⟩
  · exact fun other inside => (List.mem_singleton.mp inside) ▸ le_rfl
  · simp [AccessPoint.network]

theorem names_merge (found : Network) (arr : List Network) :
    (merge found arr).map (·.ssid) =
      if found.ssid ∈ arr.map (·.ssid) then arr.map (·.ssid)
      else arr.map (·.ssid) ++ [found.ssid] := by
  induction arr with
  | nil => rfl
  | cons it arr ih =>
      rw [merge]
      split_ifs with same new new
      · rfl
      · exact absurd (List.mem_cons.mpr (Or.inl same.symm)) new
      · rw [List.map_cons, List.map_cons, ih, if_pos]
        exact (List.mem_cons.mp new).resolve_left (Ne.symm same)
      · rw [List.map_cons, List.map_cons, ih, if_neg, List.cons_append]
        exact fun inside => new (List.mem_cons_of_mem it.ssid inside)

theorem sums_merge {ap : AccessPoint} (once : (arr.map (·.ssid)).Nodup)
    (new : ap.ssid ∉ arr.map (·.ssid) → ∀ other ∈ aps, other.ssid ≠ ap.ssid)
    (sums : ∀ it ∈ arr, Sums aps it) :
    ∀ it ∈ merge ap.network arr, Sums (aps ++ [ap]) it := by
  induction arr with
  | nil =>
      intro it inside
      rw [List.mem_singleton.mp inside]
      exact Sums.first (new List.not_mem_nil)
  | cons first arr ih =>
      obtain ⟨apart, once⟩ := List.nodup_cons.mp once
      obtain ⟨head, rest⟩ := List.forall_mem_cons.mp sums
      rw [merge]
      split_ifs with same <;> rw [List.forall_mem_cons]
      · refine ⟨head.again same, fun it inside => (rest it inside).other fun also => apart ?_⟩
        exact List.mem_map.mpr ⟨it, inside, also.trans same.symm⟩
      · refine ⟨head.other same, ih once (fun absent => new ?_) rest⟩
        rw [List.map_cons, List.mem_cons, not_or]
        exact ⟨Ne.symm same, absent⟩

theorem Lists.readLine (lists : Lists aps arr) (ap : AccessPoint) :
    Lists (aps ++ [ap]) (readLine arr (printFields ap.fields)) := by
  have names (name : List Char) : name ∈ arr.map (·.ssid) ∨ (ap.ssid = name ∧ name ≠ []) ↔
      name ≠ [] ∧ ∃ other ∈ aps ++ [ap], other.ssid = name := by
    rw [lists.names]
    simp only [List.mem_append, List.mem_singleton, or_and_right, exists_or, exists_eq_left]
    rw [and_or_left, and_comm (a := ap.ssid = name)]
  rw [readLine_print]
  split_ifs with hidden
  · refine ⟨lists.once, fun name => ?_, fun it inside => (lists.sums it inside).other fun same => ?_⟩
    · rw [← names, hidden]
      tauto
    · exact ((lists.names _).mp (List.mem_map_of_mem inside)).1 (same.trans hidden)
  · have new (absent : ap.ssid ∉ arr.map (·.ssid)) : ∀ other ∈ aps, other.ssid ≠ ap.ssid :=
      fun other inside same => absent ((lists.names _).mpr ⟨hidden, other, inside, same⟩)
    refine ⟨?_, fun name => ?_, sums_merge lists.once new lists.sums⟩ <;>
      rw [names_merge] <;> split_ifs with known
    · exact lists.once
    · exact List.nodup_append.mpr ⟨lists.once, List.nodup_singleton _, by simpa using known⟩
    · rw [← names, or_iff_left_of_imp]
      exact fun same => same.1 ▸ known
    · rw [← names, List.mem_append, List.mem_singleton, eq_comm (a := name)]
      exact or_congr_right ⟨fun same => ⟨same, same ▸ hidden⟩, And.left⟩

theorem foldl_readLine (aps : List AccessPoint) :
    Lists aps ((aps.map fun ap => printFields ap.fields).foldl readLine []) := by
  induction aps using List.reverseRecOn with
  | nil => exact ⟨List.nodup_nil, by simp, by simp⟩
  | append_singleton aps ap ih =>
      rw [List.map_append, List.foldl_append]
      exact ih.readLine ap

theorem sortStrongest_eq (arr : List Network) :
    sortStrongest arr = (arr.reverse.insertionSort (·.signal ≤ ·.signal)).reverse := by
  rw [sortStrongest, ← List.foldr_reverse]
  rfl

theorem sortStrongest_sorted (arr : List Network) :
    (sortStrongest arr).Pairwise fun stronger weaker => weaker.signal ≤ stronger.signal := by
  have : Std.Total fun a b : Network => a.signal ≤ b.signal := ⟨fun a b => le_total a.signal b.signal⟩
  have : IsTrans Network fun a b => a.signal ≤ b.signal := ⟨fun _ _ _ => le_trans⟩
  rw [sortStrongest_eq, List.pairwise_reverse]
  exact List.pairwise_insertionSort (fun a b : Network => a.signal ≤ b.signal) arr.reverse

theorem Lists.sorted (lists : Lists aps arr) : Lists aps (sortStrongest arr) := by
  have perm : (sortStrongest arr).Perm arr := by
    rw [sortStrongest_eq]
    exact (List.reverse_perm _).trans ((List.perm_insertionSort _ _).trans (List.reverse_perm arr))
  have names := perm.map (·.ssid)
  exact ⟨names.nodup_iff.mpr lists.once, fun name => names.mem_iff.trans (lists.names name),
    fun it inside => lists.sums it (perm.mem_iff.mp inside)⟩

theorem newline_printFields {fields : List (List Char)} (plain : ∀ field ∈ fields, '\n' ∉ field) :
    '\n' ∉ printFields fields := by
  have one (field : List Char) (without : '\n' ∉ field) : '\n' ∉ field.flatMap escape := by
    intro inside
    obtain ⟨c, there, printed⟩ := List.mem_flatMap.mp inside
    have same : '\n' = c := by
      rw [escape] at printed
      split_ifs at printed <;> simpa using printed
    exact without (same ▸ there)
  cases fields with
  | nil => exact List.not_mem_nil
  | cons first rest =>
      obtain ⟨head, tail⟩ := List.forall_mem_cons.mp plain
      rw [printFields, List.map_cons, Text.joined_cons, List.mem_append, not_or, Text.following]
      refine ⟨one first head, fun inside => ?_⟩
      obtain ⟨item, there, printed⟩ := List.mem_flatMap.mp inside
      obtain ⟨field, given, rfl⟩ := List.mem_map.mp there
      exact one field (tail field given) (by simpa using printed)

theorem printFields_ne_nil (ap : AccessPoint) : printFields ap.fields ≠ [] := by
  rw [printFields, AccessPoint.fields, List.map_cons, Text.joined_cons]
  cases ap.active <;> exact List.append_ne_nil_of_left_ne_nil (by decide) _

theorem newline_fields {ap : AccessPoint} (line : '\n' ∉ ap.ssid) :
    ∀ field ∈ ap.fields, '\n' ∉ field := by
  simp only [AccessPoint.fields, List.forall_mem_cons]
  refine ⟨by cases ap.active <;> decide, line, fun inside => ?_, ap.plain, by simp⟩
  exact absurd (toDigits_isDigit _ inside) (by decide)

/-- Where no name has a line break, every name is listed once, with its strongest signal. -/
theorem scan_lists (aps : List AccessPoint) (lines : ∀ ap ∈ aps, '\n' ∉ ap.ssid)
    (fits : (nmcli aps).length < 65536) :
    Lists aps (scan none 0 (nmcli aps)) ∧
      (scan none 0 (nmcli aps)).Pairwise fun stronger weaker => weaker.signal ≤ stronger.signal := by
  have plain : ∀ line ∈ aps.map fun ap => printFields ap.fields, '\n' ∉ line := by
    rw [List.forall_mem_map]
    exact fun ap inside => newline_printFields (newline_fields (lines ap inside))
  have read : scan none 0 (nmcli aps) =
      sortStrongest ((aps.map fun ap => printFields ap.fields).foldl readLine []) := by
    rw [scan, if_neg (by decide), List.take_of_length_le (by omega), nmcli,
      Text.pieces_terminated plain, List.filter_eq_self.mpr]
    rw [List.forall_mem_map]
    exact fun ap _ => by simpa using printFields_ne_nil ap
  rw [read]
  exact ⟨(foldl_readLine aps).sorted, sortStrongest_sorted _⟩

/-- Two access points of one name, which has a colon. -/
theorem scan_lists_twice :
    let aps : List AccessPoint :=
      [⟨false, "a:b".toList, 40, by decide, "WPA2".toList, by decide⟩,
        ⟨true, "a:b".toList, 60, by decide, "WPA2".toList, by decide⟩]
    Lists aps (scan none 0 (nmcli aps)) ∧
      (scan none 0 (nmcli aps)).Pairwise fun stronger weaker => weaker.signal ≤ stronger.signal :=
  scan_lists _ (by decide) (by decide)

/-- The line of a name with a line break is read as two lines, and neither is a network's. -/
theorem broken_line_lost :
    let aps : List AccessPoint := [⟨false, "a\nb".toList, 40, by decide, "WPA2".toList, by decide⟩]
    (nmcli aps).length < 65536 ∧ ¬Lists aps (scan none 0 (nmcli aps)) := by
  refine ⟨by decide, fun lists => ?_⟩
  have listed := (lists.names "a\nb".toList).mpr ⟨by decide, _, List.mem_cons_self, rfl⟩
  exact absurd listed (by decide)

end PiFire.Net
