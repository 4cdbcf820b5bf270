import PiFire.Text.RoundTrip
import PiFire.Text.Scan

/-!
# The log

The last lines of the log are kept in a ring, and the endpoint prints them as a JSON array into
a buffer. Where the array fits the buffer it is read back as those lines; where it does not it is
cut, and is no JSON.
-/

namespace PiFire.Web

open Parsing

/-! ### The ring -/

/-- `pf_log_level` -/
inductive LogLevel
  | debug
  | info
  | warn
  | error
  deriving DecidableEq

def LogLevel.rank : LogLevel → ℕ
  | debug => 0
  | info => 1
  | warn => 2
  | error => 3

/-- `level_names` -/
def LogLevel.name : LogLevel → String
  | debug => "debug"
  | info => "info"
  | warn => "warn"
  | error => "error"

/-- A line of the ring, its time in thousandths of a second. -/
structure Line where
  ts : ℕ
  level : LogLevel
  text : String
  whole : unbroken text = true

/-- `g_level`, `g_ring`, `g_ring_head` and `g_ring_len`. -/
structure Log where
  level : LogLevel
  ring : ℕ → Line
  head : ℕ
  len : ℕ

def Log.init : Log := ⟨.info, fun _ => ⟨0, .debug, "", rfl⟩, 0, 0⟩

/-- A call of the log, with the time and the message as it was formatted. -/
inductive Call
  | setLevel (level : LogLevel)
  | log (level : LogLevel) (tag msg : List Char) (wall : ℕ)

/-- What a call writes to the ring. -/
def lineOf (level : LogLevel) (tag msg : List Char) (wall : ℕ) : Line :=
  ⟨wall, level, cString (('[' :: tag.take 31 ++ [']', ' '] ++ msg.take 207).take 255),
    unbroken_cString _⟩

/-- `pf_log` -/
def pfLog (log : Log) (level : LogLevel) (tag msg : List Char) (wall : ℕ) : Log :=
  if level.rank < log.level.rank then log
  else
    { log with
      ring := Function.update log.ring log.head (lineOf level tag msg wall)
      head := (log.head + 1) % 512
      len := if log.len < 512 then log.len + 1 else log.len }

def Log.step (log : Log) : Call → Log
  | .setLevel level => { log with level }
  | .log level tag msg wall => pfLog log level tag msg wall

/-! ### The array -/

/-- A time as `%.3f` prints it. -/
def fixed3 (ts : ℕ) : List Char :=
  Nat.toDigits 10 (ts / 1000) ++
    ['.', Nat.digitChar (ts / 100 % 10), Nat.digitChar (ts / 10 % 10), Nat.digitChar (ts % 10)]

/-- A character as `pf_json_escape` writes it. -/
def jsonEscape (c : Char) : List Char :=
  if c = '"' then ['\\', '"']
  else if c = '\\' then ['\\', '\\']
  else if c = '\n' then ['\\', 'n']
  else if c = '\r' then ['\\', 'r']
  else if c = '\t' then ['\\', 't']
  else if c.toNat < 0x20 then ['\\', 'u', '0', '0', hexDigit (c.toNat / 16), hexDigit (c.toNat % 16)]
  else [c]

/-- The loop of `pf_json_escape`, of which so much is written. -/
def escapeFrom (n w : ℕ) : List Char → List Char
  | [] => []
  | c :: rest =>
      if w + 7 < n then jsonEscape c ++ escapeFrom n (w + (jsonEscape c).length) rest else []

/-- An element of the array. -/
def element (line : Line) : List Char :=
  "\x7b\"ts\":".toList ++ fixed3 line.ts ++ ",\"level\":\"".toList ++ line.level.name.toList ++
    "\",\"msg\":\"".toList ++ escapeFrom 512 0 line.text.toList ++ "\"\x7d".toList

/-- `snprintf(out + w, n - w, ...)`: what is written, and where the whole text would end. -/
def snprintf (n : ℕ) (out : List Char × ℕ) (text : List Char) : List Char × ℕ :=
  (out.1 ++ text.take (n - out.2 - 1), out.2 + text.length)

/-- `snprintf` where there is room. -/
def snprintfRoom (n : ℕ) (out : List Char × ℕ) (text : List Char) : List Char × ℕ :=
  if out.2 < n then snprintf n out text else out

/-- `pf_log_recent_json` -/
def recentJson (log : Log) (n : ℕ) (max : ℤ) : List Char × ℕ :=
  let max := if max ≤ 0 ∨ 512 < max then 512 else max.toNat
  let out := snprintf n ([], 0) ['[']
  let count := if log.len < max then log.len else max
  let start := (log.head + 512 - count) % 512
  let out := (List.range count).foldl (fun out i =>
    snprintfRoom n out ((if i = 0 then [] else [',']) ++ element (log.ring ((start + i) % 512)))) out
  let out := snprintfRoom n out [']']
  (out.1, if out.2 < n then out.2 else n - 1)

/-- `GET /logs` -/
def logs (log : Log) (limit : ℤ) : List Char := (recentJson log 200000 limit).1

/-! ### The lines of a run -/

/-- The lines that calls write, from the first. -/
def history : LogLevel → List Call → List Line
  | _, [] => []
  | _, .setLevel level :: calls => history level calls
  | level, .log own tag msg wall :: calls =>
      if own.rank < level.rank then history level calls
      else lineOf own tag msg wall :: history level calls

/-- The last lines, as many as are asked for: zero or less asks for all that are held. -/
def newest (limit : ℤ) (lines : List Line) : List Line :=
  lines.drop (lines.length - min 512 (if limit ≤ 0 then 512 else limit.toNat))

/-- The ring holds the last of all lines. -/
structure Holds (log : Log) (lines : List Line) : Prop where
  head : log.head = lines.length % 512
  len : log.len = min 512 lines.length
  kept : ∀ k (inside : k < lines.length), lines.length ≤ k + 512 → log.ring (k % 512) = lines[k]

theorem Holds.pfLog {log : Log} {lines : List Line} (holds : Holds log lines) (level : LogLevel)
    (tag msg : List Char) (wall : ℕ) (shown : ¬level.rank < log.level.rank) :
    Holds (pfLog log level tag msg wall) (lines ++ [lineOf level tag msg wall]) := by
  rw [Web.pfLog, if_neg shown]
  constructor
  · simp only [List.length_append, List.length_singleton, holds.head]
    omega
  · simp only [List.length_append, List.length_singleton, holds.len]
    split_ifs <;> omega
  · intro k inside late
    simp only [List.length_append, List.length_singleton] at inside late
    rw [holds.head]
    by_cases last : k = lines.length
    · subst last
      exact (Function.update_self _ _ _).trans (List.getElem_concat_length rfl _).symm
    · rw [List.getElem_append_left (by omega), ← holds.kept k (by omega) (by omega)]
      exact Function.update_of_ne (by omega) _ _

theorem Holds.run {log : Log} {lines : List Line} (holds : Holds log lines) (calls : List Call) :
    Holds (calls.foldl Log.step log) (lines ++ history log.level calls) := by
  induction calls generalizing log lines with
  | nil => rwa [history, List.append_nil]
  | cons call calls ih =>
      cases call with
      | setLevel level => exact ih ⟨holds.head, holds.len, holds.kept⟩
      | log level tag msg wall =>
          rw [List.foldl_cons, Log.step, history]
          by_cases hidden : level.rank < log.level.rank
          · rw [if_pos hidden, Web.pfLog, if_pos hidden]
            exact ih holds
          · have next := ih (holds.pfLog level tag msg wall hidden)
            rw [if_neg hidden]
            rw [List.append_assoc, List.singleton_append] at next
            rwa [show (Web.pfLog log level tag msg wall).level = log.level by
              rw [Web.pfLog, if_neg hidden]] at next

theorem init_holds : Holds Log.init [] :=
  ⟨rfl, rfl, fun _ inside => absurd inside (Nat.not_lt_zero _)⟩

/-! ### What the buffer gets -/

/-- The array of some lines. -/
def arrayText (lines : List Line) : List Char :=
  '[' :: List.intercalate [','] (lines.map element) ++ [']']

/-- The buffer has as much of a text as there is room for. -/
structure Written (n : ℕ) (text : List Char) (out : List Char × ℕ) : Prop where
  kept : out.1 = text.take (n - 1)
  size : out.2 = text.length ∨ (n ≤ out.2 ∧ n ≤ text.length)

theorem Written.snprintfRoom {n : ℕ} {text : List Char} {out : List Char × ℕ}
    (written : Written n text out) (more : List Char) :
    Written n (text ++ more) (snprintfRoom n out more) := by
  rw [Web.snprintfRoom]
  split_ifs with room
  · obtain size | over_ := written.size
    · refine ⟨?_, Or.inl ?_⟩
      · rw [snprintf, written.kept, size, List.take_append, Nat.sub_right_comm]
      · rw [snprintf, size, List.length_append]
    · omega
  · have full : n ≤ text.length := by
      obtain size | full := written.size
      · omega
      · exact full.2
    refine ⟨?_, Or.inr ⟨by omega, by rw [List.length_append]; omega⟩⟩
    rw [written.kept, List.take_append_of_le_length (by omega)]

theorem intercalate_concat (items : List (List Char)) (item : List Char) :
    List.intercalate [','] (items ++ [item]) =
      List.intercalate [','] items ++ ((if items = [] then [] else [',']) ++ item) := by
  induction items with
  | nil => simp
  | cons first items ih =>
      cases items with
      | nil => simp
      | cons next items =>
          rw [List.cons_append, List.cons_append, List.intercalate_cons_cons,
            List.intercalate_cons_cons, ← List.cons_append, ih, if_neg (List.cons_ne_nil _ _),
            if_neg (List.cons_ne_nil _ _), List.append_assoc _ (List.intercalate _ _)]

theorem foldl_written {n : ℕ} {text : List Char} {out : List Char × ℕ} (written : Written n text out)
    (line : ℕ → Line) (count : ℕ) :
    Written n (text ++ List.intercalate [','] (((List.range count).map line).map element))
      ((List.range count).foldl (fun out i =>
        snprintfRoom n out ((if i = 0 then [] else [',']) ++ element (line i))) out) := by
  induction count with
  | zero => simpa using written
  | succ count ih =>
      have first : ((List.range count).map line).map element = [] ↔ count = 0 := by simp
      rw [List.range_succ, List.foldl_append, List.map_append, List.map_append, List.map_singleton,
        List.map_singleton, intercalate_concat, ← List.append_assoc]
      simp only [first]
      exact ih.snprintfRoom _

theorem Holds.shown {log : Log} {lines : List Line} (holds : Holds log lines) {count : ℕ}
    (few : count ≤ log.len) :
    (List.range count).map (fun i => log.ring (((log.head + 512 - count) % 512 + i) % 512)) =
      lines.drop (lines.length - count) := by
  have len := holds.len
  refine List.ext_getElem (by simp; omega) fun i inside _ => ?_
  rw [List.length_map, List.length_range] at inside
  have slot : ((log.head + 512 - count) % 512 + i) % 512 = (lines.length - count + i) % 512 := by
    rw [holds.head]
    omega
  rw [List.getElem_map, List.getElem_range, List.getElem_drop, slot]
  exact holds.kept _ (by omega) (by omega)

/-- The buffer has the array of the newest lines, as much of it as there is room for. -/
theorem Holds.recentJson {log : Log} {lines : List Line} (holds : Holds log lines) (n : ℕ)
    (limit : ℤ) :
    (recentJson log n limit).1 = (arrayText (newest limit lines)).take (n - 1) := by
  have bound : (if limit ≤ 0 ∨ 512 < limit then 512 else limit.toNat) =
      min 512 (if limit ≤ 0 then 512 else limit.toNat) := by
    split_ifs <;> omega
  have small : min 512 (if limit ≤ 0 then 512 else limit.toNat) ≤ 512 := min_le_left _ _
  simp only [Web.recentJson, bound, newest]
  generalize min 512 (if limit ≤ 0 then 512 else limit.toNat) = max at small ⊢
  have len := holds.len
  have count : (if log.len < max then log.len else max) = min log.len max := by
    split_ifs <;> omega
  have last : lines.length - max = lines.length - min log.len max := by omega
  have begun : Written n ['['] (snprintf n ([], 0) ['[']) := ⟨rfl, Or.inl rfl⟩
  rw [count, last, ← holds.shown (min_le_left _ _)]
  exact ((foldl_written begun _ _).snprintfRoom [']']).kept

/-! ### What is read -/

/-- The time as it is read. -/
def readTime (format : NumberFormat) (ts : ℕ) : ℚ :=
  ((format.read (fixed3 ts)).map Prod.fst).getD 0

/-- A line as an element of the array holds it. -/
def jsonLine (format : NumberFormat) (line : Line) : Json :=
  .obj [("ts", .num (readTime format line.ts)), ("level", .str line.level.name),
    ("msg", .str line.text)]

/-- The whole text is a JSON array of some lines: the parser takes all of it, and it has no bare
control character. -/
structure Readable (format : NumberFormat) (lines : List Line) (text : List Char) : Prop where
  parsed : parseValue format nestingLimit text = some (.arr (lines.map (jsonLine format)), [])
  plain : ∀ c ∈ text, 31 < c.toNat

/-- What of a text is escaped. -/
def escapedOf (n w : ℕ) : List Char → List Char
  | [] => []
  | c :: rest => if w + 7 < n then c :: escapedOf n (w + (jsonEscape c).length) rest else []

theorem escapeFrom_eq (n w : ℕ) (text : List Char) :
    escapeFrom n w text = (escapedOf n w text).flatMap jsonEscape := by
  induction text generalizing w with
  | nil => rfl
  | cons c text ih =>
      rw [escapeFrom, escapedOf]
      split_ifs
      · rw [List.flatMap_cons, ih]
      · rfl

theorem escapedOf_starts (n w : ℕ) (text : List Char) : escapedOf n w text <+: text := by
  induction text generalizing w with
  | nil => exact List.prefix_rfl
  | cons c text ih =>
      rw [escapedOf]
      split_ifs
      · exact (List.prefix_cons_inj c).mpr (ih _)
      · exact List.nil_prefix

/-- A text is escaped to its end where its last character still finds room. -/
theorem escapedOf_eq_iff (n w : ℕ) {text : List Char} (some : text ≠ []) :
    escapedOf n w text = text ↔ w + (text.dropLast.flatMap jsonEscape).length + 7 < n := by
  induction text generalizing w with
  | nil => exact absurd rfl some
  | cons c text ih =>
      rw [escapedOf]
      by_cases last : text = []
      · subst last
        split_ifs with room
        · simpa [escapedOf] using room
        · simpa using room
      · rw [List.dropLast_cons_of_ne_nil last, List.flatMap_cons, List.length_append]
        split_ifs with room
        · rw [List.cons_inj_right, ih _ last]
          omega
        · exact ⟨False.elim, fun other => by omega⟩

/-- The escapes of a line up to its last character leave room for that one. -/
def Line.Fits (line : Line) : Prop := (line.text.toList.dropLast.flatMap jsonEscape).length ≤ 504

/-- A line as far as it is shown. -/
def Line.cut (line : Line) : Line :=
  { line with
    text := String.ofList (escapedOf 512 0 line.text.toList)
    whole := by
      have whole := line.whole
      rw [unbroken, List.all_eq_true] at whole ⊢
      rw [String.toList_ofList]
      exact fun c inside => whole c ((escapedOf_starts 512 0 line.text.toList).subset inside) }

theorem cut_text_iff (line : Line) : line.cut.text = line.text ↔ line.Fits := by
  rw [Line.cut, Line.Fits, ← String.toList_inj, String.toList_ofList]
  by_cases none_ : line.text.toList = []
  · simp [none_, escapedOf]
  · rw [escapedOf_eq_iff 512 0 none_]
    omega

theorem isEscape_jsonEscape (c : Char) : IsEscape c (jsonEscape c) := by
  unfold jsonEscape
  split_ifs with quote back line ret tab low
  · exact Or.inr (Or.inl ⟨_, rfl, by rw [quote]; decide⟩)
  · exact Or.inr (Or.inl ⟨_, rfl, by rw [back]; decide⟩)
  · exact Or.inr (Or.inl ⟨_, rfl, by rw [line]; decide⟩)
  · exact Or.inr (Or.inl ⟨_, rfl, by rw [ret]; decide⟩)
  · exact Or.inr (Or.inl ⟨_, rfl, by rw [tab]; decide⟩)
  · exact Or.inr (Or.inr ⟨low, rfl⟩)
  · exact Or.inl ⟨rfl, quote, back⟩

theorem fixed3_chars (ts : ℕ) : ∀ c ∈ fixed3 ts, c.isDigit = true ∨ c = '.' := by
  have digit (n : ℕ) : (Nat.digitChar (n % 10)).isDigit = true := by
    have small : n % 10 < 10 := Nat.mod_lt n (by decide)
    interval_cases n % 10 <;> rfl
  simp only [fixed3, List.mem_append, List.mem_cons, List.not_mem_nil, or_false]
  rintro c (whole | rfl | rfl | rfl | rfl)
  · exact Or.inl (toDigits_isDigit c whole)
  · exact Or.inr rfl
  · exact Or.inl (digit _)
  · exact Or.inl (digit _)
  · exact Or.inl (digit _)

theorem fixed3_starts (ts : ℕ) : ∃ first rest, fixed3 ts = first :: rest ∧ first.isDigit = true := by
  obtain ⟨first, rest, same⟩ :=
    List.exists_cons_of_ne_nil (Nat.toDigits_ne_nil (b := 10) (n := ts / 1000))
  have digit : first ∈ Nat.toDigits 10 (ts / 1000) := same ▸ List.mem_cons_self
  exact ⟨first, _, by rw [fixed3, same, List.cons_append], toDigits_isDigit first digit⟩

section Reading

variable {format : NumberFormat}

/-- The number library reads a time to its end. -/
def ReadsTimes (format : NumberFormat) : Prop :=
  ∀ ts, ∃ x, format.read (fixed3 ts) = some (x, (fixed3 ts).length)

theorem reads_time (times : ReadsTimes format) (limit ts : ℕ) :
    Reads EndsNumber (parseValue format limit) (fixed3 ts) (.num (readTime format ts)) := by
  intro rest ends
  obtain ⟨x, read⟩ := times ts
  have chars : ∀ c ∈ fixed3 ts, isNumberChar c = true := by
    intro c inside
    rcases fixed3_chars ts c inside with digit | rfl
    · rw [isNumberChar, digit, Bool.true_or]
    · decide
  have number : parseNumber format (fixed3 ts ++ rest) = some (.num x, rest) := by
    obtain ⟨first, more, same, -⟩ := fixed3_starts ts
    have some_ : (fixed3 ts).length ≠ 0 := by rw [same]; exact Nat.succ_ne_zero _
    rw [parseNumber, takeWhile_number chars ends, read]
    simp only [if_neg some_, List.drop_left]
  obtain ⟨first, more, same, digit⟩ := fixed3_starts ts
  have opens {other : Char} (never : other.isDigit = false) : first ≠ other := by
    rintro rfl
    rw [digit] at never
    cases never
  rw [readTime, read]
  rw [same, List.cons_append] at number ⊢
  rw [parseValue_scalar (opens (by decide)) (opens (by decide)),
    parseScalar_number (by rw [startsNumber, digit, Bool.or_true]), number]
  rfl

theorem reads_string {e : Char → List Char} (are : ∀ c, IsEscape c (e c)) {s : String}
    (whole : unbroken s = true) (limit : ℕ) :
    Reads EndsNumber (parseValue format limit) ('"' :: (s.toList.flatMap e ++ ['"'])) (.str s) := by
  intro rest _
  have read := parseString_escaped are whole rest
  rw [List.cons_append, List.append_assoc, List.singleton_append,
    parseValue_scalar (by decide) (by decide), parseScalar, read]
  rfl

theorem plain_name (level : LogLevel) : level.name.toList.flatMap escape = level.name.toList := by
  cases level <;> decide

theorem element_eq (line : Line) :
    element line = '\x7b' :: (List.intercalate [','] [
      printString "ts" ++ ':' :: fixed3 line.ts,
      printString "level" ++ ':' :: '"' :: (line.level.name.toList.flatMap escape ++ ['"']),
      printString "msg" ++ ':' :: '"' :: (line.cut.text.toList.flatMap jsonEscape ++ ['"'])] ++
        ['\x7d']) := by
  have ts : printString "ts" = "\"ts\"".toList := by decide
  have level : printString "level" = "\"level\"".toList := by decide
  have msg : printString "msg" = "\"msg\"".toList := by decide
  unfold element
  rw [escapeFrom_eq, plain_name, Line.cut, String.toList_ofList, ts, level, msg]
  simp

/-- An element is read as its line, as far as that is shown. -/
theorem reads_element (times : ReadsTimes format) (limit : ℕ) (line : Line) :
    Reads EndsNumber (parseValue format (limit + 1)) (element line) (jsonLine format line.cut) := by
  intro rest _
  have named : unbroken line.level.name = true := by cases line.level <;> decide
  have number : ∃ first rest, fixed3 line.ts = first :: rest ∧ startsValue first = true := by
    obtain ⟨first, rest, same, digit⟩ := fixed3_starts line.ts
    exact ⟨first, rest, same, by rw [startsValue, startsNumber, digit, Bool.or_true, Bool.or_true]⟩
  have ts : Reads EndsNumber (parseMember (parseValue format limit))
      (printString "ts" ++ ':' :: fixed3 line.ts) ("ts", .num (readTime format line.ts)) :=
    parseMember_written (by decide) (reads_time times limit line.ts) number
  have level : Reads EndsNumber (parseMember (parseValue format limit))
      (printString "level" ++ ':' :: '"' :: (line.level.name.toList.flatMap escape ++ ['"']))
      ("level", .str line.level.name) :=
    parseMember_written (by decide) (reads_string isEscape_escape named limit) ⟨'"', _, rfl, rfl⟩
  have msg : Reads EndsNumber (parseMember (parseValue format limit))
      (printString "msg" ++ ':' :: '"' :: (line.cut.text.toList.flatMap jsonEscape ++ ['"']))
      ("msg", .str line.cut.text) :=
    parseMember_written (by decide) (reads_string isEscape_jsonEscape line.cut.whole limit)
      ⟨'"', _, rfl, rfl⟩
  have inside := parseItems_written [(_, _), (_, _), (_, _)]
    (List.forall_mem_cons.mpr ⟨ts, List.forall_mem_cons.mpr ⟨level, List.forall_mem_singleton.mpr msg⟩⟩)
    (by simp [printString, startsValue]) (by decide : '\x7d' ∈ [']', '\x7d']) rest
  rw [element_eq, List.cons_append, List.append_assoc, List.singleton_append, parseValue]
  simp only [List.map_cons, List.map_nil] at inside
  rw [inside]
  rfl

/-- The array is read as its lines, each as far as it is shown. -/
theorem parse_arrayText (times : ReadsTimes format) (lines : List Line) :
    parseValue format nestingLimit (arrayText lines) =
      some (.arr ((lines.map Line.cut).map (jsonLine format)), []) := by
  have inside := @parseItems_written _ _ ']'
    (lines.map fun line => (element line, jsonLine format line.cut))
    (List.forall_mem_map.mpr fun line _ => reads_element times 998 line)
    (List.forall_mem_map.mpr fun line _ => ⟨'\x7b', _, element_eq line, by decide⟩) (by decide) []
  rw [List.map_map, List.map_map] at inside
  rw [List.map_map]
  exact congrArg (Option.map _) inside

theorem parse_take_arrayText (lawful : format.Lawful) (times : ReadsTimes format)
    (lines : List Line) {room : ℕ} (short : room < (arrayText lines).length) :
    parseValue format nestingLimit ((arrayText lines).take room) = none := by
  have whole := parse_arrayText times lines
  have closed : Closed (parseItems (parseValue format 999) ']') :=
    parseItems_closed (parseValue_stopped lawful 999) rfl (by decide)
  obtain ⟨inside, text⟩ : ∃ inside, arrayText lines = '[' :: inside := ⟨_, rfl⟩
  rw [text] at whole short ⊢
  cases room with
  | zero => rfl
  | succ room =>
      obtain ⟨⟨values, after⟩, read, same⟩ := Option.map_eq_some_iff.mp whole
      obtain ⟨-, rfl⟩ := Prod.mk.inj same
      have cut := closed.eq_none_of_prefix read (List.take_prefix room inside) (by
        intro all
        rw [List.take_eq_self_iff] at all
        rw [List.length_cons] at short
        omega)
      exact congrArg (Option.map _) cut

end Reading

/-! ### No bare control character -/

theorem plain_of_all {text : List Char} (all : text.all (fun c => 31 < c.toNat) = true) :
    ∀ c ∈ text, 31 < c.toNat := by
  simpa using all

theorem jsonEscape_plain (c : Char) : ∀ d ∈ jsonEscape c, 31 < d.toNat := by
  have digits : ∀ n < 32, 31 < (hexDigit (n / 16)).toNat ∧ 31 < (hexDigit (n % 16)).toNat := by
    decide
  unfold jsonEscape
  split_ifs with _ _ _ _ _ low
  iterate 5 exact plain_of_all (by decide)
  · simp only [List.forall_mem_cons]
    exact ⟨by decide, by decide, by decide, by decide, (digits c.toNat low).1,
      (digits c.toNat low).2, List.forall_mem_nil _⟩
  · exact List.forall_mem_singleton.mpr (not_lt.mp low)

theorem element_plain (line : Line) : ∀ c ∈ element line, 31 < c.toNat := by
  have time : ∀ c ∈ fixed3 line.ts, 31 < c.toNat := by
    intro c inside
    rcases fixed3_chars line.ts c inside with digit | rfl
    · simp only [Char.isDigit, Bool.and_eq_true, decide_eq_true_eq, ge_iff_le,
        UInt32.le_iff_toNat_le] at digit
      exact lt_of_lt_of_le (by decide) digit.1
    · decide
  have name : ∀ c ∈ line.level.name.toList, 31 < c.toNat := by
    cases line.level <;> exact plain_of_all (by decide)
  have text : ∀ c ∈ escapeFrom 512 0 line.text.toList, 31 < c.toNat := by
    rw [escapeFrom_eq]
    intro d inside
    obtain ⟨c, -, printed⟩ := List.mem_flatMap.mp inside
    exact jsonEscape_plain c d printed
  unfold element
  simp only [List.forall_mem_append]
  exact ⟨⟨⟨⟨⟨⟨plain_of_all (by decide), time⟩, plain_of_all (by decide)⟩, name⟩,
    plain_of_all (by decide)⟩, text⟩, plain_of_all (by decide)⟩

theorem arrayText_plain (lines : List Line) : ∀ c ∈ arrayText lines, 31 < c.toNat := by
  have inside : ∀ c ∈ List.intercalate [','] (lines.map element), 31 < c.toNat := by
    induction lines using List.reverseRecOn with
    | nil => exact nofun
    | append_singleton lines line ih =>
        rw [List.map_append, List.map_singleton, intercalate_concat]
        simp only [List.forall_mem_append]
        refine ⟨ih, ?_, element_plain line⟩
        split_ifs <;> exact plain_of_all (by decide)
  rw [arrayText, List.cons_append, List.forall_mem_cons, List.forall_mem_append]
  exact ⟨by decide, inside, plain_of_all (by decide)⟩

/-! ### When the log is readable -/

section Whole

variable {format : NumberFormat}

theorem jsonLine_cut_iff (line : Line) :
    jsonLine format line.cut = jsonLine format line ↔ line.Fits := by
  rw [← cut_text_iff]
  simp [jsonLine, Line.cut]

theorem not_readable (lawful : format.Lawful) (times : ReadsTimes format) {lines : List Line}
    {room : ℕ} (short : room < (arrayText lines).length) (other : List Line) :
    ¬Readable format other ((arrayText lines).take room) := by
  intro read
  have parsed := read.parsed
  rw [parse_take_arrayText lawful times lines short] at parsed
  cases parsed

/-- The array of the lines is read as them, where it fits the buffer and each line its own. -/
theorem readable_iff (lawful : format.Lawful) (times : ReadsTimes format) (lines : List Line)
    (room : ℕ) :
    (Readable format lines ((arrayText lines).take room) ↔
        (arrayText lines).length ≤ room ∧ ∀ line ∈ lines, line.Fits) ∧
      (Readable format (lines.map Line.cut) ((arrayText lines).take room) ↔
        (arrayText lines).length ≤ room) := by
  by_cases fits : (arrayText lines).length ≤ room
  · have shown := parse_arrayText times lines
    have plain := arrayText_plain lines
    rw [List.take_of_length_le fits]
    refine ⟨⟨fun read => ⟨fits, ?_⟩, fun whole => ⟨?_, plain⟩⟩, iff_of_true ⟨shown, plain⟩ fits⟩
    · have same := shown.symm.trans read.parsed
      simp only [List.map_map, Option.some.injEq, Prod.mk.injEq, and_true, Json.arr.injEq,
        List.map_inj_left] at same
      exact fun line inside => (jsonLine_cut_iff line).mp (same line inside)
    · have same : (lines.map Line.cut).map (jsonLine format) = lines.map (jsonLine format) := by
        rw [List.map_map, List.map_inj_left]
        exact fun line inside => (jsonLine_cut_iff line).mpr (whole.2 line inside)
      rw [shown, same]
  · have never := not_readable lawful times (not_le.mp fits)
    exact ⟨iff_of_false (never _) fun both => fits both.1, iff_of_false (never _) fits⟩

/-- The log is a JSON array of the newest lines exactly where its array is shorter than the buffer
and no line has more escapes than its own. -/
theorem logs_readable_iff (lawful : format.Lawful) (times : ReadsTimes format) (calls : List Call)
    (limit : ℤ) :
    let shown := newest limit (history .info calls)
    let text := logs (calls.foldl Log.step Log.init) limit
    (Readable format shown text ↔
        (arrayText shown).length < 200000 ∧ ∀ line ∈ shown, line.Fits) ∧
      (Readable format (shown.map Line.cut) text ↔ (arrayText shown).length < 200000) := by
  intro shown text
  have printed : text = (arrayText shown).take 199999 := (init_holds.run calls).recentJson 200000 limit
  rw [printed, Nat.lt_succ_iff]
  exact readable_iff lawful times shown 199999

end Whole

/-- A number library that takes all there is for its first digit. -/
def wholeFormat : NumberFormat where
  digits := digitFormat.digits
  read text := (digitFormat.read text).map fun found => (found.1, text.length)

theorem wholeFormat_lawful : wholeFormat.Lawful where
  starts := digitFormat_lawful.starts
  chars := digitFormat_lawful.chars
  reads x := by
    obtain ⟨kept, read⟩ := digitFormat_lawful.reads x
    exact ⟨kept, Option.map_eq_some_iff.mpr ⟨_, read, rfl⟩⟩
  within text x used found := by
    obtain ⟨_, -, same⟩ := Option.map_eq_some_iff.mp found
    exact (Prod.mk.inj same).2.ge
  signed x kept used found := by
    obtain ⟨⟨other, size⟩, read, same⟩ := Option.map_eq_some_iff.mp found
    obtain ⟨rfl, -⟩ := Prod.mk.inj same
    exact digitFormat_lawful.signed x _ _ read

theorem wholeFormat_times : ReadsTimes wholeFormat := by
  intro ts
  obtain ⟨first, rest, same, digit⟩ := fixed3_starts ts
  have read : ∃ found, digitFormat.read (first :: rest) = some found := by
    simp only [digitFormat]
    split
    · next minus =>
        rw [(List.cons.inj minus).1] at digit
        cases digit
    · next one =>
        rw [← (List.cons.inj one).1, if_pos digit]
        exact ⟨_, rfl⟩
    · next none_ => cases none_
  obtain ⟨found, read⟩ := read
  exact ⟨found.1, Option.map_eq_some_iff.mpr ⟨found, same ▸ read, rfl⟩⟩

/-- A line and all lines are asked for. -/
theorem logs_readable_once :
    let calls := [Call.log .info ['t'] ['"'] 0]
    let shown := newest 0 (history .info calls)
    let text := logs (calls.foldl Log.step Log.init) 0
    (Readable wholeFormat shown text ↔
        (arrayText shown).length < 200000 ∧ ∀ line ∈ shown, line.Fits) ∧
      (Readable wholeFormat (shown.map Line.cut) text ↔ (arrayText shown).length < 200000) :=
  logs_readable_iff wholeFormat_lawful wholeFormat_times _ 0

theorem history_replicate (tag msg : List Char) (wall n : ℕ) :
    history .info (List.replicate n (.log .info tag msg wall)) =
      List.replicate n (lineOf .info tag msg wall) := by
  induction n with
  | zero => rfl
  | succ n ih => rw [List.replicate_succ, history, if_neg (lt_irrefl _), ih, List.replicate_succ]

theorem length_arrayText (n : ℕ) (line : Line) :
    n * (element line).length < (arrayText (List.replicate n line)).length := by
  have inside : n * (element line).length ≤
      (List.intercalate [','] ((List.replicate n line).map element)).length := by
    induction n with
    | zero => simp
    | succ n ih =>
        rw [List.replicate_succ', List.map_append, List.map_singleton, intercalate_concat,
          Nat.succ_mul]
        simp only [List.length_append]
        omega
  rw [arrayText, List.length_append, List.length_cons]
  omega

theorem length_escapeFrom_quotes (m w : ℕ) (room : w + 2 * m + 6 ≤ 512) :
    (escapeFrom 512 w (List.replicate m '"')).length = 2 * m := by
  induction m generalizing w with
  | zero => rfl
  | succ m ih =>
      have quote : jsonEscape '"' = ['\\', '"'] := rfl
      rw [List.replicate_succ, escapeFrom, if_pos (by omega), List.length_append, quote,
        ih _ (by simp only [List.length_cons, List.length_nil]; omega)]
      simp only [List.length_cons, List.length_nil]
      omega

theorem length_element_quotes {m : ℕ} (short : m ≤ 207) :
    2 * m ≤ (element (lineOf .info ['t'] (List.replicate m '"') 0)).length := by
  have text : (lineOf .info ['t'] (List.replicate m '"') 0).text.toList =
      ['[', 't', ']', ' '] ++ List.replicate m '"' := by
    have all : ('[' :: ['t'].take 31 ++ [']', ' '] ++ (List.replicate m '"').take 207).take 255 =
        ['[', 't', ']', ' '] ++ List.replicate m '"' := by
      rw [List.take_of_length_le (by simpa using short : (List.replicate m '"').length ≤ 207)]
      exact List.take_of_length_le (by simp; omega)
    have solid : ['[', 't', ']', ' '].all (fun c => decide (c.toNat ≠ 0)) = true := rfl
    change (cString _).toList = _
    rw [all, cString, String.toList_ofList, List.takeWhile_eq_self_iff]
    intro c inside
    rcases List.mem_append.mp inside with front | quote
    · exact List.all_eq_true.mp solid c front
    · rw [List.eq_of_mem_replicate quote]
      rfl
  have plain (w : ℕ) (room : w + 7 < 512) {c : Char} (same : jsonEscape c = [c])
      (rest : List Char) : escapeFrom 512 w (c :: rest) = c :: escapeFrom 512 (w + 1) rest := by
    rw [escapeFrom, if_pos room, same]
    rfl
  have part (line : Line) : escapeFrom 512 0 line.text.toList <:+: element line := ⟨_, _, rfl⟩
  have escaped := (part (lineOf .info ['t'] (List.replicate m '"') 0)).length_le
  rw [text, List.cons_append, List.cons_append, List.cons_append, List.cons_append,
    plain 0 (by decide) rfl, plain 1 (by decide) rfl, plain 2 (by decide) rfl,
    plain 3 (by decide) rfl] at escaped
  simp only [List.length_cons, List.nil_append, length_escapeFrom_quotes m 4 (by omega)] at escaped
  exact le_trans (by omega) escaped

/-- A ring full of quotes: the array is cut. -/
theorem full_log_cut :
    let calls := List.replicate 512 (Call.log .info ['t'] (List.replicate 200 '"') 0)
    ¬Readable wholeFormat (newest 512 (history .info calls))
      (logs (calls.foldl Log.step Log.init) 512) := by
  intro calls
  have printed := (init_holds.run calls).recentJson 200000 512
  have all : newest 512 (history .info calls) =
      List.replicate 512 (lineOf .info ['t'] (List.replicate 200 '"') 0) := by
    rw [history_replicate, newest, List.length_replicate]
    rfl
  have size : 2 * 200 ≤ (element (lineOf .info ['t'] (List.replicate 200 '"') 0)).length :=
    length_element_quotes (by omega)
  have long := length_arrayText 512 (lineOf .info ['t'] (List.replicate 200 '"') 0)
  rw [List.nil_append, show Log.init.level = .info from rfl, all] at printed
  rw [logs, printed, all]
  exact not_readable wholeFormat_lawful wholeFormat_times (by omega) _

end PiFire.Web
