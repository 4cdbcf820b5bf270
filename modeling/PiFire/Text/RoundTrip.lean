import PiFire.Text.Shape

/-!
# Trees through a text

A tree that is printed and parsed comes back with every number as the library
reads what it wrote. A printed object that is cut short does not parse at all:
its last brace is the only place where the reader of objects stops.
-/

namespace PiFire

open Parsing

/-! ## Where a number ends -/

/-- A symbol no number goes on with. -/
def EndsNumber (c : Char) : Prop := isNumberChar c = false

instance : DecidablePred EndsNumber :=
  fun c => inferInstanceAs (Decidable (isNumberChar c = false))

/-- What the text of a value may begin with. -/
def startsValue (c : Char) : Bool := c ∈ ['n', 'f', 't', '"', '[', '{'] || startsNumber c

theorem of_blank {p : Char → Bool} (codes : ∀ n ≤ 32, p (Char.ofNat n) = false) {c : Char}
    (blank : isBlank c = true) : p c = false := by
  simp only [isBlank, decide_eq_true_eq] at blank
  have never := codes c.toNat blank
  rwa [Char.ofNat_toNat] at never

theorem endsNumber_of_blank {c : Char} (blank : isBlank c = true) : EndsNumber c :=
  of_blank (by decide) blank

theorem isBlank_of_startsValue {c : Char} (starts : startsValue c = true) : isBlank c = false := by
  cases blank : isBlank c with
  | false => rfl
  | true =>
      have never := of_blank (p := startsValue) (by decide) blank
      rw [starts] at never
      cases never

theorem ne_of_startsValue {c other : Char} (starts : startsValue c = true)
    (never : startsValue other = false) : c ≠ other := by
  rintro rfl
  rw [starts] at never
  cases never

/-! ## Numbers and other values without values inside -/

section Values

variable {format : NumberFormat}

theorem parseScalar_number {c : Char} (starts : startsNumber c = true) (rest : List Char) :
    parseScalar format (c :: rest) = parseNumber format (c :: rest) := by
  have apart {other : Char} (never : startsNumber other = false) : c ≠ other := by
    rintro rfl
    rw [starts] at never
    cases never
  rw [parseScalar.eq_def]
  split
  · next same => exact absurd (List.cons.inj same).1 (apart (by decide))
  · next same => exact absurd (List.cons.inj same).1 (apart (by decide))
  · next same => exact absurd (List.cons.inj same).1 (apart (by decide))
  · next same => exact absurd (List.cons.inj same).1 (apart (by decide))
  · next same =>
      obtain ⟨rfl, rfl⟩ := List.cons.inj same
      rw [if_pos starts]
  · next same => cases same

theorem parseValue_scalar {c : Char} (bracket : c ≠ '[') (brace : c ≠ '{') (limit : ℕ)
    (rest : List Char) : parseValue format limit (c :: rest) = parseScalar format (c :: rest) := by
  cases limit with
  | zero => rw [parseValue]
  | succ limit =>
      rw [parseValue.eq_def]
      split
      · next same => cases same
      · next same => exact absurd (List.cons.inj same).1 bracket
      · next same => exact absurd (List.cons.inj same).1 brace
      · next => rfl

theorem takeWhile_number {digits rest : List Char}
    (chars : ∀ c ∈ digits, isNumberChar c = true)
    (ends : ∀ c, rest.head? = some c → EndsNumber c) :
    (digits ++ rest).takeWhile isNumberChar = digits := by
  rw [List.takeWhile_append_of_pos chars]
  cases rest with
  | nil => rw [List.takeWhile_nil, List.append_nil]
  | cons c rest =>
      have plain : isNumberChar c = false := ends c rfl
      rw [List.takeWhile_cons_of_neg (by simp [plain]), List.append_nil]

theorem kept_read (lawful : format.Lawful) (x : ℚ) :
    format.read (format.digits x) = some (format.kept x, (format.digits x).length) := by
  obtain ⟨kept, read⟩ := lawful.reads x
  rw [NumberFormat.kept, read]
  rfl

theorem reads_number (lawful : format.Lawful) (x : ℚ) :
    Reads EndsNumber (parseNumber format) (format.digits x) (.num (format.kept x)) := by
  intro rest ends
  obtain ⟨first, more, same, -⟩ := lawful.starts x
  have some_ : (format.digits x).length ≠ 0 := by
    rw [same]
    exact Nat.succ_ne_zero _
  rw [parseNumber, takeWhile_number (lawful.chars x) ends, kept_read lawful]
  simp only [if_neg some_, List.drop_left]

theorem parseNumber_stopped (lawful : format.Lawful) : Stopped EndsNumber (parseNumber format) := by
  intro text left value symbol found stop more
  unfold parseNumber at found
  split at found
  · next x used read =>
      split_ifs at found with empty
      obtain ⟨rfl, rest⟩ := Prod.mk.inj (Option.some_inj.mp found)
      have within := lawful.within _ _ _ read
      obtain ⟨run, tail, rfl, chars, ends⟩ : ∃ run tail, text = run ++ tail ∧
          (∀ c ∈ run, isNumberChar c = true) ∧ ∀ c, tail.head? = some c → EndsNumber c := by
        refine ⟨text.takeWhile isNumberChar, text.dropWhile isNumberChar,
          (List.takeWhile_append_dropWhile ..).symm, fun c => List.mem_takeWhile_imp, ?_⟩
        intro c head
        have never := List.head?_dropWhile_not isNumberChar text
        rw [head] at never
        simpa [EndsNumber] using never
      rw [takeWhile_number chars ends] at read within
      -- the symbol that is left is no part of the run, so all of the run was used
      have whole : used = run.length := by
        by_contra short
        have inside : symbol ∈ run := by
          rw [List.drop_append_of_le_length within] at rest
          cases left_ : run.drop used with
          | nil =>
              rw [List.drop_eq_nil_iff] at left_
              omega
          | cons other others =>
              rw [left_, List.cons_append] at rest
              rw [← (List.cons.inj rest).1]
              exact List.mem_of_mem_drop (left_ ▸ List.mem_cons_self)
        rw [EndsNumber, chars symbol inside] at stop
        cases stop
      subst whole
      rw [List.drop_left] at rest
      subst rest
      rw [parseNumber, List.append_assoc, takeWhile_number chars (by
        intro c head
        obtain rfl := Option.some_inj.mp head
        exact stop), read]
      simp only [if_neg empty, List.drop_left]
  · cases found

theorem parseScalar_stopped (lawful : format.Lawful) : Stopped EndsNumber (parseScalar format) := by
  intro text left value symbol found stop more
  rw [parseScalar.eq_def] at found
  split at found
  · obtain ⟨rfl, rfl⟩ := Prod.mk.inj (Option.some_inj.mp found)
    rfl
  · obtain ⟨rfl, rfl⟩ := Prod.mk.inj (Option.some_inj.mp found)
    rfl
  · obtain ⟨rfl, rfl⟩ := Prod.mk.inj (Option.some_inj.mp found)
    rfl
  · next rest =>
      obtain ⟨⟨s, after⟩, read, same⟩ := Option.map_eq_some_iff.mp found
      obtain ⟨rfl, rfl⟩ := Prod.mk.inj same
      rw [List.cons_append, parseScalar, ← List.cons_append, parseString_closed read more]
      rfl
  · next c rest _ _ _ _ =>
      split_ifs at found with starts
      rw [List.cons_append, parseScalar_number starts, ← List.cons_append]
      exact parseNumber_stopped lawful found stop more
  · cases found

/-! ## Items and members -/

theorem length_le_intercalate {texts : List (List Char)} (some_ : ∀ text ∈ texts, text ≠ []) :
    texts.length ≤ (List.intercalate [','] texts).length := by
  induction texts with
  | nil => exact Nat.zero_le _
  | cons text others ih =>
      have first := List.length_pos_iff.mpr (some_ text List.mem_cons_self)
      cases others with
      | nil =>
          rw [List.intercalate_singleton]
          exact first
      | cons next others =>
          have later := ih fun text inside => some_ text (List.mem_cons_of_mem _ inside)
          rw [List.intercalate_cons_cons, List.length_append, List.length_append,
            List.length_cons]
          simp only [List.length_cons, List.length_nil] at later ⊢
          omega

theorem parseItems_written {α : Type} {item : Reader Char α} {close : Char}
    (written : List (List Char × α))
    (reads : ∀ entry ∈ written, Reads EndsNumber item entry.1 entry.2)
    (solid : ∀ entry ∈ written, ∃ first rest, entry.1 = first :: rest ∧ startsValue first = true)
    (closing : close ∈ [']', '}']) (left : List Char) :
    parseItems item close (List.intercalate [','] (written.map Prod.fst) ++ close :: left) =
      some (written.map Prod.snd, left) := by
  have ends : EndsNumber close ∧ isBlank close = false ∧ startsValue close = false ∧
      ',' ≠ close := by
    simp only [List.mem_cons, List.not_mem_nil, or_false] at closing
    rcases closing with rfl | rfl
    · decide
    · decide
  obtain ⟨ends, shown, never, apart⟩ := ends
  have starts : ∀ entry ∈ written,
      ∃ first rest, entry.1 = first :: rest ∧ isBlank first = false := by
    intro entry inside
    obtain ⟨first, rest, same, starts⟩ := solid entry inside
    exact ⟨first, rest, same, isBlank_of_startsValue starts⟩
  cases written with
  | nil =>
      have skipped : skipBlank (close :: left) = close :: left :=
        List.dropWhile_cons_of_neg (by simp [shown])
      change parseItems item close (close :: left) = _
      rw [parseItems, skipped]
      simp only [if_true]
      rfl
  | cons entry others =>
      have enough : (entry :: others).length ≤
          (List.intercalate [','] ((entry :: others).map Prod.fst) ++ close :: left).length := by
        have solid_ : ∀ text ∈ (entry :: others).map Prod.fst, text ≠ [] := by
          rintro text inside rfl
          obtain ⟨entry, inside, same⟩ := List.mem_map.mp inside
          obtain ⟨first, rest, begins, -⟩ := starts entry inside
          rw [same] at begins
          cases begins
        have items := length_le_intercalate solid_
        rw [List.length_map] at items
        rw [List.length_append]
        omega
      have blanks : isBlank ',' = false ∧ isBlank close = false := ⟨by decide, shown⟩
      have found := readSeparated_written (by decide : EndsNumber ',') ends apart blanks
        (List.cons_ne_nil entry others) reads starts enough left
      obtain ⟨first, rest, same, begins⟩ := solid entry List.mem_cons_self
      obtain ⟨more, text⟩ : ∃ more, List.intercalate [','] ((entry :: others).map Prod.fst) =
          first :: more := by
        cases others with
        | nil => exact ⟨rest, by rw [List.map_singleton, List.intercalate_singleton, same]⟩
        | cons next others =>
            refine ⟨rest ++ ([','] ++ List.intercalate [','] ((next :: others).map Prod.fst)), ?_⟩
            rw [List.map_cons, List.map_cons, List.intercalate_cons_cons, same, List.append_assoc,
              List.cons_append]
      have skipped : skipBlank (first :: more ++ close :: left) = first :: more ++ close :: left :=
        List.dropWhile_cons_of_neg (by simp [isBlank_of_startsValue begins])
      rw [text] at found ⊢
      rw [parseItems, skipped]
      simp only [List.cons_append, if_neg (ne_of_startsValue begins never)]
      exact found

theorem parseMember_written {value : Reader Char Json} {name : String} {text : List Char}
    {held : Json} (whole : unbroken name = true) (reads : Reads EndsNumber value text held)
    (solid : ∃ first rest, text = first :: rest ∧ startsValue first = true) :
    Reads EndsNumber (parseMember value) (printString name ++ ':' :: text) (name, held) := by
  intro rest ends
  obtain ⟨first, more, rfl, begins⟩ := solid
  have colon : skipBlank (':' :: (first :: more ++ rest)) = ':' :: (first :: more ++ rest) :=
    List.dropWhile_cons_of_neg (by decide)
  have skipped : skipBlank (first :: more ++ rest) = first :: more ++ rest :=
    List.dropWhile_cons_of_neg (by simp [isBlank_of_startsValue begins])
  rw [List.append_assoc, List.cons_append, parseMember, parseString_printed whole]
  simp only [colon, skipped, reads rest ends, Option.map_some]

/-! ## Whole trees -/

theorem printItems_eq (items : List Json) :
    printItems format items = items.map (printUnformatted format) := by
  induction items with
  | nil => rfl
  | cons item rest ih => rw [printItems, ih, List.map_cons]

theorem printMembers_eq (members : List (String × Json)) :
    printMembers format members =
      members.map fun entry => printString entry.1 ++ ':' :: printUnformatted format entry.2 := by
  induction members with
  | nil => rfl
  | cons entry rest ih => rw [printMembers, ih, List.map_cons]

theorem printUnformatted_starts (lawful : format.Lawful) (node : Json) :
    ∃ first rest, printUnformatted format node = first :: rest ∧ startsValue first = true := by
  cases node with
  | num x =>
      obtain ⟨first, rest, same, starts⟩ := lawful.starts x
      refine ⟨first, rest, same, ?_⟩
      rw [startsValue, starts, Bool.or_true]
  | bool b => cases b <;> exact ⟨_, _, rfl, by decide⟩
  | _ => exact ⟨_, _, rfl, by decide⟩

theorem reads_array (lawful : format.Lawful) {limit : ℕ} {items : List Json}
    (reads : ∀ item ∈ items, Reads EndsNumber (parseValue format limit)
      (printUnformatted format item) (item.mapNumbers format.kept)) :
    Reads EndsNumber (parseValue format (limit + 1)) (printUnformatted format (.arr items))
      ((Json.arr items).mapNumbers format.kept) := by
  intro rest _
  have inside := parseItems_written
    (items.map fun item => (printUnformatted format item, item.mapNumbers format.kept))
    (by
      rintro entry inside
      obtain ⟨item, among, rfl⟩ := List.mem_map.mp inside
      exact reads item among)
    (by
      rintro entry inside
      obtain ⟨item, -, rfl⟩ := List.mem_map.mp inside
      exact printUnformatted_starts lawful item)
    (by decide : ']' ∈ [']', '}']) rest
  simp only [List.map_map, Function.comp_def] at inside
  simp only [printUnformatted, printItems_eq, List.cons_append, List.append_assoc,
    List.nil_append, parseValue, inside, Option.map_some, Json.mapNumbers,
    Json.mapNumbersItems_eq]

theorem reads_object (lawful : format.Lawful) {limit : ℕ} {members : List (String × Json)}
    (reads : ∀ entry ∈ members, unbroken entry.1 = true ∧
      Reads EndsNumber (parseValue format limit) (printUnformatted format entry.2)
        (entry.2.mapNumbers format.kept)) :
    Reads EndsNumber (parseValue format (limit + 1)) (printUnformatted format (.obj members))
      ((Json.obj members).mapNumbers format.kept) := by
  intro rest _
  have inside := parseItems_written
    (members.map fun entry =>
      (printString entry.1 ++ ':' :: printUnformatted format entry.2,
        (entry.1, entry.2.mapNumbers format.kept)))
    (by
      rintro entry inside
      obtain ⟨member, among, rfl⟩ := List.mem_map.mp inside
      obtain ⟨whole, value⟩ := reads member among
      exact parseMember_written whole value (printUnformatted_starts lawful member.2))
    (by
      rintro entry inside
      obtain ⟨member, -, rfl⟩ := List.mem_map.mp inside
      exact ⟨'"', _, rfl, by decide⟩)
    (by decide : '}' ∈ [']', '}']) rest
  simp only [List.map_map, Function.comp_def] at inside
  simp only [printUnformatted, printMembers_eq, List.cons_append, List.append_assoc,
    List.nil_append, parseValue, inside, Option.map_some, Json.mapNumbers,
    Json.mapNumbersMembers_eq]

mutual

/-- A printed tree is read back, with its numbers as they are kept. -/
theorem reads_print (lawful : format.Lawful) (node : Json) {limit : ℕ}
    (fits : node.fits limit = true) :
    Reads EndsNumber (parseValue format limit) (printUnformatted format node)
      (node.mapNumbers format.kept) := by
  cases node with
  | null =>
      intro rest _
      change parseValue format limit ('n' :: _) = _
      rw [parseValue_scalar (by decide) (by decide)]
      rfl
  | bool b =>
      intro rest _
      cases b with
      | false =>
          change parseValue format limit ('f' :: _) = _
          rw [parseValue_scalar (by decide) (by decide)]
          rfl
      | true =>
          change parseValue format limit ('t' :: _) = _
          rw [parseValue_scalar (by decide) (by decide)]
          rfl
  | num x =>
      intro rest ends
      have read := reads_number lawful x rest ends
      obtain ⟨first, more, same, starts⟩ := lawful.starts x
      rw [same, List.cons_append] at read
      rw [printUnformatted, same, List.cons_append]
      have opens {other : Char} (never : startsNumber other = false) : first ≠ other := by
        rintro rfl
        rw [starts] at never
        cases never
      rw [parseValue_scalar (opens (by decide)) (opens (by decide)), parseScalar_number starts,
        read]
      rfl
  | str s =>
      intro rest _
      have read := parseString_printed fits rest
      rw [printUnformatted]
      rw [printString, List.cons_append, List.cons_append] at *
      rw [parseValue_scalar (by decide) (by decide), parseScalar, read]
      rfl
  | arr items =>
      cases limit with
      | zero => cases fits
      | succ limit => exact reads_array lawful (reads_printItems lawful items fits)
  | obj members =>
      cases limit with
      | zero => cases fits
      | succ limit => exact reads_object lawful (reads_printMembers lawful members fits)

theorem reads_printItems (lawful : format.Lawful) (items : List Json) {limit : ℕ}
    (fits : Json.fitsItems items limit = true) : ∀ item ∈ items,
      Reads EndsNumber (parseValue format limit) (printUnformatted format item)
        (item.mapNumbers format.kept) := by
  cases items with
  | nil => exact List.forall_mem_nil _
  | cons item rest =>
      rw [Json.fitsItems, Bool.and_eq_true] at fits
      exact List.forall_mem_cons.mpr ⟨reads_print lawful item fits.1, reads_printItems lawful rest fits.2⟩

theorem reads_printMembers (lawful : format.Lawful) (members : List (String × Json))
    {limit : ℕ} (fits : Json.fitsMembers members limit = true) : ∀ entry ∈ members,
      unbroken entry.1 = true ∧
        Reads EndsNumber (parseValue format limit) (printUnformatted format entry.2)
          (entry.2.mapNumbers format.kept) := by
  cases members with
  | nil => exact List.forall_mem_nil _
  | cons entry rest =>
      obtain ⟨name, value⟩ := entry
      rw [Json.fitsMembers, Bool.and_eq_true, Bool.and_eq_true] at fits
      exact List.forall_mem_cons.mpr
        ⟨⟨fits.1.1, reads_print lawful value fits.1.2⟩, reads_printMembers lawful rest fits.2⟩

end

theorem parse_of_starts {first : Char} (starts : startsValue first = true) (rest : List Char) :
    parse format (first :: rest) =
      (parseValue format nestingLimit (first :: rest)).map Prod.fst := by
  have mark : skipMark (first :: rest) = first :: rest := by
    refine if_neg ?_
    rintro ⟨-, same⟩
    exact ne_of_startsValue starts (by decide) (List.cons.inj same).1
  rw [parse, mark, skipBlank,
    List.dropWhile_cons_of_neg (by simp [isBlank_of_startsValue starts])]

theorem parse_print (lawful : format.Lawful) {node : Json} (fits : node.fits nestingLimit = true) :
    parse format (printUnformatted format node) = some (node.mapNumbers format.kept) := by
  have whole := (reads_print lawful node fits).whole
  obtain ⟨first, rest, same, starts⟩ := printUnformatted_starts lawful node
  rw [same] at whole ⊢
  rw [parse_of_starts starts, whole, Option.map_some]

/-! ## Texts cut short -/

theorem parseMember_stopped {value : Reader Char Json} (stopped : Stopped EndsNumber value)
    (wants : value [] = none) : Stopped EndsNumber (parseMember value) := by
  intro text left member symbol found stop more
  unfold parseMember at found
  split at found
  · cases found
  · next name after read =>
      split at found
      · next rest colon =>
          obtain ⟨⟨held, tail⟩, inner, same⟩ := Option.map_eq_some_iff.mp found
          obtain ⟨rfl, rfl⟩ := Prod.mk.inj same
          rw [parseMember, parseString_closed read more]
          simp only [show skipBlank (after ++ more) = ':' :: rest ++ more from
            dropWhile_append colon more, List.cons_append]
          cases begins : skipBlank rest with
          | nil =>
              rw [begins, wants] at inner
              cases inner
          | cons first others =>
              have skipped : skipBlank (rest ++ more) = skipBlank rest ++ more := by
                rw [begins]
                exact dropWhile_append begins more
              rw [skipped, stopped inner stop more]
              rfl
      · cases found

theorem parseItems_closed {α : Type} {item : Reader Char α} {close : Char}
    (stopped : Stopped EndsNumber item) (wants : item [] = none) (ends : EndsNumber close) :
    Closed (parseItems item close) := by
  intro text left values found more
  unfold parseItems at found
  split at found
  · cases found
  · next first rest begins =>
      have skipped : skipBlank (text ++ more) = first :: rest ++ more :=
        dropWhile_append begins more
      rw [parseItems, skipped]
      simp only [List.cons_append]
      split_ifs at found ⊢ with same
      · obtain ⟨rfl, rfl⟩ := Prod.mk.inj (Option.some_inj.mp found)
        rfl
      · have blanks : ∀ c, isBlank c = true → EndsNumber c := fun _ => endsNumber_of_blank
        have longer := readSeparated_append stopped wants blanks (by decide : EndsNumber ',') ends
          found more
        exact readSeparated_mono (by rw [List.length_append]; omega) longer

/-- What a text is parsed as stays when more is written after a symbol that is no
part of a number. -/
theorem parseValue_stopped (lawful : format.Lawful) (limit : ℕ) :
    Stopped EndsNumber (parseValue format limit) := by
  induction limit with
  | zero =>
      intro text left value symbol found stop more
      rw [parseValue] at found ⊢
      exact parseScalar_stopped lawful found stop more
  | succ limit ih =>
      have wants : parseValue format limit [] = none := by cases limit <;> rfl
      intro text left value symbol found stop more
      cases text with
      | nil => cases found
      | cons first rest =>
          by_cases bracket : first = '['
          · subst bracket
            rw [parseValue] at found
            obtain ⟨⟨items, after⟩, read, same⟩ := Option.map_eq_some_iff.mp found
            obtain ⟨rfl, rfl⟩ := Prod.mk.inj same
            have closed := parseItems_closed ih wants (by decide : EndsNumber ']') read more
            rw [List.cons_append, parseValue, closed]
            rfl
          · by_cases brace : first = '{'
            · subst brace
              rw [parseValue] at found
              obtain ⟨⟨members, after⟩, read, same⟩ := Option.map_eq_some_iff.mp found
              obtain ⟨rfl, rfl⟩ := Prod.mk.inj same
              have member : Stopped EndsNumber (parseMember (parseValue format limit)) :=
                parseMember_stopped ih wants
              have closed := parseItems_closed member rfl (by decide : EndsNumber '}') read more
              rw [List.cons_append, parseValue, closed]
              rfl
            · rw [parseValue_scalar bracket brace] at found
              rw [List.cons_append, parseValue_scalar bracket brace, ← List.cons_append]
              exact parseScalar_stopped lawful found stop more

/-- A printed object that is cut short is no JSON. -/
theorem parse_take_object (lawful : format.Lawful) {members : List (String × Json)}
    (fits : (Json.obj members).fits nestingLimit = true) {room : ℕ}
    (short : room < (printUnformatted format (.obj members)).length) :
    parse format ((printUnformatted format (.obj members)).take room) = none := by
  have wants : parseValue format 999 [] = none := rfl
  have member : Stopped EndsNumber (parseMember (parseValue format 999)) :=
    parseMember_stopped (parseValue_stopped lawful 999) wants
  have closed : Closed (parseItems (parseMember (parseValue format 999)) '}') :=
    parseItems_closed member rfl (by decide)
  have whole := (reads_print lawful (.obj members) fits).whole
  obtain ⟨inside, text⟩ : ∃ inside, printUnformatted format (.obj members) = '{' :: inside :=
    ⟨_, rfl⟩
  rw [text] at whole short ⊢
  cases room with
  | zero => rfl
  | succ room =>
      rw [List.take_succ_cons, parse_of_starts (by decide)]
      obtain ⟨⟨values, after⟩, read, same⟩ := Option.map_eq_some_iff.mp whole
      obtain ⟨-, rfl⟩ := Prod.mk.inj same
      have cut := closed.eq_none_of_prefix read (List.take_prefix room inside) (by
        intro all
        rw [List.take_eq_self_iff] at all
        rw [List.length_cons] at short
        omega)
      change ((parseItems (parseMember (parseValue format 999)) '}' (inside.take room)).map _).map
        Prod.fst = none
      rw [cut]
      rfl

/-! ## Parsed trees -/

theorem unbroken_parseString {text left : List Char} {s : String}
    (found : parseString text = some (s, left)) : unbroken s = true := by
  unfold parseString at found
  split at found
  · split at found
    · obtain ⟨plain, -, same⟩ := Option.map_eq_some_iff.mp found
      obtain ⟨rfl, -⟩ := Prod.mk.inj same
      exact unbroken_cString plain
    · cases found
  · cases found

theorem parseScalar_fits {text left : List Char} {node : Json}
    (found : parseScalar format text = some (node, left)) (limit : ℕ) : node.fits limit = true := by
  rw [parseScalar.eq_def] at found
  split at found
  · obtain ⟨rfl, -⟩ := Prod.mk.inj (Option.some_inj.mp found)
    rfl
  · obtain ⟨rfl, -⟩ := Prod.mk.inj (Option.some_inj.mp found)
    rfl
  · obtain ⟨rfl, -⟩ := Prod.mk.inj (Option.some_inj.mp found)
    rfl
  · obtain ⟨⟨s, after⟩, read, same⟩ := Option.map_eq_some_iff.mp found
    obtain ⟨rfl, -⟩ := Prod.mk.inj same
    exact unbroken_parseString read
  · split_ifs at found
    unfold parseNumber at found
    split at found
    · split_ifs at found
      obtain ⟨rfl, -⟩ := Prod.mk.inj (Option.some_inj.mp found)
      rfl
    · cases found
  · cases found

theorem parseItems_forall {α : Type} {item : Reader Char α} {close : Char} {P : α → Prop}
    (holds : ∀ {text left : List Char} {value : α}, item text = some (value, left) → P value)
    {text left : List Char} {values : List α}
    (found : parseItems item close text = some (values, left)) : ∀ value ∈ values, P value := by
  unfold parseItems at found
  split at found
  · cases found
  · split_ifs at found
    · obtain ⟨rfl, -⟩ := Prod.mk.inj (Option.some_inj.mp found)
      exact List.forall_mem_nil _
    · exact readSeparated_forall holds found

/-- What is parsed can be printed. -/
theorem parseValue_fits {limit : ℕ} {text left : List Char} {node : Json}
    (found : parseValue format limit text = some (node, left)) : node.fits limit = true := by
  induction limit generalizing text left node with
  | zero =>
      rw [parseValue] at found
      exact parseScalar_fits found 0
  | succ limit ih =>
      rw [parseValue.eq_def] at found
      split at found
      · next same => cases same
      · next limit _ same =>
          cases same
          obtain ⟨⟨items, after⟩, read, same⟩ := Option.map_eq_some_iff.mp found
          obtain ⟨rfl, -⟩ := Prod.mk.inj same
          exact Json.fitsItems_iff.mpr (parseItems_forall ih read)
      · next limit _ same =>
          cases same
          obtain ⟨⟨members, after⟩, read, same⟩ := Option.map_eq_some_iff.mp found
          obtain ⟨rfl, -⟩ := Prod.mk.inj same
          refine Json.fitsMembers_iff.mpr (parseItems_forall ?_ read)
          intro text left member found
          unfold parseMember at found
          split at found
          · cases found
          · next name after named =>
              split at found
              · obtain ⟨⟨held, tail⟩, inner, same⟩ := Option.map_eq_some_iff.mp found
                obtain ⟨rfl, -⟩ := Prod.mk.inj same
                exact ⟨unbroken_parseString named, ih inner⟩
              · cases found
      · exact parseScalar_fits found _

theorem parse_fits {text : List Char} {node : Json} (found : parse format text = some node) :
    node.fits nestingLimit = true := by
  obtain ⟨⟨value, left⟩, read, rfl⟩ := Option.map_eq_some_iff.mp found
  exact parseValue_fits read

end Values

end PiFire
