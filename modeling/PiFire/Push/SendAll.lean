import PiFire.Push.Kept

/-!
# A message to every subscription

A message is printed as JSON into a buffer, the table of subscriptions is copied, and each of the
copy is sealed for and posted to, one after the other, while the table may change. The sealing,
the signing and the posting are other libraries', and are parameters.
-/

namespace PiFire.Push

open Transition

/-- The characters of a C string. -/
abbrev CText := { s : String // unbroken s = true }

/-- A message as it is sent. -/
structure Message where
  title : Option CText
  body : Option CText
  code : Option CText
  crit : ℤ

namespace Message

/-- What stands for a title that is missing. -/
def shownTitle (m : Message) : CText := m.title.getD ⟨"PiFire", by decide⟩

def shownBody (m : Message) : CText := m.body.getD ⟨"", by decide⟩

def shownCode (m : Message) : CText := m.code.getD ⟨"", by decide⟩

def json (m : Message) : Json :=
  .obj [("title", .str m.shownTitle), ("body", .str m.shownBody), ("code", .str m.shownCode),
    ("crit", .num m.crit)]

/-- The message as text. -/
def text (format : NumberFormat) (m : Message) : List Char := printUnformatted format m.json

end Message

/-- What `json[512]` has room for beside the zero. -/
def jsonLength : ℕ := 511

/-- `pf_strlcpy(json, txt, sizeof json)` -/
def plaintext (format : NumberFormat) (m : Message) : List Char :=
  (m.text format).take jsonLength

/-- What other libraries do: a record sealed for a device's keys, a token signed for an audience,
and the answer of the push service to a post, with what it disliked. -/
structure Outside where
  sealFor : Keys → List Char → Option (List UInt8)
  sign : List Char → Option (List Char)
  answer : Sub → List Char → List UInt8 → ℤ → ℕ × List Char

/-- `sizeof out` -/
def outLength : ℕ := 1024

/-- `encrypt_record`: the header, the record and its tag have to fit. -/
def encryptFor (outside : Outside) (keys : Keys) (plain : List Char) : Option (List UInt8) :=
  if outLength < 16 + 4 + 1 + publicLength + plain.length + 1 + 16 then none
  else outside.sealFor keys plain

/-- A text split behind the first `://`. -/
def splitScheme : List Char → Option (List Char × List Char)
  | [] => none
  | c :: rest =>
      if ['/', '/'].isPrefixOf rest ∧ c = ':' then some ([':', '/', '/'], rest.drop 2)
      else (splitScheme rest).map fun (before, after) => (c :: before, after)

/-- `aud`: the endpoint's origin, or nothing where it has none. -/
def audience (endpoint : List Char) : List Char :=
  match splitScheme endpoint with
  | none => []
  | some (before, after) => (before ++ after.takeWhile (· ≠ '/')).take 255

/-- `vapid_jwt` -/
def vapidJwt (outside : Outside) (endpoint : List Char) : Option (List Char) :=
  if audience endpoint = [] then none else outside.sign (audience endpoint)

/-- Where the loop is: the table, what was sealed and posted, how many took it and the first
thing that went wrong. -/
structure Sending where
  table : Table
  sealed : List (Keys × List Char)
  posted : List (Sub × List UInt8)
  ok : ℕ
  err : List Char

/-- `snprintf(err, errn, ...)`, where nothing is noted yet. -/
def note (errn : ℕ) (message err : List Char) : List Char :=
  if err = [] then message.take (errn - 1) else err

section Send

variable (format : NumberFormat) (outside : Outside) (errn : ℕ)

/-- What is made of a status. -/
def heed (s : Sub) (status : ℕ) (why : List Char) (now : Sending) : Sending :=
  if status = 404 ∨ status = 410 then
    { now with
      table := (now.table.unsubscribe format s.endpoint).1
      err := note errn "that device's subscription had expired; subscribe it again".toList now.err }
  else if status < 200 ∨ 300 ≤ status then
    { now with
      err := note errn ("the push service refused it (".toList ++ Nat.toDigits 10 status ++ [')'] ++
        (if why = [] then [] else [':', ' '] ++ why)) now.err }
  else { now with ok := now.ok + 1 }

/-- What is known of a refusal: the first characters of the answer's body. -/
def whyOf (answer : ℕ × List Char) : List Char :=
  if 400 ≤ answer.1 then answer.2.take 239 else []

/-- `post_one`, and what is made of its answer; zero where it could not be sent at all. -/
def postOne (s : Sub) (crit : ℤ) (body : List UInt8) (now : Sending) : Sending :=
  match vapidJwt outside s.endpoint with
  | none => heed format errn s 0 [] now
  | some token =>
      let answer := outside.answer s token body crit
      heed format errn s answer.1 (whyOf answer)
        { now with posted := now.posted ++ [(s, body)] }

/-- The turn of a subscription in the loop. -/
def sendOne (plain : List Char) (crit : ℤ) (now : Sending) (s : Sub) : Sending :=
  let now := { now with sealed := now.sealed ++ [(s.keys, plain)] }
  match encryptFor outside s.keys plain with
  | none =>
      { now with err := note errn "a subscription could not be encrypted for".toList now.err }
  | some body => postOne format outside errn s crit body now

/-- The loop over the copy; between two turns others change the table. -/
def sendEach (plain : List Char) (crit : ℤ) (others : ℕ → Table → Table) :
    ℕ → Slots Sub → Sending → Sending
  | _, [], now => now
  | i, none :: rest, now => sendEach plain crit others (i + 1) rest now
  | i, some s :: rest, now =>
      let now := sendOne format outside errn plain crit now s
      sendEach plain crit others (i + 1) rest { now with table := others i now.table }

/-- `send_all`, with the table as it is when the copy is taken. -/
def sendAll (ready : Bool) (others : ℕ → Table → Table) (m : Message) (t : Table) : Sending :=
  if ready then
    sendEach format outside errn (plaintext format m) m.crit others 0 t.subs ⟨t, [], [], 0, []⟩
  else ⟨t, [], [], 0, note errn "web push is not set up on this grill".toList []⟩

end Send

section Arrives

variable {format : NumberFormat} {outside : Outside} {errn : ℕ} {plain : List Char} {crit : ℤ}
  {others : ℕ → Table → Table}

@[simp] theorem heed_posted (s : Sub) (status : ℕ) (why : List Char) (now : Sending) :
    (heed format errn s status why now).posted = now.posted := by
  rw [heed]
  split_ifs <;> rfl

@[simp] theorem heed_sealed (s : Sub) (status : ℕ) (why : List Char) (now : Sending) :
    (heed format errn s status why now).sealed = now.sealed := by
  rw [heed]
  split_ifs <;> rfl

/-- What is posted to a subscription. -/
def postFor (outside : Outside) (plain : List Char) (s : Sub) : Option (Sub × List UInt8) :=
  (encryptFor outside s.keys plain).bind fun body =>
    (vapidJwt outside s.endpoint).map fun _ => (s, body)

theorem sendOne_eq (now : Sending) (s : Sub) :
    (sendOne format outside errn plain crit now s).sealed = now.sealed ++ [(s.keys, plain)] ∧
      (sendOne format outside errn plain crit now s).posted =
        now.posted ++ (postFor outside plain s).toList := by
  rw [sendOne, postFor]
  cases encryptFor outside s.keys plain with
  | none => exact ⟨rfl, (List.append_nil _).symm⟩
  | some body =>
      dsimp only
      rw [postOne]
      cases vapidJwt outside s.endpoint with
      | none => simp
      | some token => simp

theorem sendEach_eq (format : NumberFormat) (outside : Outside) (errn : ℕ) (plain : List Char)
    (crit : ℤ) (others : ℕ → Table → Table) (i : ℕ) (subs : Slots Sub) (now : Sending) :
    (sendEach format outside errn plain crit others i subs now).sealed =
        now.sealed ++ subs.entries.map (fun s => (s.keys, plain)) ∧
      (sendEach format outside errn plain crit others i subs now).posted =
        now.posted ++ subs.entries.filterMap (postFor outside plain) := by
  induction subs generalizing i now with
  | nil => exact ⟨(List.append_nil _).symm, (List.append_nil _).symm⟩
  | cons slot rest ih =>
      cases slot with
      | none => exact ih (i + 1) now
      | some s =>
          obtain ⟨sealed, posted⟩ := ih (i + 1)
            { sendOne format outside errn plain crit now s with
              table := others i (sendOne format outside errn plain crit now s).table }
          have entries : Slots.entries (some s :: rest) = s :: Slots.entries rest := rfl
          rw [sendEach, sealed, posted, (sendOne_eq now s).1, (sendOne_eq now s).2, entries]
          constructor
          · rw [List.map_cons, List.append_assoc, List.singleton_append]
          · rw [List.filterMap_cons, List.append_assoc]
            cases postFor outside plain s with
            | none => rfl
            | some post => rfl

/-- A text that is JSON, with the title and the body that were given or what they begin with. -/
def Formed (format : NumberFormat) (m : Message) (plain : List Char) : Prop :=
  ∃ tree title body, parse format plain = some tree ∧
    jsonPath tree ["title"] = some (.str title) ∧ jsonPath tree ["body"] = some (.str body) ∧
    title.toList <+: m.shownTitle.val.toList ∧ body.toList <+: m.shownBody.val.toList

/-- What is sealed is formed, and every subscription of the table is posted to once. -/
structure Arrives (format : NumberFormat) (m : Message) (t : Table) (sent : Sending) : Prop where
  formed : ∀ p ∈ sent.sealed, Formed format m p.2
  once : sent.posted.map Prod.fst = t.subs.entries

/-- There is nobody to send to, or all is ready: the printed message fits its buffer, and each
subscription has an endpoint that a token is signed for and keys that the message is sealed for. -/
def Deliverable (format : NumberFormat) (outside : Outside) (ready : Bool) (m : Message)
    (t : Table) : Prop :=
  t.subs.entries = [] ∨
    ready = true ∧ (m.text format).length ≤ jsonLength ∧
      ∀ s ∈ t.subs.entries, (vapidJwt outside s.endpoint).isSome = true ∧
        (outside.sealFor s.keys (m.text format)).isSome = true

variable {m : Message}

theorem json_fits (m : Message) : m.json.fits nestingLimit = true := by
  obtain ⟨title, body, code, crit⟩ : unbroken "title" = true ∧ unbroken "body" = true ∧
      unbroken "code" = true ∧ unbroken "crit" = true := by decide
  refine Json.fitsMembers_iff.mpr (List.forall_mem_cons.mpr ⟨⟨title, m.shownTitle.property⟩,
    List.forall_mem_cons.mpr ⟨⟨body, m.shownBody.property⟩,
      List.forall_mem_cons.mpr ⟨⟨code, m.shownCode.property⟩, ?_⟩⟩⟩)
  intro entry last
  rw [List.mem_singleton.mp last]
  exact ⟨crit, rfl⟩

theorem formed_iff (lawful : format.Lawful) :
    Formed format m (plaintext format m) ↔ (m.text format).length ≤ jsonLength := by
  constructor
  · rintro ⟨tree, title, body, parsed, -⟩
    by_contra long
    have none_ : parse format (plaintext format m) = none :=
      parse_take_object lawful (json_fits m) (not_le.mp long)
    rw [none_] at parsed
    cases parsed
  · intro fits
    have whole : plaintext format m = printUnformatted format m.json := List.take_of_length_le fits
    refine ⟨m.json.mapNumbers format.kept, m.shownTitle, m.shownBody, ?_, ?_, ?_,
      List.prefix_rfl, List.prefix_rfl⟩
    · rw [whole]
      exact parse_print lawful (json_fits m)
    · rfl
    · rfl

theorem postFor_isSome (plain : List Char) (short : plain.length ≤ jsonLength) (s : Sub) :
    (postFor outside plain s).isSome = true ↔
      (vapidJwt outside s.endpoint).isSome = true ∧
        (outside.sealFor s.keys plain).isSome = true := by
  have room : ¬outLength < 16 + 4 + 1 + publicLength + plain.length + 1 + 16 := by
    rw [outLength, publicLength]
    rw [jsonLength] at short
    omega
  rw [postFor, encryptFor, if_neg room]
  cases outside.sealFor s.keys plain <;> simp

theorem map_filterMap_postFor (subs : List Sub) :
    (subs.filterMap (postFor outside plain)).map Prod.fst =
      subs.filter fun s => (postFor outside plain s).isSome := by
  have whose {s : Sub} {post : Sub × List UInt8} (posts : postFor outside plain s = some post) :
      post.1 = s := by
    obtain ⟨body, -, token⟩ := Option.bind_eq_some_iff.mp posts
    obtain ⟨_, -, rfl⟩ := Option.map_eq_some_iff.mp token
    rfl
  induction subs with
  | nil => rfl
  | cons s subs ih =>
      rw [List.filterMap_cons, List.filter_cons]
      cases posts : postFor outside plain s with
      | none => exact ih
      | some post => exact congrArg₂ List.cons (whose posts) ih

theorem sendAll_ready (format : NumberFormat) (outside : Outside) (errn : ℕ)
    (others : ℕ → Table → Table) (m : Message) (t : Table) :
    (sendAll format outside errn true others m t).sealed =
        t.subs.entries.map (fun s => (s.keys, plaintext format m)) ∧
      (sendAll format outside errn true others m t).posted.map Prod.fst =
        t.subs.entries.filter fun s => (postFor outside (plaintext format m) s).isSome := by
  obtain ⟨sealed, posted⟩ := sendEach_eq format outside errn (plaintext format m) m.crit others 0
    t.subs ⟨t, [], [], 0, []⟩
  rw [sendAll, if_pos rfl, sealed, posted, List.nil_append, List.nil_append,
    map_filterMap_postFor]
  exact ⟨rfl, rfl⟩

/-- A message arrives whole, once at every subscription of the table it was sent to, just where it
can be delivered. -/
theorem arrives_iff (format : NumberFormat) (lawful : format.Lawful) (outside : Outside) (errn : ℕ)
    (ready : Bool) (others : ℕ → Table → Table) (m : Message) (t : Table) :
    Arrives format m t (sendAll format outside errn ready others m t) ↔
      Deliverable format outside ready m t := by
  cases ready with
  | false =>
      have nothing : (sendAll format outside errn false others m t).sealed = [] ∧
          (sendAll format outside errn false others m t).posted = [] := ⟨rfl, rfl⟩
      constructor
      · intro arrives
        have once := arrives.once
        rw [nothing.2] at once
        exact Or.inl once.symm
      · rintro (nobody | ⟨ready, -⟩)
        · refine ⟨?_, ?_⟩
          · rw [nothing.1]
            exact List.forall_mem_nil _
          · rw [nothing.2, nobody]
            rfl
        · cases ready
  | true =>
      obtain ⟨sealed, posted⟩ := sendAll_ready format outside errn others m t
      constructor
      · intro arrives
        by_cases nobody : t.subs.entries = []
        · exact Or.inl nobody
        obtain ⟨s, inside⟩ := List.exists_mem_of_ne_nil _ nobody
        have formed := arrives.formed (s.keys, plaintext format m) (by
          rw [sealed]
          exact List.mem_map_of_mem inside)
        have short := (formed_iff lawful).mp formed
        have whole : plaintext format m = m.text format := List.take_of_length_le short
        have once := arrives.once
        rw [posted, List.filter_eq_self] at once
        refine Or.inr ⟨rfl, short, fun s inside => ?_⟩
        have posts := once s inside
        rw [whole] at posts
        exact (postFor_isSome _ short s).mp posts
      · rintro (nobody | ⟨-, short, each⟩)
        · refine ⟨?_, ?_⟩
          · rw [sealed, nobody]
            exact List.forall_mem_nil _
          · rw [posted, nobody]
            rfl
        · have whole : plaintext format m = m.text format := List.take_of_length_le short
          refine ⟨?_, ?_⟩
          · rw [sealed]
            intro p inside
            obtain ⟨s, -, rfl⟩ := List.mem_map.mp inside
            exact (formed_iff lawful).mpr short
          · rw [posted, List.filter_eq_self]
            intro s inside
            rw [whole]
            exact (postFor_isSome _ short s).mpr (each s inside)

theorem length_text (m : Message) : (m.text format).length =
    34 + (printString m.shownTitle).length + (printString m.shownBody).length +
      (printString m.shownCode).length + (format.digits m.crit).length := by
  have names : (printString "title").length = 7 ∧ (printString "body").length = 6 ∧
      (printString "code").length = 6 ∧ (printString "crit").length = 6 := by decide
  obtain ⟨title, body, code, crit⟩ := names
  simp only [Message.text, Message.json, printUnformatted, printMembers, List.intercalate,
    List.intersperse, List.flatten_cons, List.flatten_nil, List.length_cons, List.length_append,
    List.length_nil, title, body, code, crit]
  omega

end Arrives

/-- A device with a good endpoint. -/
def benchDevice : Sub where
  endpoint := "https://push.example/p".toList
  keys := ⟨List.replicate publicLength 4, List.replicate authLength 9,
    List.length_replicate, List.length_replicate⟩
  nonempty := by decide
  fits := by decide
  unbroken c inside := by
    have all : "https://push.example/p".toList.all (·.toNat ≠ 0) = true := by decide
    exact of_decide_eq_true (List.all_eq_true.mp all c inside)

/-- Libraries that do as they are asked, and a push service that takes everything. -/
def benchOutside : Outside where
  sealFor _ plain := some (plain.map fun c => UInt8.ofNat c.toNat)
  sign audience := some audience
  answer _ _ _ _ := (201, [])

def benchTable : Table := ⟨[some benchDevice], none, []⟩

def hello : Message := ⟨none, some ⟨"done", by decide⟩, none, 1⟩

theorem hello_arrives :
    Arrives digitFormat hello benchTable
      (sendAll digitFormat benchOutside 0 true (fun _ t => t) hello benchTable) := by
  apply (arrives_iff digitFormat digitFormat_lawful benchOutside 0 true (fun _ t => t) hello
    benchTable).mpr
  refine Or.inr ⟨rfl, by decide, ?_⟩
  intro s inside
  rw [List.mem_singleton.mp inside]
  exact ⟨by decide, rfl⟩

/-- A text of plain characters. -/
def plainText (n : ℕ) : CText :=
  ⟨String.ofList (List.replicate n 'x'), unbroken_ofList fun c inside => by
    rw [List.eq_of_mem_replicate inside]
    decide⟩

theorem length_plainText (n : ℕ) : (printString (plainText n)).length = n + 2 := by
  have plain : escape 'x' = ['x'] := by decide
  rw [printString, plainText, String.toList_ofList]
  simp [List.flatMap_replicate, plain]

/-- A message as long as a rule's title and body may be. -/
def long : Message := ⟨some (plainText 159), some (plainText 319), none, 1⟩

/-- It is cut in its buffer, and is no JSON any more. -/
theorem long_not_formed : ¬∀ m, Arrives digitFormat m benchTable
    (sendAll digitFormat benchOutside 0 true (fun _ t => t) m benchTable) := by
  intro right
  have inside : (benchDevice.keys, plaintext digitFormat long) ∈
      (sendAll digitFormat benchOutside 0 true (fun _ t => t) long benchTable).sealed := by
    rw [(sendAll_ready digitFormat benchOutside 0 _ long benchTable).1]
    exact List.mem_cons_self
  have short := (formed_iff digitFormat_lawful).mp ((right long).formed _ inside)
  have title : (printString long.shownTitle).length = 161 := length_plainText 159
  have body : (printString long.shownBody).length = 321 := length_plainText 319
  have code : (printString long.shownCode).length = 2 := by decide
  have crit : (digitFormat.digits long.crit).length = 1 := by decide
  rw [length_text, title, body, code, crit, jsonLength] at short
  exact absurd short (by decide)

end PiFire.Push
