import PiFire.Push.Subscriptions

/-!
# The table keeps the register

What is saved is loaded again, whatever the endpoints. The table is what the register
says as long as every subscription it takes has keys of just the right length and an
endpoint that its buffer has room for.
-/

namespace PiFire.Push

open Transition

variable {format : NumberFormat}

/-! ### Saving and loading -/

theorem chars_ofList {l : List Char} (unbroken : ∀ c ∈ l, c.toNat ≠ 0) :
    chars (String.ofList l) = l := by
  rw [chars, String.toList_ofList, List.takeWhile_eq_self_iff]
  intro c member
  exact decide_eq_true (unbroken c member)

theorem unbroken_ofList {l : List Char} (whole : ∀ c ∈ l, c.toNat ≠ 0) :
    PiFire.unbroken (String.ofList l) = true := by
  rw [PiFire.unbroken, String.toList_ofList, List.all_eq_true]
  intro c member
  exact decide_eq_true (whole c member)

theorem b64urlEncode_unbroken (bytes : List UInt8) (cap : ℕ) :
    ∀ c ∈ b64urlEncode bytes cap, c.toNat ≠ 0 := by
  intro c member
  exact base64Digits_unbroken bytes c (List.mem_of_mem_take member)

theorem Sub.cut_ofList (s : Sub) (given : chars (String.ofList s.endpoint) ≠ []) :
    Sub.cut (String.ofList s.endpoint) s.keys given = s := by
  apply Sub.ext
  · change (chars (String.ofList s.endpoint)).take endpointLength = s.endpoint
    rw [chars_ofList s.unbroken]
    exact List.take_of_length_le s.fits
  · rfl

theorem Keys.decode_encode (keys : Keys) :
    Keys.decode (String.ofList (b64urlEncode keys.uaPublic 128))
      (String.ofList (b64urlEncode keys.auth 32)) = some keys := by
  have key : b64urlDecode (b64urlEncode keys.uaPublic 128) publicLength = keys.uaPublic := by
    rw [← keys.public_length]
    apply b64urlDecode_encode
    rw [keys.public_length]
    decide
  have secret : b64urlDecode (b64urlEncode keys.auth 32) authLength = keys.auth := by
    rw [← keys.auth_length]
    apply b64urlDecode_encode
    rw [keys.auth_length]
    decide
  rw [Keys.decode]
  simp only [chars_ofList (b64urlEncode_unbroken _ _), key, secret]
  rw [dif_pos keys.public_length, dif_pos keys.auth_length]

theorem Sub.ofJson_json (s : Sub) : Sub.ofJson s.json = some s := by
  have endpoint : jsonStr s.json ["endpoint"] "" = String.ofList s.endpoint := rfl
  have key : jsonStr s.json ["p256dh"] "" = String.ofList (b64urlEncode s.keys.uaPublic 128) := rfl
  have secret : jsonStr s.json ["auth"] "" = String.ofList (b64urlEncode s.keys.auth 32) := rfl
  have given : chars (String.ofList s.endpoint) ≠ [] := by
    rw [chars_ofList s.unbroken]
    exact s.nonempty
  rw [Sub.ofJson]
  simp only [endpoint, key, secret, Keys.decode_encode, Option.map_some]
  rw [dif_pos given, Sub.cut_ofList]

theorem Sub.json_fits (s : Sub) (limit : ℕ) : s.json.fits (limit + 1) = true := by
  rw [Sub.json, Json.fits, Json.fitsMembers_iff]
  simp only [List.forall_mem_cons, Json.fits, unbroken_ofList s.unbroken,
    unbroken_ofList (b64urlEncode_unbroken _ _)]
  exact ⟨⟨by decide, trivial⟩, ⟨by decide, trivial⟩, ⟨by decide, trivial⟩, List.forall_mem_nil _⟩

theorem entries_subsLoad (lawful : format.Lawful) {subs : Slots Sub}
    (few : subs.entries.length ≤ maxSubs) :
    (subsLoad format (some (subsSave format subs))).entries = subs.entries := by
  have fits : (Json.arr (subs.entries.map Sub.json)).fits nestingLimit = true := by
    rw [nestingLimit, Json.fits, Json.fitsItems_iff]
    intro item member
    obtain ⟨s, _, rfl⟩ := List.mem_map.mp member
    exact s.json_fits _
  have read := parse_print lawful fits
  rw [Json.mapNumbers, Json.mapNumbersItems_eq, List.map_map,
    show Json.mapNumbers format.kept ∘ Sub.json = Sub.json from rfl] at read
  rw [subsLoad, subsSave, Option.bind_some, read]
  dsimp only [Json.children]
  rw [Slots.entries_ofList, List.filterMap_map,
    show Sub.ofJson ∘ Sub.json = some from funext Sub.ofJson_json, List.filterMap_some,
    List.take_of_length_le few]

theorem length_subsLoad (format : NumberFormat) (text : Option (List Char)) :
    (subsLoad format text).length = maxSubs := by
  rw [subsLoad]
  split
  · exact Slots.length_ofList (Nat.zero_le _)
  · exact Slots.length_ofList (List.length_take_le _ _)

/-! ### What the table is to be -/

/-- The table has one record for each endpoint of the register, with its keys. -/
structure Agrees (t : Table) (r : Register) : Prop where
  once : t.subs.Keyed Sub.endpoint
  most : t.subs.entries.length ≤ maxSubs
  same : ∀ e keys, r e = some keys ↔ ∃ s ∈ t.subs.entries, s.endpoint = e ∧ s.keys = keys

/-- What holds of a table in every run. -/
structure Table.Sound (format : NumberFormat) (t : Table) : Prop where
  size : t.subs.length = maxSubs
  saved : (subsLoad format t.saved).entries = t.subs.entries

variable {t : Table} {r : Register}

theorem Agrees.known (agrees : Agrees t r) {e : List Char} :
    r e ≠ none ↔ ∃ s ∈ t.subs.entries, s.endpoint = e := by
  rw [Option.ne_none_iff_exists']
  simp only [agrees.same]
  constructor
  · rintro ⟨_, s, member, same, _⟩
    exact ⟨s, member, same⟩
  · rintro ⟨s, member, same⟩
    exact ⟨s.keys, s, member, same, rfl⟩

theorem Agrees.ncard (agrees : Agrees t r) :
    {e | r e ≠ none}.ncard = t.subs.entries.length := by
  have endpoints : {e | r e ≠ none} = ↑(t.subs.entries.map Sub.endpoint).toFinset := by
    ext e
    simp [agrees.known]
  rw [endpoints, Set.ncard_coe_finset,
    List.toFinset_card_of_nodup (Slots.keyed_iff_nodup.mp agrees.once), List.length_map]

theorem Agrees.room_iff (agrees : Agrees t r) (size : t.subs.length = maxSubs) (e : List Char) :
    r.Room e ↔ (t.subs.slotFor? Sub.endpoint e).isSome = true := by
  have few := Slots.length_entries_le t.subs
  rw [Register.Room, agrees.known, agrees.ncard, Option.isSome_iff_ne_none, Ne,
    Slots.slotFor?_eq_none, not_and_or]
  apply or_congr
  · simp
  · omega

/-! ### Steps -/

theorem Table.Sound.save (lawful : format.Lawful) {subs : Slots Sub}
    (size : subs.length = maxSubs) (t : Table) : (t.save format subs).Sound format where
  size := size
  saved := by
    have few := Slots.length_entries_le subs
    exact entries_subsLoad lawful (by omega)

theorem length_b64urlDecode {text : List Char} {cap : ℕ} :
    (b64urlDecode text cap).length = cap ↔ cap ≤ (decoded text).length := by
  rw [b64urlDecode, List.length_take, min_eq_left_iff]

theorem b64urlDecode_of_length {text : List Char} {cap : ℕ}
    (length : (decoded text).length = cap) : b64urlDecode text cap = decoded text :=
  List.take_of_length_le (by omega)

theorem ne_nil_of_decoded {text : List Char} {n : ℕ} (length : n + 1 ≤ (decoded text).length) :
    text ≠ [] := by
  rintro rfl
  cases length

/-- A subscription with a key and a secret of at least the right length, and a slot for
it. -/
structure Fills (t : Table) (sub : Json) (i : ℕ) : Prop where
  given : chars (jsonStr sub ["endpoint"] "") ≠ []
  key : publicLength ≤ (decoded (chars (jsonStr sub ["keys", "p256dh"] ""))).length
  secret : authLength ≤ (decoded (chars (jsonStr sub ["keys", "auth"] ""))).length
  slot : t.subs.slotFor? Sub.endpoint (chars (jsonStr sub ["endpoint"] "")) = some i

theorem Fills.subscribe {sub : Json} {i : ℕ} (fills : Fills t sub i) (format : NumberFormat) :
    ∃ keys : Keys,
      keys.uaPublic = b64urlDecode (chars (jsonStr sub ["keys", "p256dh"] "")) publicLength ∧
      keys.auth = b64urlDecode (chars (jsonStr sub ["keys", "auth"] "")) authLength ∧
      t.subscribe format sub =
        .ok (t.save format (t.subs.set i (some (Sub.cut _ keys fills.given)))) := by
  refine ⟨⟨_, _, length_b64urlDecode.mpr fills.key, length_b64urlDecode.mpr fills.secret⟩,
    rfl, rfl, ?_⟩
  have parts : ¬(chars (jsonStr sub ["keys", "p256dh"] "") = [] ∨
      chars (jsonStr sub ["keys", "auth"] "") = []) := by
    rintro (empty | empty)
    · exact ne_nil_of_decoded fills.key empty
    · exact ne_nil_of_decoded fills.secret empty
  rw [Table.subscribe, dif_pos fills.given, if_neg parts, dif_pos (length_b64urlDecode.mpr fills.key),
    dif_pos (length_b64urlDecode.mpr fills.secret), fills.slot]

theorem fills_of_subscribe {sub : Json} {t' : Table} (ok : t.subscribe format sub = .ok t') :
    ∃ i, Fills t sub i := by
  rw [Table.subscribe] at ok
  split_ifs at ok with given parts key secret
  cases slot : t.subs.slotFor? Sub.endpoint (chars (jsonStr sub ["endpoint"] "")) with
  | none =>
    rw [slot] at ok
    cases ok
  | some i =>
    exact ⟨i, given, length_b64urlDecode.mp key, length_b64urlDecode.mp secret, slot⟩

theorem keysOf_eq_some {key secret : String} {keys : Keys} :
    Register.keysOf key secret = some keys ↔
      keys.uaPublic = decoded (chars key) ∧ keys.auth = decoded (chars secret) := by
  rw [Register.keysOf]
  constructor
  · intro found
    split_ifs at found
    cases found
    exact ⟨rfl, rfl⟩
  · rintro ⟨key_same, secret_same⟩
    rw [dif_pos (by rw [← key_same]; exact keys.public_length),
      dif_pos (by rw [← secret_same]; exact keys.auth_length), Option.some_inj]
    exact Keys.ext key_same.symm secret_same.symm

theorem register_subscribe_eq_some {sub : Json} {r' : Register} :
    r.subscribe sub = some r' ↔ ∃ keys : Keys,
      keys.uaPublic = decoded (chars (jsonStr sub ["keys", "p256dh"] "")) ∧
      keys.auth = decoded (chars (jsonStr sub ["keys", "auth"] "")) ∧
      chars (jsonStr sub ["endpoint"] "") ≠ [] ∧ r.Room (chars (jsonStr sub ["endpoint"] "")) ∧
      Function.update r (chars (jsonStr sub ["endpoint"] "")) (some keys) = r' := by
  rw [Register.subscribe, Option.bind_eq_some_iff]
  simp only [keysOf_eq_some, Option.ite_none_right_eq_some, Option.some_inj, and_assoc]

theorem Agrees.put (agrees : Agrees t r) {e : List Char} {keys : Keys} {i : ℕ} {s : Sub}
    (slot : t.subs.slotFor? Sub.endpoint e = some i) (endpoint : s.endpoint = e)
    (same : s.keys = keys) (size : t.subs.length = maxSubs) :
    Agrees (t.save format (t.subs.set i (some s))) (Function.update r e (some keys)) where
  once := by
    rw [← endpoint] at slot
    exact agrees.once.put slot
  most := by
    rw [← size, ← List.length_set (i := i) (a := some s)]
    exact Slots.length_entries_le _
  same e' keys' := by
    rw [← endpoint] at slot
    change _ ↔ ∃ s' ∈ Slots.entries (t.subs.set i (some s)), _
    simp only [Slots.mem_put agrees.once slot, endpoint]
    by_cases here : e' = e
    · subst here
      rw [Function.update_self, Option.some_inj]
      constructor
      · rintro rfl
        exact ⟨s, Or.inl rfl, endpoint, same⟩
      · rintro ⟨s', rfl | ⟨_, other⟩, mine, keys_same⟩
        · exact same.symm.trans keys_same
        · exact absurd mine other
    · rw [Function.update_of_ne here, agrees.same]
      constructor
      · rintro ⟨s', member, mine, keys_same⟩
        exact ⟨s', Or.inr ⟨member, by rwa [mine]⟩, mine, keys_same⟩
      · rintro ⟨s', rfl | ⟨member, _⟩, mine, keys_same⟩
        · exact absurd (mine.symm.trans endpoint) here
        · exact ⟨s', member, mine, keys_same⟩

theorem Agrees.remove (agrees : Agrees t r) (size : t.subs.length = maxSubs) (e : List Char) :
    Agrees (t.unsubscribe format e).1 (Function.update r e none) := by
  rw [Table.unsubscribe]
  split
  · constructor
    · exact agrees.once.without e
    · have kept : (t.subs.without Sub.endpoint e).length = t.subs.length := Slots.length_without
      rw [← size, ← kept]
      exact Slots.length_entries_le _
    · intro e' keys
      change _ ↔ ∃ s ∈ (t.subs.without Sub.endpoint e).entries, _
      simp only [Slots.mem_without]
      by_cases here : e' = e
      · subst here
        rw [Function.update_self]
        constructor
        · rintro ⟨⟩
        · rintro ⟨s, ⟨_, other⟩, mine, _⟩
          exact absurd mine other
      · rw [Function.update_of_ne here, agrees.same]
        constructor
        · rintro ⟨s, member, mine, same⟩
          exact ⟨s, ⟨member, by rwa [mine]⟩, mine, same⟩
        · rintro ⟨s, ⟨member, _⟩, mine, same⟩
          exact ⟨s, member, mine, same⟩
  · rename_i none_has
    have unknown : r e = none := by
      by_contra known
      obtain ⟨s, member, mine⟩ := agrees.known.mp known
      exact none_has (List.any_eq_true.mpr ⟨s, member, decide_eq_true mine⟩)
    rw [← unknown, Function.update_eq_self]
    exact agrees

/-! ### Runs -/

/-- The register after an event. -/
noncomputable def Register.step (t : Table) (e : Table.Event) (r : Register) : Register :=
  match e with
  | .subscribe sub => (r.subscribe sub).getD r
  | e =>
    match t.removes e with
    | some endpoint => Function.update r endpoint none
    | none => r

/-- The table and the register after an event. -/
noncomputable def follow (format : NumberFormat) (e : Table.Event) (b : Table × Register) :
    Table × Register :=
  (b.1.step format e, b.2.step b.1 e)

/-- An event leaves the table as the register says, and what the register refuses is
refused. -/
def Served (format : NumberFormat) (e : Table.Event) (b : Table × Register) : Prop :=
  (∀ sub, e = .subscribe sub →
    ((b.1.subscribe format sub).toOption.isSome = true ↔ (b.2.subscribe sub).isSome = true)) ∧
  Agrees (follow format e b).1 (follow format e b).2

/-- A subscription that fills a slot has keys of the right length, and an endpoint that its
buffer has room for. -/
def Careful (e : Table.Event) (t : Table) : Prop :=
  match e with
  | .subscribe sub => ∀ i, Fills t sub i →
    (decoded (chars (jsonStr sub ["keys", "p256dh"] ""))).length = publicLength ∧
    (decoded (chars (jsonStr sub ["keys", "auth"] ""))).length = authLength ∧
    (chars (jsonStr sub ["endpoint"] "")).length ≤ endpointLength
  | _ => True

/-- What holds between any two events of a run that was served so far. -/
structure Kept (format : NumberFormat) (b : Table × Register) : Prop where
  sound : b.1.Sound format
  agrees : Agrees b.1 b.2

theorem Table.Sound.unsubscribe (lawful : format.Lawful) (sound : t.Sound format)
    (e : List Char) : (t.unsubscribe format e).1.Sound format := by
  rw [Table.unsubscribe]
  split
  · exact Table.Sound.save lawful (Slots.length_without.trans sound.size) t
  · exact sound

/-- Whatever happens, the saved text is what will be loaded. -/
theorem Table.Sound.step (lawful : format.Lawful) (sound : t.Sound format) (e : Table.Event) :
    (t.step format e).Sound format := by
  cases e with
  | subscribe sub =>
    rw [Table.step]
    cases result : t.subscribe format sub with
    | error text => exact sound
    | ok t' =>
      obtain ⟨i, fills⟩ := fills_of_subscribe result
      obtain ⟨keys, _, _, same⟩ := fills.subscribe format
      rw [result] at same
      cases same
      exact Table.Sound.save lawful (List.length_set.trans sound.size) t
  | unsubscribe endpoint => exact sound.unsubscribe lawful _
  | send => exact ⟨sound.size, sound.saved⟩
  | expire copy slot =>
    simp only [Table.step]
    split
    · exact sound.unsubscribe lawful _
    · exact sound
  | restart => exact ⟨length_subsLoad format t.saved, rfl⟩

theorem Agrees.of_entries {t' : Table} (agrees : Agrees t r)
    (same : t'.subs.entries = t.subs.entries) : Agrees t' r where
  once := by
    rw [Slots.keyed_iff_nodup, same]
    exact Slots.keyed_iff_nodup.mp agrees.once
  most := by
    rw [same]
    exact agrees.most
  same e keys := by
    rw [same]
    exact agrees.same e keys

variable {b : Table × Register}

theorem served_subscribe_iff (kept : Kept format b) (sub : Json) :
    Served format (.subscribe sub) b ↔ Careful (.subscribe sub) b.1 := by
  obtain ⟨t, r⟩ := b
  obtain ⟨sound, agrees⟩ := kept
  constructor
  · rintro ⟨answers, after⟩ i fills
    obtain ⟨keys, _, _, result⟩ := fills.subscribe format
    have accepted : (r.subscribe sub).isSome = true := by
      rw [← answers sub rfl, result]
      rfl
    obtain ⟨r', registered⟩ := Option.isSome_iff_exists.mp accepted
    obtain ⟨given, key, secret, _, _, rfl⟩ := register_subscribe_eq_some.mp registered
    refine ⟨?_, ?_, ?_⟩
    · rw [← key]
      exact given.public_length
    · rw [← secret]
      exact given.auth_length
    · -- the register has the endpoint now, so a record of the table has it too
      have there : (follow format (.subscribe sub) (t, r)).2 (chars (jsonStr sub ["endpoint"] "")) =
          some given := by
        simp only [follow, Register.step, registered, Option.getD_some, Function.update_self]
      obtain ⟨s, _, mine, _⟩ := (after.same _ _).mp there
      rw [← mine]
      exact s.fits
  · intro careful
    by_cases taken : ∃ i, Fills t sub i
    · obtain ⟨i, fills⟩ := taken
      obtain ⟨key, secret, fits⟩ := careful i fills
      obtain ⟨keys, key_same, secret_same, result⟩ := fills.subscribe format
      rw [b64urlDecode_of_length key] at key_same
      rw [b64urlDecode_of_length secret] at secret_same
      have room : r.Room (chars (jsonStr sub ["endpoint"] "")) := by
        rw [agrees.room_iff sound.size, fills.slot]
        rfl
      have registered := register_subscribe_eq_some.mpr
        ⟨keys, key_same, secret_same, fills.given, room, rfl⟩
      constructor
      · rintro _ ⟨⟩
        rw [result, registered]
        exact Iff.rfl
      · simp only [follow, Table.step, Register.step, result, registered]
        exact agrees.put fills.slot (List.take_of_length_le fits) rfl sound.size
    · have refused : r.subscribe sub = none := by
        by_contra accepted
        obtain ⟨r', registered⟩ := Option.ne_none_iff_exists'.mp accepted
        obtain ⟨keys, key, secret, given, room, _⟩ := register_subscribe_eq_some.mp registered
        rw [agrees.room_iff sound.size] at room
        obtain ⟨i, slot⟩ := Option.isSome_iff_exists.mp room
        refine taken ⟨i, given, ?_, ?_, slot⟩
        · rw [← key]
          exact keys.public_length.ge
        · rw [← secret]
          exact keys.auth_length.ge
      cases result : t.subscribe format sub with
      | ok t' => exact absurd (fills_of_subscribe result) taken
      | error text =>
        constructor
        · rintro _ ⟨⟩
          rw [result, refused]
          exact Iff.rfl
        · simp only [follow, Table.step, Register.step, result, refused]
          exact agrees

theorem served_iff (kept : Kept format b) (e : Table.Event) :
    Served format e b ↔ Careful e b.1 := by
  cases e with
  | subscribe sub => exact served_subscribe_iff kept sub
  | unsubscribe endpoint =>
    refine iff_of_true ⟨?_, kept.agrees.remove kept.sound.size (chars endpoint)⟩ trivial
    rintro _ ⟨⟩
  | send =>
    refine iff_of_true ⟨?_, kept.agrees.of_entries rfl⟩ trivial
    rintro _ ⟨⟩
  | expire copy slot =>
    refine iff_of_true ⟨?_, ?_⟩ trivial
    · rintro _ ⟨⟩
    · cases named : b.1.removes (.expire copy slot) with
      | none =>
        simp only [follow, Table.step, Register.step, named]
        exact kept.agrees
      | some endpoint =>
        simp only [follow, Table.step, Register.step, named]
        exact kept.agrees.remove kept.sound.size endpoint
  | restart =>
    refine iff_of_true ⟨?_, kept.agrees.of_entries kept.sound.saved⟩ trivial
    rintro _ ⟨⟩

theorem kept_start : Kept format (Table.start format, fun _ => none) where
  sound := ⟨length_subsLoad format none, rfl⟩
  agrees := by
    have empty : (subsLoad format none).entries = [] := Slots.entries_ofList maxSubs []
    constructor
    · rw [Slots.keyed_iff_nodup]
      change ((subsLoad format none).entries.map _).Nodup
      rw [empty]
      exact List.nodup_nil
    · change (subsLoad format none).entries.length ≤ maxSubs
      rw [empty]
      exact Nat.zero_le _
    · intro e keys
      change _ ↔ ∃ s ∈ (subsLoad format none).entries, _
      rw [empty]
      simp

/-- The table is what the register says after every event of just the runs where each
subscription that is given a slot has keys of the right length and an endpoint that its
buffer has room for. -/
theorem subscriptions_kept_iff (lawful : format.Lawful) (events : List Table.Event) :
    Along (follow format) (Served format) events (Table.start format, fun _ => none) ↔
      Along (follow format) (fun e b => Careful e b.1) events
        (Table.start format, fun _ => none) := by
  apply along_iff (Kept format)
  · intro e b kept served
    exact ⟨kept.sound.step lawful e, served.2⟩
  · intro e b kept
    exact served_iff kept e
  · exact kept_start

/-! ### On the bench -/

/-- A subscription with keys of the right length. -/
def benchSub (endpoint : List Char) : Json :=
  .obj [("endpoint", .str (String.ofList endpoint)),
    ("keys", .obj
      [("p256dh", .str (String.ofList (base64Digits (List.replicate publicLength 4)))),
        ("auth", .str (String.ofList (base64Digits (List.replicate authLength 9))))])]

theorem benchSub_endpoint {endpoint : List Char} (unbroken : ∀ c ∈ endpoint, c.toNat ≠ 0) :
    chars (jsonStr (benchSub endpoint) ["endpoint"] "") = endpoint :=
  chars_ofList unbroken

theorem benchSub_key (endpoint : List Char) :
    (decoded (chars (jsonStr (benchSub endpoint) ["keys", "p256dh"] ""))).length =
      publicLength := by
  change (decoded (chars (String.ofList (base64Digits _)))).length = publicLength
  rw [chars_ofList (base64Digits_unbroken _), decoded_base64Digits, List.length_replicate]

theorem benchSub_secret (endpoint : List Char) :
    (decoded (chars (jsonStr (benchSub endpoint) ["keys", "auth"] ""))).length =
      authLength := by
  change (decoded (chars (String.ofList (base64Digits _)))).length = authLength
  rw [chars_ofList (base64Digits_unbroken _), decoded_base64Digits, List.length_replicate]

/-- A device that subscribes is still there after a restart, until it unsubscribes. -/
theorem subscriptions_kept_bench :
    Along (follow digitFormat) (Served digitFormat)
      [.subscribe (benchSub ['p']), .restart, .unsubscribe "p"]
      (Table.start digitFormat, fun _ => none) := by
  refine (subscriptions_kept_iff digitFormat_lawful _).mpr ⟨?_, trivial, trivial, trivial⟩
  intro i _
  refine ⟨benchSub_key _, benchSub_secret _, ?_⟩
  have unbroken : ∀ c ∈ ['p'], c.toNat ≠ 0 := List.forall_mem_singleton.mpr (by decide)
  rw [benchSub_endpoint unbroken]
  decide

/-- A device whose endpoint is longer than its buffer is not kept under it. -/
theorem endpoint_cut :
    ¬Along (follow digitFormat) (Served digitFormat)
      [.subscribe (benchSub (List.replicate 512 'p'))]
      (Table.start digitFormat, fun _ => none) := by
  rintro ⟨served, _⟩
  have unbroken : ∀ c ∈ List.replicate 512 'p', c.toNat ≠ 0 := by
    intro c member
    rw [List.eq_of_mem_replicate member]
    decide
  have endpoint := benchSub_endpoint unbroken
  have fills : Fills (Table.start digitFormat) (benchSub (List.replicate 512 'p')) 0 := by
    refine ⟨?_, (benchSub_key _).ge, (benchSub_secret _).ge, ?_⟩
    · rw [endpoint]
      exact List.cons_ne_nil _ _
    · rw [endpoint]
      rfl
  have fits := ((served_iff kept_start _).mp served 0 fills).2.2
  rw [endpoint, List.length_replicate] at fits
  exact absurd fits (by decide)

end PiFire.Push
