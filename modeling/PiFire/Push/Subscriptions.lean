import PiFire.Push.Base64
import PiFire.Text.RoundTrip
import PiFire.Transition.Keyed
import PiFire.Transition.Run
import Mathlib.Data.Set.Card

/-!
# Push subscriptions

The devices that asked for notifications: a table of eight, which is saved as a JSON
text whenever it changes and loaded again at the next start. Beside it stands what the
table is for, a register of the endpoints that were accepted and not removed since.
-/

namespace PiFire.Push

open Transition

/-- `MAX_SUBS`. -/
def maxSubs : ℕ := 8

/-- `P256_PUB_LEN`. -/
def publicLength : ℕ := 65

/-- `AUTH_LEN`. -/
def authLength : ℕ := 16

/-- What the buffer of an endpoint has room for beside the zero. -/
def endpointLength : ℕ := 511

/-- The keys of a device. -/
@[ext]
structure Keys where
  uaPublic : List UInt8
  auth : List UInt8
  public_length : uaPublic.length = publicLength
  auth_length : auth.length = authLength
  deriving DecidableEq

/-- `sub_t`, of a slot that is used. -/
@[ext]
structure Sub where
  endpoint : List Char
  keys : Keys
  nonempty : endpoint ≠ []
  fits : endpoint.length ≤ endpointLength
  unbroken : ∀ c ∈ endpoint, c.toNat ≠ 0
  deriving DecidableEq

/-- The characters of a text up to a zero. -/
def chars (s : String) : List Char := s.toList.takeWhile (·.toNat ≠ 0)

/-- A record with the endpoint cut to its buffer. -/
def Sub.cut (endpoint : String) (keys : Keys) (given : chars endpoint ≠ []) : Sub where
  endpoint := (chars endpoint).take endpointLength
  keys := keys
  nonempty := by
    rw [Ne, List.take_eq_nil_iff]
    rintro (none_kept | empty)
    · cases none_kept
    · exact given empty
  fits := List.length_take_le _ _
  unbroken c member := by
    have kept := List.mem_takeWhile_imp (List.mem_of_mem_take member)
    exact of_decide_eq_true kept

/-- The keys that two texts decode to in the buffers for them. -/
def Keys.decode (uaPublic auth : String) : Option Keys :=
  if public_length : (b64urlDecode (chars uaPublic) publicLength).length = publicLength then
    if auth_length : (b64urlDecode (chars auth) authLength).length = authLength then
      some ⟨_, _, public_length, auth_length⟩
    else none
  else none

/-- A record as `subs_save` writes it. -/
def Sub.json (s : Sub) : Json :=
  .obj [("endpoint", .str (String.ofList s.endpoint)),
    ("p256dh", .str (String.ofList (b64urlEncode s.keys.uaPublic 128))),
    ("auth", .str (String.ofList (b64urlEncode s.keys.auth 32)))]

/-- The record `subs_load` takes from an entry. -/
def Sub.ofJson (e : Json) : Option Sub :=
  if given : chars (jsonStr e ["endpoint"] "") ≠ [] then
    (Keys.decode (jsonStr e ["p256dh"] "") (jsonStr e ["auth"] "")).map
      fun keys => Sub.cut _ keys given
  else none

variable (format : NumberFormat)

/-- `subs_save`. -/
def subsSave (subs : Slots Sub) : List Char :=
  printUnformatted format (.arr (subs.entries.map Sub.json))

/-- `subs_load`: the first eight good entries, in the first slots. -/
def subsLoad (text : Option (List Char)) : Slots Sub :=
  match text.bind (parse format) with
  | none => Slots.ofList maxSubs []
  | some list => Slots.ofList maxSubs ((list.children.filterMap Sub.ofJson).take maxSubs)

/-- The table, what is saved of it, and the copies that senders took of it. -/
structure Table where
  subs : Slots Sub
  saved : Option (List Char)
  copies : List (Slots Sub)

namespace Table

/-- `pf_webpush_init` with nothing saved yet. -/
def start : Table := ⟨subsLoad format none, none, []⟩

/-- The table is changed and saved. -/
def save (t : Table) (subs : Slots Sub) : Table :=
  { t with subs := subs, saved := some (subsSave format subs) }

/-- `pf_webpush_subscribe`. -/
def subscribe (t : Table) (sub : Json) : Except String Table :=
  let ep := jsonStr sub ["endpoint"] ""
  let p256dh := jsonStr sub ["keys", "p256dh"] ""
  let auth := jsonStr sub ["keys", "auth"] ""
  if given : chars ep ≠ [] then
    if chars p256dh = [] ∨ chars auth = [] then .error "that is not a push subscription"
    else if public_length :
        (b64urlDecode (chars p256dh) publicLength).length = publicLength then
      if auth_length : (b64urlDecode (chars auth) authLength).length = authLength then
        match t.subs.slotFor? Sub.endpoint (chars ep) with
        | some i =>
          .ok (t.save format
            (t.subs.set i (some (Sub.cut ep ⟨_, _, public_length, auth_length⟩ given))))
        | none => .error "no room for another device"
      else .error "the subscription secret is the wrong size"
    else .error "the subscription key is the wrong size"
  else .error "that is not a push subscription"

/-- `pf_webpush_unsubscribe`, and whether there was such a record. -/
def unsubscribe (t : Table) (endpoint : List Char) : Table × Bool :=
  if (t.subs.entries.any fun s => s.endpoint = endpoint) then
    (t.save format (t.subs.without Sub.endpoint endpoint), true)
  else (t, false)

/-- What happens to the table. -/
inductive Event
  | subscribe (sub : Json)
  | unsubscribe (endpoint : String)
  /-- a sender takes its copy -/
  | send
  /-- the push service says that a record of this copy has expired -/
  | expire (copy slot : ℕ)
  | restart

/-- The endpoint that an event removes. -/
def removes (t : Table) : Event → Option (List Char)
  | .unsubscribe endpoint => some (chars endpoint)
  | .expire copy slot => ((t.copies[copy]?).bind fun subs => subs.at? slot).map Sub.endpoint
  | _ => none

def step (e : Event) (t : Table) : Table :=
  match e with
  | .subscribe sub => (t.subscribe format sub).toOption.getD t
  | .send => { t with copies := t.copies ++ [t.subs] }
  | .restart => { t with subs := subsLoad format t.saved, copies := [] }
  | e =>
    match t.removes e with
    | some endpoint => (t.unsubscribe format endpoint).1
    | none => t

end Table

/-- The endpoints that notifications go to, with the keys last given for each. -/
abbrev Register := List Char → Option Keys

namespace Register

/-- The keys that two texts decode to, all of each text. -/
def keysOf (uaPublic auth : String) : Option Keys :=
  if public_length : (decoded (chars uaPublic)).length = publicLength then
    if auth_length : (decoded (chars auth)).length = authLength then
      some ⟨_, _, public_length, auth_length⟩
    else none
  else none

/-- There is a place for this endpoint: it has one, or fewer than eight have. -/
def Room (r : Register) (endpoint : List Char) : Prop :=
  r endpoint ≠ none ∨ {e | r e ≠ none}.ncard < maxSubs

open Classical in
/-- A subscription with three parts whose key and secret have the right length is
accepted where there is a place for it. -/
noncomputable def subscribe (r : Register) (sub : Json) : Option Register :=
  let endpoint := chars (jsonStr sub ["endpoint"] "")
  (keysOf (jsonStr sub ["keys", "p256dh"] "") (jsonStr sub ["keys", "auth"] "")).bind fun keys =>
    if endpoint ≠ [] ∧ r.Room endpoint then some (Function.update r endpoint (some keys)) else none

end Register

end PiFire.Push
