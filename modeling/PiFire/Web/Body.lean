import Mathlib.Algebra.Group.Nat.Defs
import Mathlib.Data.List.Infix
import Mathlib.Data.Nat.Basic
import Mathlib.Tactic.SplitIfs

/-!
# The body of a request

The body is read onto the heap, sized from its declared length where there is one, and the buffer
grows while reads bring more. What a read brings is up to the connection, and so is when the
reads end.
-/

namespace PiFire.Web

/-- A request as the connection carries it: the whole body as the client means it, how many of
its bytes the reads bring before they end, and how they are split. A declared length is the
body's. -/
structure Request where
  method : String
  localUri : String
  query : Option String
  contentLength : Option ℕ
  body : List UInt8
  arrived : ℕ
  pieces : ℕ → ℕ
  declared : ∀ n, contentLength = some n → n = body.length
  within : arrived ≤ body.length

/-- What the routes are given. -/
structure ApiReq where
  method : String
  path : String
  query : String
  body : List UInt8
  bodyLen : ℕ
  deriving DecidableEq

/-- An answer, and the request that was given to the routes for it. -/
structure Reply where
  dispatched : Option ApiReq
  status : ℕ
  json : String
  deriving DecidableEq

/-- What is known of the request's id: nothing or that it is new, the answer it had, or that it
is still being worked on. -/
inductive Replay where
  | fresh
  | answered (status : ℕ) (json : String)
  | working

/-- `BODY_MAX` -/
def bodyMax : ℕ := 2 ^ 20

/-- What comes of reading. -/
inductive Body where
  | tooLarge
  | outOfMemory
  | read (bytes : List UInt8)
  deriving DecidableEq

/-- `mg_read`: at least one byte and at most as many as there is room for, until there are no
more. -/
def mgRead (piece room : ℕ) (rest : List UInt8) : List UInt8 := rest.take (min (piece + 1) room)

/-- The buffer's next size. -/
def grown (limit cap : ℕ) : ℕ := if cap > limit / 2 then limit else cap * 2

/-- The loop over the reads, with the buffer's size and the bytes read so far. -/
def readLoop (alloc : ℕ → Bool) (limit : ℕ) (pieces : ℕ → ℕ) (k cap : ℕ)
    (body rest : List UInt8) : Body :=
  let r := mgRead (pieces k) (cap - 1 - body.length) rest
  if _ : r = [] then .read body
  else
    let rest' := rest.drop r.length
    if (body ++ r).length + 1 < cap then
      readLoop alloc limit pieces (k + 1) cap (body ++ r) rest'
    else if cap ≥ limit then .tooLarge
    else if alloc (grown limit cap) then
      readLoop alloc limit pieces (k + 1) (grown limit cap) (body ++ r) rest'
    else .outOfMemory
termination_by rest.length
decreasing_by all_goals
  have more : mgRead (pieces k) (cap - 1 - body.length) rest ≠ [] := by assumption
  have some_ := List.length_pos_iff.mpr more
  have among : (mgRead (pieces k) (cap - 1 - body.length) rest).length ≤ rest.length :=
    List.length_take_le' _ _
  simp only [List.length_drop]
  omega

/-- Whether a text is somewhere in another. -/
def strstr (haystack needle : String) : Bool := decide (needle.toList <:+: haystack.toList)

namespace Request

/-- Whether the method is one that a body is read for. -/
def hasBody (r : Request) : Bool :=
  r.method == "POST" || r.method == "PUT" || r.method == "PATCH"

/-- `body_max` -/
def limit (r : Request) : ℕ :=
  if strstr r.localUri "/backup/restore" then 64 * 2 ^ 20 else bodyMax

/-- The buffer's first size. -/
def firstCap (r : Request) : ℕ :=
  match r.contentLength with
  | some (n + 1) => n + 2
  | _ => 4096

/-- The reading of the body. -/
def readBody (alloc : ℕ → Bool) (r : Request) : Body :=
  if r.hasBody then
    if r.contentLength.getD 0 > r.limit then .tooLarge
    else if alloc r.firstCap then
      readLoop alloc r.limit r.pieces 0 r.firstCap [] (r.body.take r.arrived)
    else .outOfMemory
  else .read []

/-- What the routes are given with a body. -/
def withBody (r : Request) (body : List UInt8) : ApiReq :=
  { method := r.method
    path := String.ofList (r.localUri.toList.drop 7)
    query := r.query.getD ""
    body := body
    bodyLen := body.length }

end Request

def refusal (status : ℕ) (json : String) : Reply := ⟨none, status, json⟩

def requestTooLarge : Reply := refusal 413 "\x7b\"error\":\"request too large\"\x7d"

def outOfMemory : Reply := refusal 503 "\x7b\"error\":\"out of memory\"\x7d"

/-- Once the body is read: the routes are asked, unless the id has been seen. -/
def serve (replay : Replay) (dispatch : ApiReq → ℕ × Option String) (req : ApiReq) : Reply :=
  match replay with
  | .answered status json => refusal status json
  | .working => refusal 503
      "\x7b\"result\":\"ERROR\",\"message\":\"still working on it\"\x7d"
  | .fresh => ⟨some req, (dispatch req).1, (dispatch req).2.getD "\x7b\x7d"⟩

/-- `api_handler` -/
def apiHandler (alloc : ℕ → Bool) (replay : Replay) (dispatch : ApiReq → ℕ × Option String)
    (r : Request) : Reply :=
  match r.readBody alloc with
  | .tooLarge => requestTooLarge
  | .outOfMemory => outOfMemory
  | .read body => serve replay dispatch (r.withBody body)

section Loop

variable {alloc : ℕ → Bool} {limit : ℕ} {pieces : ℕ → ℕ}

theorem lt_grown {cap : ℕ} (small : cap < limit) (some_ : 0 < cap) :
    cap < grown limit cap ∧ grown limit cap ≤ limit := by
  rw [grown]
  split_ifs <;> omega

theorem mgRead_eq_nil {piece room : ℕ} {rest : List UInt8} (room_ : 0 < room) :
    mgRead piece room rest = [] ↔ rest = [] := by
  rw [mgRead, List.take_eq_nil_iff]
  constructor
  · rintro (none_ | empty)
    · omega
    · exact empty
  · exact Or.inr

theorem mgRead_append (piece room : ℕ) (rest : List UInt8) :
    mgRead piece room rest ++ rest.drop (mgRead piece room rest).length = rest :=
  List.prefix_iff_eq_append.mp (List.take_prefix _ _)

theorem length_mgRead_le (piece room : ℕ) (rest : List UInt8) :
    (mgRead piece room rest).length ≤ room :=
  (List.length_take_le _ _).trans (min_le_right _ _)

theorem readLoop_eq (memory : ∀ n, alloc n = true) (rest : List UInt8) :
    ∀ (k cap : ℕ) (body : List UInt8), body.length + 1 < cap →
      readLoop alloc limit pieces k cap body rest =
        if max cap limit ≤ (body ++ rest).length + 1 then .tooLarge else .read (body ++ rest) := by
  induction hn : rest.length using Nat.strong_induction_on generalizing rest with
  | _ n ih =>
      intro k cap body room
      have none_iff : mgRead (pieces k) (cap - 1 - body.length) rest = [] ↔ rest = [] :=
        mgRead_eq_nil (by omega)
      have whole := mgRead_append (pieces k) (cap - 1 - body.length) rest
      have fits := length_mgRead_le (pieces k) (cap - 1 - body.length) rest
      rw [readLoop]
      generalize mgRead (pieces k) (cap - 1 - body.length) rest = r at none_iff whole fits
      have total : (body ++ rest).length = (body ++ r).length + (rest.drop r.length).length := by
        rw [← List.length_append, List.append_assoc, whole]
      dsimp only
      by_cases none_ : r = []
      · rw [dif_pos none_, none_iff.mp none_, List.append_nil, if_neg (by omega)]
      rw [dif_neg none_]
      have shorter : (rest.drop r.length).length < n := by
        have some_ := List.length_pos_iff.mpr none_
        have among := congrArg List.length whole
        rw [List.length_append] at among
        omega
      by_cases short : (body ++ r).length + 1 < cap
      · rw [if_pos short, ih _ shorter _ rfl _ _ _ short, List.append_assoc, whole]
      · have full : (body ++ r).length + 1 = cap := by
          rw [List.length_append] at short ⊢
          omega
        rw [if_neg short]
        by_cases most : cap ≥ limit
        · rw [if_pos most, if_pos (by rw [max_eq_left most]; omega)]
        · obtain ⟨larger, within⟩ := lt_grown (not_le.mp most) (by omega)
          rw [if_neg most, if_pos (memory _), ih _ shorter _ rfl _ _ _ (by omega),
            List.append_assoc, whole, max_eq_right within, max_eq_right (not_le.mp most).le]

end Loop

/-- The routes are only asked with the complete body; one that comes complete is accepted up to
the limit, and refused as too large above it. -/
structure Whole (alloc : ℕ → Bool) (r : Request) : Prop where
  complete : ∀ replay dispatch req,
    (apiHandler alloc replay dispatch r).dispatched = some req → req.body = r.body
  accepted : r.arrived = r.body.length → r.body.length ≤ r.limit → ∀ replay dispatch,
    apiHandler alloc replay dispatch r = serve replay dispatch (r.withBody r.body)
  refused : r.arrived = r.body.length → r.limit < r.body.length → ∀ replay dispatch,
    apiHandler alloc replay dispatch r = requestTooLarge

/-- The requests that are: those declared longer than the limit, those that come complete and are
not within a byte of the limit, and those of no declared length that end after as many bytes as
the buffer holds at most. A method that no body is read for must come without one. -/
def Request.Sound (r : Request) : Prop :=
  if r.hasBody then
    r.limit < r.contentLength.getD 0 ∨
      r.arrived = r.body.length ∧ (r.body.length + 2 ≤ r.limit ∨ r.limit < r.body.length) ∨
      r.contentLength = none ∧ r.arrived < r.body.length ∧ r.limit ≤ r.arrived + 1
  else r.body = []

section Handler

variable {alloc : ℕ → Bool} {r : Request}

theorem withBody_inj {b c : List UInt8} (same : r.withBody b = r.withBody c) : b = c :=
  congrArg ApiReq.body same

theorem whole_iff : Whole alloc r ↔
    (∀ b, r.readBody alloc = .read b → b = r.body) ∧
      (r.arrived = r.body.length → r.body.length ≤ r.limit → r.readBody alloc = .read r.body) ∧
      (r.arrived = r.body.length → r.limit < r.body.length → r.readBody alloc = .tooLarge) := by
  have answer (b : List UInt8) (out : r.readBody alloc = .read b)
      (replay : Replay) (dispatch : ApiReq → ℕ × Option String) :
      apiHandler alloc replay dispatch r = serve replay dispatch (r.withBody b) := by
    rw [apiHandler, out]
  constructor
  · intro whole
    refine ⟨?_, ?_, ?_⟩
    · intro b out
      have asked := whole.complete .fresh (fun _ => (200, none)) (r.withBody b)
      rw [answer b out] at asked
      exact asked rfl
    · intro arrives within
      have same := whole.accepted arrives within .fresh (fun _ => (200, none))
      have given := congrArg Reply.dispatched same
      cases out : r.readBody alloc with
      | tooLarge =>
          rw [apiHandler, out] at given
          cases given
      | outOfMemory =>
          rw [apiHandler, out] at given
          cases given
      | read b =>
          rw [answer b out] at given
          rw [withBody_inj (Option.some_inj.mp given)]
    · intro arrives beyond
      have same := whole.refused arrives beyond .fresh (fun _ => (200, none))
      cases out : r.readBody alloc with
      | tooLarge => rfl
      | outOfMemory =>
          have status := congrArg Reply.status same
          rw [apiHandler, out] at status
          cases status
      | read b =>
          have given := congrArg Reply.dispatched same
          rw [answer b out] at given
          cases given
  · rintro ⟨complete, accepted, refused⟩
    refine ⟨?_, ?_, ?_⟩
    · intro replay dispatch req asked
      cases out : r.readBody alloc with
      | tooLarge =>
          rw [apiHandler, out] at asked
          cases asked
      | outOfMemory =>
          rw [apiHandler, out] at asked
          cases asked
      | read b =>
          rw [answer b out] at asked
          cases replay with
          | fresh =>
              rw [← Option.some_inj.mp asked]
              exact complete b out
          | answered status json => cases asked
          | working => cases asked
    · exact fun arrives within => answer _ (accepted arrives within)
    · intro arrives beyond replay dispatch
      rw [apiHandler, refused arrives beyond]

theorem one_lt_firstCap : 1 < r.firstCap := by
  rw [Request.firstCap]
  split <;> omega

theorem readBody_eq (memory : ∀ n, alloc n = true) (reads : r.hasBody = true) :
    r.readBody alloc =
      if r.limit < r.contentLength.getD 0 ∨ max r.firstCap r.limit ≤ r.arrived + 1 then .tooLarge
      else .read (r.body.take r.arrived) := by
  have comes : (r.body.take r.arrived).length = r.arrived := by
    rw [List.length_take, min_eq_left r.within]
  rw [Request.readBody, if_pos reads, if_pos (memory _),
    readLoop_eq memory _ _ _ _ one_lt_firstCap, List.nil_append, comes]
  by_cases long : r.limit < r.contentLength.getD 0
  · rw [if_pos long, if_pos (Or.inl long)]
  · rw [if_neg long]
    simp only [long, false_or]

theorem bodyMax_le_limit : bodyMax ≤ r.limit := by
  rw [Request.limit]
  split_ifs
  · exact Nat.le_mul_of_pos_left _ (by decide)
  · exact le_rfl

theorem read_iff (refuses : Prop) [Decidable refuses] :
    let out := if refuses then Body.tooLarge else .read (r.body.take r.arrived)
    ((∀ b, out = .read b → b = r.body) ↔ (¬refuses → r.arrived = r.body.length)) ∧
      (r.arrived = r.body.length → (out = .read r.body ↔ ¬refuses)) ∧
      (out = .tooLarge ↔ refuses) := by
  intro out
  have taken : r.body.take r.arrived = r.body ↔ r.arrived = r.body.length := by
    rw [List.take_eq_self_iff]
    have within := r.within
    omega
  by_cases h : refuses
  · have refused : out = .tooLarge := if_pos h
    rw [refused]
    simp [h]
  · have handed : out = .read (r.body.take r.arrived) := if_neg h
    rw [handed]
    simp [h, taken]

/-- A request is read whole or refused, where there is memory for it, just where it is one of
those. -/
theorem whole_iff_sound (alloc : ℕ → Bool) (memory : ∀ n, alloc n = true) (r : Request) :
    Whole alloc r ↔ r.Sound := by
  rw [whole_iff, Request.Sound]
  by_cases reads : r.hasBody = true
  · rw [if_pos reads, readBody_eq memory reads]
    obtain ⟨complete, accepted, refused⟩ := read_iff (r := r)
      (r.limit < r.contentLength.getD 0 ∨ max r.firstCap r.limit ≤ r.arrived + 1)
    rw [complete, refused]
    have atLeast : 2 ^ 20 ≤ r.limit := bodyMax_le_limit
    have within := r.within
    have reached : (r.arrived = r.body.length → r.body.length ≤ r.limit →
        (if r.limit < r.contentLength.getD 0 ∨ max r.firstCap r.limit ≤ r.arrived + 1
          then Body.tooLarge else .read (r.body.take r.arrived)) = .read r.body) ↔
        (r.arrived = r.body.length → r.body.length ≤ r.limit →
          ¬(r.limit < r.contentLength.getD 0 ∨ max r.firstCap r.limit ≤ r.arrived + 1)) :=
      forall_congr' fun arrives => imp_congr_right fun _ => accepted arrives
    rw [reached, Request.firstCap]
    clear complete accepted refused reached
    cases declared : r.contentLength with
    | none =>
        simp only [Option.getD_none, true_and, Nat.max_le]
        omega
    | some n =>
        have length := r.declared n declared
        cases n with
        | zero =>
            simp only [Option.getD_some, reduceCtorEq, false_and, Nat.max_le]
            omega
        | succ n =>
            simp only [Option.getD_some, reduceCtorEq, false_and, Nat.max_le, or_false]
            constructor
            · rintro ⟨complete, accepted, -⟩
              by_cases arrives : r.arrived = r.body.length
              · have open_ := accepted arrives
                omega
              · have refused := mt complete arrives
                omega
            · intro sound
              refine ⟨fun _ => ?_, fun _ _ => ?_, fun _ _ => ?_⟩
              · omega
              · omega
              · omega
  · have none_ : r.readBody alloc = .read [] := by rw [Request.readBody, if_neg reads]
    rw [if_neg reads, none_]
    constructor
    · rintro ⟨complete, -, -⟩
      exact (complete [] rfl).symm
    · intro empty
      rw [empty]
      refine ⟨fun b out => ?_, fun _ _ => rfl, fun _ beyond => absurd beyond (Nat.not_lt_zero _)⟩
      injection out with same
      exact same.symm

end Handler

/-- A request with a body of two bytes, as many as it declares. -/
def small : Request :=
  { method := "POST"
    localUri := "/api/v1/control"
    query := none
    contentLength := some 2
    body := [123, 125]
    arrived := 2
    pieces := fun _ => 0
    declared := by rintro n ⟨rfl⟩; rfl
    within := le_rfl }

theorem small_whole : Whole (fun _ => true) small := by
  apply (whole_iff_sound (fun _ => true) (fun _ => rfl) small).mpr
  have room : 2 ^ 20 ≤ small.limit := bodyMax_le_limit
  have reads : small.hasBody = true := rfl
  rw [Request.Sound, if_pos reads]
  refine Or.inr (Or.inl ⟨rfl, Or.inl ?_⟩)
  exact le_trans (by decide) room

/-- The same request, but the reads end after its first byte. -/
def cut : Request :=
  { small with
    arrived := 1
    within := by decide }

/-- What came of it is given to the routes. -/
theorem cut_not_whole : ¬∀ alloc r, (∀ n, alloc n = true) → Whole alloc r := by
  intro right
  have room : 2 ^ 20 ≤ cut.limit := bodyMax_le_limit
  have read : cut.readBody (fun _ => true) = .read [123] := by
    rw [readBody_eq (fun _ => rfl) rfl]
    apply if_neg
    change ¬(cut.limit < 2 ∨ max 3 cut.limit ≤ 2)
    omega
  have complete := (right (fun _ => true) cut fun _ => rfl).complete .fresh (fun _ => (200, none))
    (cut.withBody [123])
  rw [apiHandler, read] at complete
  exact absurd (complete rfl) (by decide)

end PiFire.Web
