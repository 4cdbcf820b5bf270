import PiFire.Control.Common
import PiFire.Transition.Run

/-!
# The jobs of the updater

A check and an install each run in a thread of their own. What an install fetches is chosen as
it is accepted, and read only when the packages of the system have been upgraded; in between any
other thread may ask for something else. Each step below is one critical section or what a job
does between two of them, and what the network and the commands answer is an input.
-/

namespace PiFire.Update

open Transition

/-- What the installer fetches: `asset_name`, `asset_url`, `sums_url`, `notes` and `latest`. -/
structure Offer where
  asset : String := ""
  url : String := ""
  sums : String := ""
  notes : String := ""
  latest : String := ""
  deriving DecidableEq

/-- An entry of `releases`. -/
structure Release extends Offer where
  tag : String
  version : String

/-- A request to install, with what it reads of the status and of the settings. -/
structure Order where
  pifire : Bool
  packages : List String
  tag : String
  mode : Mode
  hotUpdate : Bool

/-- A job's thread, before its next step. -/
inductive Worker where
  /-- it is accepted, and its thread is not there yet -/
  | start (first : Worker)
  /-- what is left to look at -/
  | check (pifire system : Bool)
  | upgrade (packages : List String) (pifire : Bool)
  | install
  /-- what it has read is fetched, verified and applied -/
  | fetch (o : Offer)
  | close

/-- What was done, with what it was done to. -/
inductive Note where
  | accepted (order : Order) (releases : List Release) (o : Offer)
  | upgraded (packages : List String) (ok : Bool)
  | fetched (o : Offer)

/-- The updater, with what it did, newest first. -/
structure Updater where
  busy : Bool := false
  offer : Offer := {}
  available : Bool := false
  switching : Bool := false
  releases : List Release := []
  packages : List String := []
  workers : List Worker := []
  past : List Note := []

/-- What `check_pifire` lists, and the newest of it, whether it is newer than the one that runs and
whether it is another branch's. -/
structure Finding where
  releases : List Release
  best : Option (Offer × Bool × Bool)

/-- What the next step of a job meets. -/
structure Outcome where
  ok : Bool
  finding : Option Finding
  packages : Option (List String)

inductive Happening where
  | check (pifire system : Bool)
  | install (order : Order)
  | work (i : ℕ) (outcome : Outcome)

def packageChar (c : Char) : Bool :=
  'a' ≤ c && c ≤ 'z' || '0' ≤ c && c ≤ '9'

/-- `valid_pkg` -/
def validPkg (s : String) : Bool :=
  match s.toList with
  | [] => false
  | c :: rest =>
      rest.length < 90 && packageChar c &&
        rest.all fun c => packageChar c || c == '+' || c == '-' || c == '.' || c == ':'

def Order.cooking (r : Order) : Bool := r.mode != .stop && r.mode != .monitor && r.mode != .error

/-- What a request is refused for before the updater is looked at. -/
def Order.allowed (r : Order) : Bool :=
  (r.pifire || !r.packages.isEmpty) && r.mode != .manual && r.mode != .prime &&
    !(r.pifire && r.cooking && !r.hotUpdate) && !(!r.packages.isEmpty && r.cooking) &&
      r.packages.all validPkg

/-- The first step of its job. -/
def Order.first (r : Order) : Worker :=
  if r.packages = [] then .install else .upgrade r.packages r.pifire

section

variable (sim : Bool) (version : String)

/-- There is an archive, and its hash unless nothing is installed. -/
def Offer.Built (o : Offer) : Prop := o.url ≠ "" ∧ (o.sums ≠ "" ∨ sim = true)

instance (o : Offer) : Decidable (o.Built sim) := inferInstanceAs (Decidable (_ ∧ _))

/-- `select_release` -/
def selectRelease (tag : String) (u : Updater) : Option Offer :=
  match u.releases.find? fun r => r.tag == tag || r.version == tag with
  | none => none
  | some r =>
      if ¬r.toOffer.Built sim then none
      else if r.version = version ∧ u.switching = false then none
      else some { r.toOffer with latest := r.tag }

/-- What an accepted request fetches. -/
def Order.chosen (r : Order) (u : Updater) : Option Offer :=
  if r.pifire = false then some u.offer
  else if r.tag ≠ "" then selectRelease sim version r.tag u
  else if u.available = true ∧ u.offer.Built sim then some u.offer
  else none

namespace Updater

/-- `check_start` -/
def checkStart (pifire system : Bool) (u : Updater) : Updater :=
  if (pifire || system) && !u.busy then
    { u with busy := true, workers := u.workers ++ [.start (.check pifire system)] }
  else u

/-- `pf_update_install_ex` -/
def install (r : Order) (u : Updater) : Updater :=
  if r.allowed && !u.busy then
    match r.chosen sim version u with
    | none => u
    | some o =>
        { u with
          busy := true
          offer := o
          workers := u.workers ++ [.start r.first]
          past := .accepted r u.releases o :: u.past }
  else u

/-- `check_pifire`, as far as an install reads what it writes. -/
def found (f : Finding) (u : Updater) : Updater :=
  match f.best with
  | none =>
      { u with releases := f.releases, available := false, offer := { u.offer with latest := "" } }
  | some (o, available, switching) =>
      { u with releases := f.releases, offer := o, available, switching }

end Updater

end

/-- The next step of `start_worker`, `check_thread` and `install_thread`, and the one after it. -/
def Worker.step (out : Outcome) : Worker → Updater → Option Worker × Updater
  | .start first, u => if out.ok then (some first, u) else (none, { u with busy := false })
  | .check true system, u => (some (.check false system), out.finding.elim u u.found)
  | .check false true, u =>
      (some (.check false false), out.packages.elim u fun found => { u with packages := found })
  | .check false false, u => (none, { u with busy := false })
  | .upgrade packages pifire, u =>
      (some (if out.ok && pifire then .install else .close),
        { u with
          packages := if out.ok then u.packages.filter (· ∉ packages) else u.packages
          past := .upgraded packages out.ok :: u.past })
  | .install, u => (some (.fetch u.offer), { u with past := .fetched u.offer :: u.past })
  | .fetch _, u => (some .close, u)
  | .close, u => (none, { u with busy := false })

def Updater.happen (sim : Bool) (version : String) : Happening → Updater → Updater
  | .check pifire system, u => u.checkStart pifire system
  | .install r, u => u.install sim version r
  | .work i out, u =>
      match u.workers[i]? with
      | none => u
      | some w =>
          let (next, after) := w.step out u
          { after with workers := next.elim (u.workers.eraseIdx i) (u.workers.set i) }

/-! ## What is done in turn -/

/-- What a request was accepted with: no manual run or prime is on, packages are never upgraded
under a cook, and the archive is there, that of the release that was asked for. -/
structure Order.Fits (sim : Bool) (r : Order) (releases : List Release) (o : Offer) : Prop where
  something : r.pifire = true ∨ r.packages ≠ []
  mode : r.mode ≠ .manual ∧ r.mode ≠ .prime
  cold : r.cooking = true → r.packages = [] ∧ r.hotUpdate = true
  named : r.packages.all validPkg = true
  built : r.pifire = true → o.Built sim
  tagged : r.pifire = true → r.tag ≠ "" → ∃ x ∈ releases, (x.tag = r.tag ∨ x.version = r.tag) ∧
    o = { x.toOffer with latest := x.tag }

/-- What was done last is the acceptance of this request with this offer, and the upgrade
of its packages where it has any. -/
def Ready (o : Offer) (past : List Note) : Prop :=
  ∃ r releases before, r.pifire = true ∧
    (r.packages = [] ∧ past = .accepted r releases o :: before ∨
      past = .upgraded r.packages true :: .accepted r releases o :: before)

/-- Each request was in order as it was accepted. Its packages are upgraded right after that,
once, and what was chosen for it is fetched right after that, once. -/
def Orderly (sim : Bool) : List Note → Prop
  | [] => True
  | .accepted r releases o :: past => r.Fits sim releases o ∧ Orderly sim past
  | .upgraded packages _ :: past =>
      (∃ r releases o before, packages = r.packages ∧ r.packages ≠ [] ∧
        past = .accepted r releases o :: before) ∧ Orderly sim past
  | .fetched o :: past => Ready o past ∧ Orderly sim past

/-- The job is as far as what was done says. -/
def Worker.Due (o : Offer) (past : List Note) : Worker → Prop
  | .start first => first.Due o past
  | .upgrade packages pifire => ∃ r releases before, packages = r.packages ∧ r.packages ≠ [] ∧
      pifire = r.pifire ∧ past = .accepted r releases o :: before
  | .install => Ready o past
  | _ => True

/-- What is known of the updater between two steps. -/
structure InTurn (sim : Bool) (u : Updater) : Prop where
  orderly : Orderly sim u.past
  alone : u.busy = false ∧ u.workers = [] ∨
    u.busy = true ∧ ∃ w : Worker, u.workers = [w] ∧ w.Due u.offer u.past

variable {sim : Bool} {version : String} {r : Order} {o : Offer} {u : Updater}

theorem selectRelease_eq_some (found : selectRelease sim version r.tag u = some o) :
    o.Built sim ∧ ∃ x ∈ u.releases, (x.tag = r.tag ∨ x.version = r.tag) ∧
      o = { x.toOffer with latest := x.tag } := by
  unfold selectRelease at found
  split at found
  · cases found
  · rename_i x listed
    split_ifs at found with built
    cases found
    have there : x.toOffer.Built sim := built
    have named := List.find?_some listed
    simp only [Bool.or_eq_true, beq_iff_eq] at named
    exact ⟨there, x, List.mem_of_find?_eq_some listed, named, rfl⟩

theorem Order.fits (allowed : r.allowed = true) (chosen : r.chosen sim version u = some o) :
    r.Fits sim u.releases o := by
  simp only [Order.allowed, Bool.and_eq_true, Bool.or_eq_true, Bool.not_eq_true', bne_iff_ne,
    ne_eq, Bool.and_eq_false_iff, Bool.not_eq_false', List.isEmpty_iff,
    List.isEmpty_eq_false_iff] at allowed
  obtain ⟨⟨⟨⟨⟨something, manual⟩, prime⟩, hot⟩, cold⟩, named⟩ := allowed
  unfold Order.chosen at chosen
  refine ⟨something, ⟨manual, prime⟩, ?_, named, ?_, ?_⟩
  · intro cooking
    have none_ : r.packages = [] := by simpa [cooking] using cold
    have pifire : r.pifire = true := by simpa [none_] using something
    exact ⟨none_, by simpa [cooking, pifire] using hot⟩
  · intro pifire
    rw [if_neg (by simp [pifire])] at chosen
    split_ifs at chosen with tagged offered
    · exact (selectRelease_eq_some chosen).1
    · cases chosen
      exact offered.2
  · intro pifire tagged
    rw [if_neg (by simp [pifire]), if_pos tagged] at chosen
    exact (selectRelease_eq_some chosen).2

theorem InTurn.checkStart (turn : InTurn sim u) (pifire system : Bool) :
    InTurn sim (u.checkStart pifire system) := by
  unfold Updater.checkStart
  split_ifs with begins
  · simp only [Bool.and_eq_true, Bool.not_eq_true'] at begins
    rcases turn.alone with ⟨-, idle⟩ | ⟨busy, -⟩
    · exact ⟨turn.orderly, Or.inr ⟨rfl, .start (.check pifire system), by simp [idle], trivial⟩⟩
    · rw [begins.2] at busy
      cases busy
  · exact turn

theorem Order.first_due (fits : r.Fits sim u.releases o) :
    r.first.Due o (.accepted r u.releases o :: u.past) := by
  unfold Order.first
  split_ifs with none_
  · have pifire : r.pifire = true := fits.something.resolve_right fun some_ => some_ none_
    exact ⟨r, u.releases, u.past, pifire, Or.inl ⟨none_, rfl⟩⟩
  · exact ⟨r, u.releases, u.past, rfl, none_, rfl, rfl⟩

theorem InTurn.install (turn : InTurn sim u) (r : Order) :
    InTurn sim (u.install sim version r) := by
  unfold Updater.install
  by_cases accepts : (r.allowed && !u.busy) = true
  · rw [if_pos accepts]
    simp only [Bool.and_eq_true, Bool.not_eq_true'] at accepts
    have idle : u.workers = [] := by
      rcases turn.alone with ⟨-, idle⟩ | ⟨busy, -⟩
      · exact idle
      · rw [accepts.2] at busy
        cases busy
    cases chosen : r.chosen sim version u with
    | none => exact turn
    | some o =>
        have fits := Order.fits accepts.1 chosen
        exact ⟨⟨fits, turn.orderly⟩, Or.inr
          ⟨rfl, .start r.first, congrArg (· ++ [.start r.first]) idle, Order.first_due fits⟩⟩
  · rw [if_neg accepts]
    exact turn

/-- A job that makes its next step. -/
theorem InTurn.step {w : Worker} (orderly : Orderly sim u.past) (busy : u.busy = true)
    (due : w.Due u.offer u.past) (out : Outcome) :
    Orderly sim (w.step out u).2.past ∧
      ((w.step out u).2.busy = false ∧ (w.step out u).1 = none ∨
        (w.step out u).2.busy = true ∧
          ∃ next, (w.step out u).1 = some next ∧
            next.Due (w.step out u).2.offer (w.step out u).2.past) := by
  obtain ⟨ok, finding, found⟩ := out
  cases w with
  | start first =>
      cases ok with
      | true => exact ⟨orderly, Or.inr ⟨busy, first, rfl, due⟩⟩
      | false => exact ⟨orderly, Or.inl ⟨rfl, rfl⟩⟩
  | check pifire system =>
      cases pifire with
      | true =>
          cases finding with
          | none => exact ⟨orderly, Or.inr ⟨busy, _, rfl, trivial⟩⟩
          | some f =>
              obtain ⟨releases, best⟩ := f
              cases best <;> exact ⟨orderly, Or.inr ⟨busy, _, rfl, trivial⟩⟩
      | false =>
          cases system with
          | true => cases found <;> exact ⟨orderly, Or.inr ⟨busy, _, rfl, trivial⟩⟩
          | false => exact ⟨orderly, Or.inl ⟨rfl, rfl⟩⟩
  | upgrade packages pifire =>
      obtain ⟨r, releases, before, rfl, some_, rfl, accepted⟩ := due
      refine ⟨⟨⟨r, releases, _, before, rfl, some_, accepted⟩, orderly⟩, Or.inr ⟨busy, _, rfl, ?_⟩⟩
      by_cases goes : (ok && r.pifire) = true
      · rw [if_pos goes]
        rw [Bool.and_eq_true] at goes
        obtain ⟨rfl, pifire⟩ := goes
        have noted : Note.upgraded r.packages true :: u.past =
            .upgraded r.packages true :: .accepted r releases u.offer :: before := by
          rw [accepted]
        exact ⟨r, releases, before, pifire, Or.inr noted⟩
      · rw [if_neg goes]
        trivial
  | install => exact ⟨⟨due, orderly⟩, Or.inr ⟨busy, _, rfl, trivial⟩⟩
  | fetch => exact ⟨orderly, Or.inr ⟨busy, _, rfl, trivial⟩⟩
  | close => exact ⟨orderly, Or.inl ⟨rfl, rfl⟩⟩

theorem InTurn.happen (turn : InTurn sim u) (version : String) (h : Happening) :
    InTurn sim (u.happen sim version h) := by
  cases h with
  | check pifire system => exact turn.checkStart pifire system
  | install r => exact turn.install r
  | work i out =>
      rcases turn.alone with ⟨-, idle⟩ | ⟨busy, w, only, due⟩
      · simpa [Updater.happen, idle] using turn
      · cases i with
        | succ i => simpa [Updater.happen, only] using turn
        | zero =>
            obtain ⟨orderly, alone⟩ := InTurn.step turn.orderly busy due out
            simp only [Updater.happen, only, List.getElem?_cons_zero]
            rcases alone with ⟨free, ends⟩ | ⟨stays, next, goes, later⟩
            · exact ⟨orderly, Or.inl ⟨free, by rw [ends]; rfl⟩⟩
            · exact ⟨orderly, Or.inr ⟨stays, next, by rw [goes]; rfl, later⟩⟩

/-- In every order of requests and of steps of the jobs there is one job at most, and the updater
is busy just while there is. Whatever is asked for meanwhile, what is fetched is what was chosen as
the request was accepted, after its packages were upgraded. -/
theorem jobs_in_turn (sim : Bool) (version : String) (happenings : List Happening) :
    let u := run (fun h u => Updater.happen sim version h u) happenings {}
    Orderly sim u.past ∧ u.workers.length = if u.busy then 1 else 0 := by
  intro u
  have turn : InTurn sim u :=
    run_invariant (InTurn sim) (fun h _ turn => turn.happen version h)
      ⟨trivial, Or.inl ⟨rfl, rfl⟩⟩
  refine ⟨turn.orderly, ?_⟩
  rcases turn.alone with ⟨free, idle⟩ | ⟨busy, w, only, -⟩
  · simp [free, idle]
  · simp [busy, only]

end PiFire.Update
