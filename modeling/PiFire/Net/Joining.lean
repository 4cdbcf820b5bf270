import PiFire.Net.Watchdog
import PiFire.Transition.Run

/-!
# Joining a network

A request to join a network is left for the thread of the network manager, which takes it,
tries to join, and notes how it went. The requests may come from any thread at any time; each
step below is one critical section, and between two of them any other may come. What the
radio answers is an input.
-/

namespace PiFire.Net

open Transition

/-- A network and its password. -/
structure Join where
  ssid : String
  psk : String
  deriving DecidableEq

/-- Where the thread is in its loop. -/
inductive Place where
  /-- to look for requests -/
  | poll
  /-- it has seen a request, and is to take it -/
  | fetch
  /-- it waits for the radio to join this network -/
  | joining (j : Join)
  /-- it has asked the radio for its state -/
  | refresh
  deriving DecidableEq

/-- The manager, with the requests it accepted and those the radio was given, oldest first. -/
structure Manager where
  state : NetState := .boot
  /-- `g_req_connect` with `g_req_ssid` and `g_req_psk` -/
  request : Option Join := none
  place : Place := .poll
  accepted : List Join := []
  tried : List Join := []

/-- What can happen. -/
inductive Happening where
  | connect (j : Join)
  /-- the thread looks for requests; without one it may ask the radio for its state -/
  | poll (asks : Bool)
  | fetch
  | joined (ok : Bool)
  | refresh (hotspot connected : Bool)

/-- `pf_netmgr_connect`: whether the request is accepted. -/
def Manager.accepts (m : Manager) : Bool := m.state != .connecting && m.request.isNone

/-- `refresh`, as far as it writes the state. -/
def refreshed (hotspot connected : Bool) (state : NetState) : NetState :=
  if state ≠ .connecting then
    if hotspot then .hotspot
    else if connected then .online
    else if state = .boot then .boot else .offline
  else state

def Manager.happen : Happening → Manager → Manager
  | .connect j, m =>
      if m.accepts then
        { m with request := some j, state := .connecting, accepted := m.accepted ++ [j] }
      else m
  | .poll asks, m =>
      if m.place = .poll then
        { m with place := if m.request.isSome then .fetch else if asks then .refresh else .poll }
      else m
  | .fetch, m =>
      match m.place, m.request with
      | .fetch, some j =>
          { m with request := none, state := .connecting, place := .joining j
                   tried := m.tried ++ [j] }
      | _, _ => m
  | .joined ok, m =>
      match m.place with
      | .joining _ => { m with state := if ok then .online else .offline, place := .refresh }
      | _ => m
  | .refresh hotspot connected, m =>
      if m.place = .refresh then
        { m with state := refreshed hotspot connected m.state, place := .poll }
      else m

/-- The thread waits for the radio. -/
def Manager.Joining (m : Manager) : Prop := ∃ j, m.place = .joining j

/-- What is known of the manager between two steps. -/
structure InOrder (m : Manager) : Prop where
  once : m.accepted = m.tried ++ m.request.toList
  busy : m.state = .connecting ↔ m.request.isSome ∨ m.Joining
  fetch : m.place = .fetch → m.request.isSome
  alone : m.Joining → m.request = none

theorem inOrder_init : InOrder {} where
  once := rfl
  busy := by simp [Manager.Joining]
  fetch := nofun
  alone := nofun

theorem refreshed_connecting (hotspot connected : Bool) (state : NetState) :
    refreshed hotspot connected state = .connecting ↔ state = .connecting := by
  unfold refreshed
  split_ifs <;> simp_all

theorem InOrder.move {m : Manager} (order : InOrder m) (here : m.place = .poll) {p : Place}
    (idle : ∀ j, p ≠ .joining j) (fetch : p = .fetch → m.request.isSome) :
    InOrder { m with place := p } := by
  refine ⟨order.once, ?_, fetch, fun ⟨j, joining⟩ => absurd joining (idle j)⟩
  have busy := order.busy
  simp only [Manager.Joining, here, reduceCtorEq, exists_false] at busy
  simpa [Manager.Joining, idle] using busy

theorem InOrder.happen {m : Manager} (order : InOrder m) (h : Happening) :
    InOrder (m.happen h) := by
  cases h with
  | connect j =>
      simp only [Manager.happen]
      split_ifs with accepts
      · simp only [Manager.accepts, Bool.and_eq_true, bne_iff_ne, ne_eq,
          Option.isNone_iff_eq_none] at accepts
        have idle : ¬m.Joining := fun joining => accepts.1 (order.busy.mpr (Or.inr joining))
        exact ⟨by simp [order.once, accepts.2], by simp, by simp, fun joining => absurd joining idle⟩
      · exact order
  | poll asks =>
      simp only [Manager.happen]
      split_ifs with here asked
      · exact order.move here nofun fun _ => asked
      · exact order.move here nofun nofun
      · exact order.move here nofun nofun
      · exact order
  | fetch =>
      simp only [Manager.happen]
      split
      · rename_i j here pending
        exact ⟨by simp [order.once, pending], by simp [Manager.Joining], nofun, fun _ => rfl⟩
      · exact order
  | joined ok =>
      simp only [Manager.happen]
      split
      · rename_i j here
        have none_ := order.alone ⟨j, here⟩
        refine ⟨order.once, ?_, nofun, nofun⟩
        cases ok <;> simp [Manager.Joining, none_]
      · exact order
  | refresh hotspot connected =>
      simp only [Manager.happen]
      split_ifs with here
      · refine ⟨order.once, ?_, nofun, nofun⟩
        rw [refreshed_connecting, order.busy]
        simp [Manager.Joining, here]
      · exact order

end PiFire.Net
