import Bumpa.Broker.ServerQueues

/-! # The replicas of a service on one server

The processes of a service have a `BrokerService` each and share the queues. A process that has
crashed is gone for good, and the one that is started instead has another number. A step of a
process is a step of the system it forms with the server (`Fleet.system`); what it does not see of
the server is which deliveries are out with the others.

The server takes back what was not settled on a channel that is lost: these copies are ready again.
-/
namespace Bumpa.Broker.Redelivery
open Bumpa.Transition
set_option autoImplicit false

variable {Payload : Type}

/-- The copy as it was delivered. -/
def requeued (x : ℕ × Delivery Payload) : Copy Payload := ⟨x.1, x.2.queue, x.2.message⟩

/-- The deliveries that are out on channels that are closed are ready again. -/
def Server.requeue (srv : Server Payload) (s : State Payload) : Server Payload :=
  { srv with
    ready := srv.ready ++
      (srv.taken.filter fun x => !(s.channels x.2.channel).isOpen).map requeued
    taken := srv.taken.filter fun x => (s.channels x.2.channel).isOpen }

structure Fleet (Payload : Type) where
  services : ℕ → State Payload
  crashed : ℕ → Bool
  taken : ℕ → List (ℕ × Delivery Payload)
  published : List (String × Message Payload)
  ready : List (Copy Payload)
  retry : List (Copy Payload)
  dead : List (Copy Payload)
  history : ℕ → List (Event Payload)

namespace Fleet

/-- Process `p` and the server. -/
def system (f : Fleet Payload) (p : ℕ) : System Payload where
  service := f.services p
  server := ⟨f.published, f.ready, f.taken p, f.retry, f.dead, f.history⟩

def put (f : Fleet Payload) (p : ℕ) (sys : System Payload) : Fleet Payload where
  services := Function.update f.services p sys.service
  crashed := f.crashed
  taken := Function.update f.taken p sys.server.taken
  published := sys.server.published
  ready := sys.server.ready
  retry := sys.server.retry
  dead := sys.server.dead
  history := sys.server.history

/-- The exchange puts a message into a queue that is bound for it. A message that no queue is bound
for does not come this far. -/
def publish (f : Fleet Payload) (queue : String) (message : Message Payload) : Fleet Payload :=
  { f with
    published := f.published ++ [(queue, message)]
    ready := f.ready ++ [⟨f.published.length, queue, message⟩] }

def expire (f : Fleet Payload) (i : ℕ) (queue : String) (copy : Copy Payload) : Fleet Payload :=
  { f with
    retry := f.retry.eraseIdx i
    ready := f.ready ++ [⟨copy.origin, queue, expired copy.message queue⟩]
    history := Function.update f.history copy.origin (f.history copy.origin ++ [.returned]) }

def crash (f : Fleet Payload) (p : ℕ) : Fleet Payload :=
  { f with
    crashed := Function.update f.crashed p true
    taken := Function.update f.taken p []
    ready := f.ready ++ (f.taken p).map requeued }

end Fleet

/-- `run`: a delivery to process `p`, a handler of it whose retry cannot be scheduled, or anything
that its service does. -/
inductive FleetLabel (Payload : Type) where
  | publish (queue : String) (message : Message Payload)
  | expire (i : ℕ) (queue : String)
  | run (p : ℕ) (l : SystemLabel Payload)
  | crash (p : ℕ)

def SystemLabel.ofService : SystemLabel Payload → Bool
  | .publish _ _ | .expire _ _ => false
  | _ => true

def fleetStep (f : Fleet Payload) : FleetLabel Payload → Option (Fleet Payload)
  | .publish queue message =>
    if message.properties.headers.lookup retryCountHeader = none then
      some (f.publish queue message)
    else none
  | .expire i queue =>
    match f.retry[i]? with
    | none => none
    | some copy => if copy.queue = queue ++ ".retry" then some (f.expire i queue copy) else none
  | .run p l =>
    if f.crashed p = false ∧ l.ofService then
      (systemStep (f.system p) l).map fun sys =>
        f.put p ⟨sys.service, sys.server.requeue sys.service⟩
    else none
  | .crash p => if f.crashed p then none else some (f.crash p)

/-- No process has connected yet. -/
def Fleet.initial : Fleet Payload where
  services := fun _ => Broker.initial
  crashed := fun _ => false
  taken := fun _ => []
  published := []
  ready := []
  retry := []
  dead := []
  history := fun _ => []

abbrev FleetRuns (tr : List (Move (Fleet Payload) (FleetLabel Payload))) (f : Fleet Payload) :
    Prop :=
  Run fleetStep Fleet.initial tr f

end Bumpa.Broker.Redelivery
