import Bumpa.Broker.Provenance
import Bumpa.Broker.Topology
import Bumpa.Outbox.PublishedRows

/-! # From an outbox to the handler of a queue

A service commits events to its outbox and publishes them; the server puts them into the queue of
another service if that is bound by then, and drops them if it is not. There, each delivery calls the
service's operation (`Handler`), and `handleMessage` goes on when that has resolved or rejected.

The operation is a system of its own with executions of its own; `calls` says which of them belongs
to which execution of a process, and `results` how they have ended. An execution whose process has
crashed may still go on for a while, as a COMMIT that is on its way does, but nobody waits for it.
-/
namespace Bumpa.Delivery
open Bumpa.Events Bumpa.Transition
open Broker.Redelivery (Fleet FleetLabel fleetStep)
open Amqp (topicMatches)
open Broker (Content Message)
set_option autoImplicit false

/-- The operation that a subscription calls: `start` is the label of a call, `next` the number of the
execution that a call gets, `settles` which execution ends in a step and how. -/
structure Handler (Payload σ ℓ : Type) where
  step : σ → ℓ → Option σ
  initial : σ
  start : Payload → Option ℓ
  starts : ℓ → Bool
  next : σ → ℕ
  settles : σ → ℓ → Option (ℕ × Broker.Outcome)

/-- `event`: what an id is committed with. `type`: the routing key of an event. -/
structure RelayConfig (Payload : Type) where
  options : Outbox.OutboxModuleOptions
  subscription : Broker.BrokerSubscription
  event : ReadableId → Payload
  type : Payload → String

/-- `calls`: the execution of the operation that an execution of a process waits for. -/
structure Relay (Payload σ : Type) where
  outbox : Outbox.State Payload
  fleet : Fleet Payload
  bound : Bool
  handler : σ
  calls : ℕ → ℕ → Option ℕ
  results : ℕ → Option Broker.Outcome

/-- `commit`: the transaction that the event is part of. -/
inductive RelayLabel (Payload ℓ : Type) where
  | commit (id : ReadableId)
  | outbox (l : Outbox.Label Payload)
  | fleet (l : FleetLabel Payload)
  | handler (l : ℓ)

variable {Payload σ ℓ : Type}

def RelayConfig.message (cfg : RelayConfig Payload) (payload : Payload) : Message Payload :=
  ⟨.json payload, cfg.type payload, ⟨none, []⟩⟩

/-- The event goes to the subscription's queue. -/
def RelayConfig.routes (cfg : RelayConfig Payload) (payload : Payload) : Bool :=
  topicMatches cfg.subscription.routingKey (cfg.type payload)

/-- The call that an execution is in. -/
def bindingCall : Broker.Thread Payload → Option Broker.ChannelCall
  | .setup _ (.bind _ call _ _) | .subscribe _ call _ => some call
  | _ => none

namespace Relay

/-- An event that no queue is bound for is dropped. -/
def publish (cfg : RelayConfig Payload) (r : Relay Payload σ) (payload : Payload) :
    Relay Payload σ :=
  if r.bound && cfg.routes payload then
    { r with fleet := r.fleet.publish cfg.subscription.queue (cfg.message payload) }
  else r

/-- The server takes in what the outbox hands over, if it does. -/
def receive (cfg : RelayConfig Payload) (r : Relay Payload σ) :
    Option (Outbox.OutboxRecord Payload) → Relay Payload σ
  | none => r
  | some copy => r.publish cfg copy.payload

/-- The binding of the queue is declared when `bindQueue` goes through. -/
def binds (cfg : RelayConfig Payload) (r : Relay Payload σ) (p e : ℕ) (o : Broker.Outcome) : Bool :=
  o = .ok && bindingCall ((r.fleet.services p).threads e) =
    some (.bindQueue cfg.subscription.queue .events cfg.subscription.routingKey)

/-- The handler that the execution waits for has ended so. -/
def ended (r : Relay Payload σ) (p e : ℕ) (o : Broker.Outcome) : Bool :=
  match (r.fleet.services p).threads e with
  | .handle _ => (r.calls p e).any fun n => r.results n = some o
  | _ => true

/-- The delivered message calls the operation, unless it does not parse. -/
def deliver (H : Handler Payload σ ℓ) (r : Relay Payload σ) (p c consumer i : ℕ) :
    Option (Relay Payload σ) :=
  match r.fleet.ready[i]?, fleetStep r.fleet (.run p (.deliver c consumer i)) with
  | some copy, some fleet =>
    match copy.message.content with
    | .malformed _ => some { r with fleet := fleet }
    | .json payload =>
      ((H.start payload).bind (H.step r.handler)).map fun handler =>
        { r with
          fleet := fleet
          handler := handler
          calls := Function.update r.calls p (Function.update (r.calls p)
            (r.fleet.services p).nextThread (some (H.next r.handler))) }
  | _, _ => none

/-- What the processes and the server do. -/
def serve (cfg : RelayConfig Payload) (H : Handler Payload σ ℓ) (r : Relay Payload σ) :
    FleetLabel Payload → Option (Relay Payload σ)
  | .publish _ _ => none
  | .run p (.deliver c consumer i) => r.deliver H p c consumer i
  | .run p (.service (.run e o)) =>
    if r.ended p e o then
      (fleetStep r.fleet (.run p (.service (.run e o)))).map fun fleet =>
        { r with fleet := fleet, bound := r.bound || r.binds cfg p e o }
    else none
  | .run p (.unschedulable e) =>
    if r.ended p e .fails then
      (fleetStep r.fleet (.run p (.unschedulable e))).map fun fleet => { r with fleet := fleet }
    else none
  | .run p (.service (.subscribe subscription)) =>
    if subscription = cfg.subscription then
      (fleetStep r.fleet (.run p (.service (.subscribe subscription)))).map fun fleet =>
        { r with fleet := fleet }
    else none
  | l => (fleetStep r.fleet l).map fun fleet => { r with fleet := fleet }

/-- What the outbox does, and what of it the server takes in. -/
def hand (cfg : RelayConfig Payload) (r : Relay Payload σ) (l : Outbox.Label Payload) :
    Option (Relay Payload σ) :=
  (Outbox.step cfg.options r.outbox l).map fun outbox =>
    { r with outbox := outbox }.receive cfg (l.accepted r.outbox)

end Relay

def relayStep (cfg : RelayConfig Payload) (H : Handler Payload σ ℓ) (r : Relay Payload σ) :
    RelayLabel Payload ℓ → Option (Relay Payload σ)
  | .commit id => r.hand cfg (.commit id (cfg.event id))
  | .outbox (.commit _ _) => none
  | .outbox l => r.hand cfg l
  | .fleet l => r.serve cfg H l
  | .handler l =>
    if H.starts l then none
    else
      (H.step r.handler l).map fun handler =>
        { r with
          handler := handler
          results := (H.settles r.handler l).elim r.results fun x =>
            Function.update r.results x.1 (some x.2) }

def Relay.initial (H : Handler Payload σ ℓ) : Relay Payload σ :=
  ⟨Outbox.initial, Fleet.initial, false, H.initial, fun _ _ => none, fun _ => none⟩

abbrev RelayRuns (cfg : RelayConfig Payload) (H : Handler Payload σ ℓ)
    (tr : List (Move (Relay Payload σ) (RelayLabel Payload ℓ))) (r : Relay Payload σ) : Prop :=
  Run (relayStep cfg H) (Relay.initial H) tr r

end Bumpa.Delivery
