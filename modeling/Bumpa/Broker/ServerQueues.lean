import Bumpa.Broker.OwnChannel

/-! # The queues on the server

What the server keeps of the messages that the service handles: the copies in the consumed queues,
those that are out with a consumer, those in a retry queue and those that were dead-lettered. Every
message that the exchange puts into a queue has a number, its origin, which its copies inherit; the
service does not see it. What no queue is bound for is confirmed and dropped before it gets here.

The server does what it is told: a copy sent to a queue is put there, an ack drops the delivery that
it settles, a nack dead-letters it. An expired copy of a retry queue goes back to the queue that it
belongs to, with its headers and without its expiration. `history` records what became of a message.
-/
namespace Bumpa.Broker.Redelivery
open Bumpa.Transition
set_option autoImplicit false

variable {Payload : Type}

/-- `scheduled`: a copy arrives in the retry queue. `unscheduled`: sending it has thrown. -/
inductive Event (Payload : Type) where
  | delivered (retryCount : ℕ) (content : Content Payload)
  | succeeded
  | failed
  | scheduled (expiration : Option ℕ)
  | unscheduled
  | acked
  | deadLettered
  | returned
  deriving DecidableEq

structure Copy (Payload : Type) where
  origin : ℕ
  queue : String
  message : Message Payload
  deriving DecidableEq

structure Server (Payload : Type) where
  published : List (String × Message Payload)
  ready : List (Copy Payload)
  taken : List (ℕ × Delivery Payload)
  retry : List (Copy Payload)
  dead : List (Copy Payload)
  history : ℕ → List (Event Payload)

/-- One delivery has one number on one channel. -/
def sameDelivery (d d' : Delivery Payload) : Bool :=
  d.channel = d'.channel && d.deliveryTag = d'.deliveryTag

/-- Dead-lettered by the default exchange to the queue. -/
def expired (message : Message Payload) (queue : String) : Message Payload :=
  { message with
    routingKey := queue
    properties := { message.properties with expiration := none } }

namespace Server

def empty : Server Payload := ⟨[], [], [], [], [], fun _ => []⟩

def note (srv : Server Payload) (origin : ℕ) (event : Event Payload) : Server Payload :=
  { srv with history := Function.update srv.history origin (srv.history origin ++ [event]) }

def publish (srv : Server Payload) (queue : String) (message : Message Payload) :
    Server Payload :=
  { srv with
    published := srv.published ++ [(queue, message)]
    ready := srv.ready ++ [⟨srv.published.length, queue, message⟩] }

/-- The ready copy `i` goes out. -/
def take (srv : Server Payload) (i : ℕ) (origin : ℕ) (d : Delivery Payload) : Server Payload :=
  { srv.note origin (.delivered (readRetryCount d.message) d.message.content) with
    ready := srv.ready.eraseIdx i
    taken := srv.taken ++ [(origin, d)] }

def origin (srv : Server Payload) (d : Delivery Payload) : Option ℕ :=
  (srv.taken.find? fun x => sameDelivery x.2 d).map (·.1)

/-- Something happens in the service to a delivery that is out. -/
def observe (srv : Server Payload) (d : Delivery Payload) (event : Event Payload) :
    Server Payload :=
  match srv.origin d with
  | none => srv
  | some o => srv.note o event

/-- A copy of the delivered message is sent to `queue`. -/
def schedule (srv : Server Payload) (d : Delivery Payload) (queue : String)
    (message : Message Payload) : Server Payload :=
  match srv.origin d with
  | none => srv
  | some o =>
    { srv.note o (.scheduled message.properties.expiration) with
      retry := srv.retry ++ [⟨o, queue, message⟩] }

def settle (srv : Server Payload) (kind : SettlementKind) (d : Delivery Payload) :
    Server Payload :=
  match srv.origin d with
  | none => srv
  | some o =>
    let srv' := { srv with taken := srv.taken.filter fun x => !sameDelivery x.2 d }
    match kind with
    | .ack => srv'.note o .acked
    | .nack => { srv'.note o .deadLettered with dead := srv.dead ++ [⟨o, d.queue, d.message⟩] }

/-- The copy `i` of a retry queue expires. -/
def expire (srv : Server Payload) (i : ℕ) (queue : String) (copy : Copy Payload) :
    Server Payload :=
  { srv.note copy.origin .returned with
    retry := srv.retry.eraseIdx i
    ready := srv.ready ++ [⟨copy.origin, queue, expired copy.message queue⟩] }

/-- What the service has sent since `s` about the delivery `d` arrives. -/
def receive (srv : Server Payload) (d : Delivery Payload) (s s' : State Payload) :
    Server Payload :=
  let copies := s'.retries.drop s.retries.length
  let settlements := s'.settlements.drop s.settlements.length
  let srv' := copies.foldl (fun srv copy => srv.schedule d copy.1 copy.2) srv
  settlements.foldl (fun srv x => x.settled.foldl (fun srv d' => srv.settle x.kind d') srv) srv'

end Server

/-! ## The system -/

structure System (Payload : Type) where
  service : State Payload
  server : Server Payload

/-- `unschedulable`: the handler of execution `e` rejects and `sendToQueue` throws. `service`: all
that the service does and is told but deliveries, which are of copies in the queues here. -/
inductive SystemLabel (Payload : Type) where
  | publish (queue : String) (message : Message Payload)
  | deliver (channel consumer i : ℕ)
  | expire (i : ℕ) (queue : String)
  | unschedulable (e : ℕ)
  | service (l : Label Payload)

def consumes (s : State Payload) (c consumer : ℕ) (queue : String) : Bool :=
  match (s.channels c).consumers[consumer]? with
  | some (some queue') => queue' = queue
  | _ => false

/-- The handler of a delivery has settled. -/
def Outcome.event : Outcome → Event Payload
  | .ok => .succeeded
  | .fails => .failed

def serviceStep (sys : System Payload) (l : Label Payload) : Option (System Payload) :=
  match l with
  | .deliver _ _ _ => none
  | .run e o =>
    (step sys.service l).map fun s' =>
      match sys.service.threads e with
      | .handle d => ⟨s', (sys.server.observe d (Outcome.event o)).receive d sys.service s'⟩
      | _ => ⟨s', sys.server⟩
  | l => (step sys.service l).map fun s' => ⟨s', sys.server⟩

def systemStep (sys : System Payload) : SystemLabel Payload → Option (System Payload)
  | .publish queue message =>
    if message.properties.headers.lookup retryCountHeader = none then
      some { sys with server := sys.server.publish queue message }
    else none
  | .deliver c consumer i =>
    match sys.server.ready[i]? with
    | none => none
    | some copy =>
      if consumes sys.service c consumer copy.queue then
        (step sys.service (.deliver c consumer copy.message)).map fun s' =>
          let d := ⟨c, (sys.service.channels c).delivered + 1, consumer, copy.queue, copy.message⟩
          ⟨s', (sys.server.take i copy.origin d).receive d sys.service s'⟩
      else none
  | .expire i queue =>
    match sys.server.retry[i]? with
    | none => none
    | some copy =>
      if copy.queue = queue ++ ".retry" then
        some { sys with server := sys.server.expire i queue copy }
      else none
  | .unschedulable e =>
    match sys.service.threads e with
    | .handle d =>
      if readRetryCount d.message < maxRetryAttempts then
        let s' := (sys.service.setThread e .done).safeNack d
        let srv := (sys.server.observe d .failed).observe d .unscheduled
        some ⟨s', srv.receive d sys.service s'⟩
      else none
    | _ => none
  | .service l => serviceStep sys l

abbrev Runs (tr : List (Move (System Payload) (SystemLabel Payload))) (sys : System Payload) :
    Prop :=
  Run systemStep ⟨initial, Server.empty⟩ tr sys

end Bumpa.Broker.Redelivery
