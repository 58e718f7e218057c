import Bumpa.Transition.Run
import Mathlib.Algebra.Group.Nat.Defs
import Mathlib.Logic.Function.Basic

/-! # `BrokerService` (`packages/broker-sdk`)

The service keeps one current connection and channel, and a list of subscriptions that every setup
binds again. A setup, a `subscribe` and a message handler are executions that stop at every awaited
call; in between, objects are lost, their events arrive, messages are delivered and the reconnect
timer fires, in any order.

Connections and channels are amqplib's objects together with the server's side of them. A channel
numbers its deliveries from 1 and remembers the unsettled ones; an ack or nack names a delivery by
its number on the channel it is sent on. Its loss closes it and forgets both. Event listeners stay
attached to the objects they were put on. A message's bytes stand for what `JSON.parse` makes of
them.
-/
namespace Bumpa.Broker
open Bumpa.Transition
set_option autoImplicit false

def initialReconnectDelayMs : ℕ := 1000
def maxReconnectDelayMs : ℕ := 30000
def maxRetryAttempts : ℕ := 5
def retryBaseDelayMs : ℕ := 1000
def maxRetryDelayMs : ℕ := 30000
def retryCountHeader : String := "x-bumpa-retry-count"

inductive BrokerExchange where
  | events
  | deadLetter
  deriving DecidableEq, Repr

structure BrokerSubscription where
  queue : String
  routingKey : String
  deriving DecidableEq, Repr

/-! ## Messages -/

inductive Content (Payload : Type) where
  | json (event : Payload)
  | malformed (raw : String)
  deriving DecidableEq

inductive HeaderValue where
  | number (n : ℕ)
  | other (raw : String)
  deriving DecidableEq

structure Properties where
  expiration : Option ℕ
  headers : List (String × HeaderValue)
  deriving DecidableEq

structure Message (Payload : Type) where
  content : Content Payload
  routingKey : String
  properties : Properties
  deriving DecidableEq

variable {Payload : Type}

def readRetryCount (message : Message Payload) : ℕ :=
  match message.properties.headers.lookup retryCountHeader with
  | some (.number n) => n
  | _ => 0

/-- The copy for the retry queue: the spread properties, then the two that are set. -/
def retryMessage (message : Message Payload) (nextRetryCount delayMs : ℕ) : Message Payload :=
  { message with
    properties :=
      { expiration := some delayMs
        headers := (retryCountHeader, .number nextRetryCount) ::
          message.properties.headers.filter (·.1 ≠ retryCountHeader) } }

def retryDelayMs (retryCount : ℕ) : ℕ := min (retryBaseDelayMs * 2 ^ retryCount) maxRetryDelayMs

/-! ## Connections and channels -/

/-- A message as a consumer gets it. `channel` is where it was delivered, which the service does
not look at. -/
structure Delivery (Payload : Type) where
  channel : ℕ
  deliveryTag : ℕ
  consumer : ℕ
  queue : String
  message : Message Payload
  deriving DecidableEq

structure Connection where
  isOpen : Bool
  listening : Bool

/-- `consumers` are the queues consumed, `none` once cancelled. -/
structure Channel (Payload : Type) where
  connection : ℕ
  isOpen : Bool
  listening : Bool
  delivered : ℕ
  unsettled : List (Delivery Payload)
  prefetch : ℕ
  consumers : List (Option String)

def Channel.created (connection : ℕ) : Channel Payload := ⟨connection, true, false, 0, [], 0, []⟩

def Channel.lost (channel : Channel Payload) : Channel Payload :=
  { channel with isOpen := false, unsettled := [], consumers := [] }

/-- The calls `bindAndConsume` awaits, in their order. -/
inductive ChannelCall where
  | assertQueue (queue : String) (deadLetter : Option (Option BrokerExchange × String))
  | bindQueue (queue : String) (exchange : BrokerExchange) (routingKey : String)
  | prefetch (count : ℕ)
  | consume (queue : String)
  deriving DecidableEq, Repr

/-- The dead-letter exchange `''` is the default one, written `none`. -/
def bindAndConsume (options : BrokerSubscription) : List ChannelCall :=
  [.assertQueue (options.queue ++ ".dlq") none,
    .bindQueue (options.queue ++ ".dlq") .deadLetter options.routingKey,
    .assertQueue (options.queue ++ ".retry") (some (none, options.queue)),
    .assertQueue options.queue (some (some .deadLetter, options.routingKey)),
    .bindQueue options.queue .events options.routingKey,
    .prefetch 10,
    .consume options.queue]

def ChannelCall.apply (channel : Channel Payload) : ChannelCall → Channel Payload
  | .prefetch count => { channel with prefetch := count }
  | .consume queue => { channel with consumers := channel.consumers ++ [some queue] }
  | _ => channel

/-! ## Executions -/

inductive SetupOrigin where
  | moduleInit
  | reconnectTimer
  deriving DecidableEq, Repr

/-- Where `connectAndSetup` awaits. `bind`: the calls left for the subscription before `next`. -/
inductive SetupPc where
  | connect
  | createConfirmChannel (connection : ℕ)
  | assertEvents (connection channel : ℕ)
  | assertDeadLetter (connection channel : ℕ)
  | bind (channel : ℕ) (call : ChannelCall) (calls : List ChannelCall) (next : ℕ)

inductive Thread (Payload : Type) where
  | done
  | setup (origin : SetupOrigin) (pc : SetupPc)
  | subscribe (channel : ℕ) (call : ChannelCall) (calls : List ChannelCall)
  | handle (delivery : Delivery Payload)
  | destroy

/-- The awaited call resolves or rejects. -/
inductive Outcome where
  | ok
  | fails
  deriving DecidableEq, Repr

inductive SettlementKind where
  | ack
  | nack
  deriving DecidableEq, Repr

/-- An ack or nack that went out: for which delivery, on which channel, and the deliveries that its
number settled there. -/
structure Settlement (Payload : Type) where
  kind : SettlementKind
  handled : Delivery Payload
  channel : ℕ
  settled : List (Delivery Payload)
  deriving DecidableEq

structure State (Payload : Type) where
  connection : Option ℕ
  channel : Option ℕ
  subscriptions : List BrokerSubscription
  shuttingDown : Bool
  reconnecting : Bool
  reconnectAttempt : ℕ
  reconnectTimer : Option ℕ
  connections : ℕ → Connection
  nextConnection : ℕ
  channels : ℕ → Channel Payload
  nextChannel : ℕ
  threads : ℕ → Thread Payload
  nextThread : ℕ
  settlements : List (Settlement Payload)
  retries : List (String × Message Payload)

namespace State

def setChannel (s : State Payload) (c : ℕ) (channel : Channel Payload) : State Payload :=
  { s with channels := Function.update s.channels c channel }

def setThread (s : State Payload) (e : ℕ) (th : Thread Payload) : State Payload :=
  { s with threads := Function.update s.threads e th }

def spawn (s : State Payload) (th : Thread Payload) : State Payload :=
  { s.setThread s.nextThread th with nextThread := s.nextThread + 1 }

/-! ## Losing and regaining the connection -/

def scheduleReconnect (s : State Payload) : State Payload :=
  if s.reconnecting || s.shuttingDown then s
  else
    { s with
      reconnecting := true
      reconnectTimer := some
        (min (initialReconnectDelayMs * 2 ^ s.reconnectAttempt) maxReconnectDelayMs)
      reconnectAttempt := s.reconnectAttempt + 1 }

def handleConnectionIssue (s : State Payload) : State Payload :=
  if s.shuttingDown then s
  else { s with channel := none, connection := none }.scheduleReconnect

/-- A channel is lost; its listeners, if any, hear of it. -/
def channelLost (s : State Payload) (c : ℕ) : State Payload :=
  let s' := s.setChannel c (s.channels c).lost
  if (s.channels c).listening then s'.handleConnectionIssue else s'

/-- A connection is lost, and all its channels with it. -/
def connectionLost (s : State Payload) (n : ℕ) : State Payload :=
  let s' :=
    { s with
      connections := Function.update s.connections n { s.connections n with isOpen := false }
      channels := fun c =>
        if (s.channels c).connection = n then (s.channels c).lost else s.channels c }
  if (s.connections n).listening then s'.handleConnectionIssue else s'

/-- `connectAndSetup` has ended; after a reconnect `.finally` looks whether there is a channel. -/
def setupEnded (s : State Payload) (e : ℕ) (origin : SetupOrigin) : State Payload :=
  let s' := s.setThread e .done
  match origin with
  | .moduleInit => s'
  | .reconnectTimer =>
    let s'' := { s' with reconnecting := false }
    if s''.channel.isNone && !s''.shuttingDown then s''.scheduleReconnect else s''

/-- The loop over `this.subscriptions` from index `next` on; `getChannel` may throw. -/
def bindNext (s : State Payload) (e : ℕ) (origin : SetupOrigin) (next : ℕ) : State Payload :=
  match s.subscriptions[next]? with
  | none => { s with reconnectAttempt := 0 }.setupEnded e origin
  | some subscription =>
    match s.channel, bindAndConsume subscription with
    | some c, call :: calls => s.setThread e (.setup origin (.bind c call calls (next + 1)))
    | _, _ => s.setupEnded e origin

/-- After the last `assertExchange`: listeners, then the new references, then the subscriptions. -/
def setupConnected (s : State Payload) (e : ℕ) (origin : SetupOrigin) (n c : ℕ) : State Payload :=
  { s with
    connections := Function.update s.connections n { s.connections n with listening := true }
    channels := Function.update s.channels c { s.channels c with listening := true }
    connection := some n
    channel := some c }.bindNext e origin 0

def advanceSetup (s : State Payload) (e : ℕ) (origin : SetupOrigin) :
    SetupPc → Outcome → Option (State Payload)
  | _, .fails => some (s.setupEnded e origin)
  | .connect, .ok =>
    some ({ s with
      connections := Function.update s.connections s.nextConnection ⟨true, false⟩
      nextConnection := s.nextConnection + 1 }.setThread e
        (.setup origin (.createConfirmChannel s.nextConnection)))
  | .createConfirmChannel n, .ok =>
    if (s.connections n).isOpen then
      some ({ s.setChannel s.nextChannel (Channel.created n) with
        nextChannel := s.nextChannel + 1 }.setThread e
          (.setup origin (.assertEvents n s.nextChannel)))
    else none
  | .assertEvents n c, .ok =>
    if (s.channels c).isOpen then some (s.setThread e (.setup origin (.assertDeadLetter n c)))
    else none
  | .assertDeadLetter n c, .ok =>
    if (s.channels c).isOpen then some (s.setupConnected e origin n c) else none
  | .bind c call calls next, .ok =>
    if (s.channels c).isOpen then
      let s' := s.setChannel c (call.apply (s.channels c))
      match calls with
      | [] => some (s'.bindNext e origin next)
      | call' :: calls' => some (s'.setThread e (.setup origin (.bind c call' calls' next)))
    else none

/-! ## Handling messages -/

/-- The channel `getChannel` returns, if calls on it do not throw. -/
def liveChannel (s : State Payload) : Option ℕ := s.channel.filter fun c => (s.channels c).isOpen

/-- `safeAck` and `safeNack`: what is thrown is only logged. -/
def settle (s : State Payload) (kind : SettlementKind) (delivery : Delivery Payload) :
    State Payload :=
  match s.liveChannel with
  | none => s
  | some c =>
    let settled := (s.channels c).unsettled.filter (·.deliveryTag = delivery.deliveryTag)
    let unsettled := (s.channels c).unsettled.filter (·.deliveryTag ≠ delivery.deliveryTag)
    { s.setChannel c { s.channels c with unsettled := unsettled } with
      settlements := s.settlements ++ [⟨kind, delivery, c, settled⟩] }

def safeAck (s : State Payload) (delivery : Delivery Payload) : State Payload :=
  s.settle .ack delivery

def safeNack (s : State Payload) (delivery : Delivery Payload) : State Payload :=
  s.settle .nack delivery

/-- The state with the copy sent, or `none` where the call throws and `false` is returned. -/
def scheduleRedelivery (s : State Payload) (delivery : Delivery Payload)
    (nextRetryCount delayMs : ℕ) : Option (State Payload) :=
  s.liveChannel.map fun _ =>
    { s with retries := s.retries ++
      [(delivery.queue ++ ".retry", retryMessage delivery.message nextRetryCount delayMs)] }

/-- `handleMessage` once the handler has resolved or rejected. -/
def handlerSettled (s : State Payload) (delivery : Delivery Payload) : Outcome → State Payload
  | .ok => s.safeAck delivery
  | .fails =>
    let retryCount := readRetryCount delivery.message
    if maxRetryAttempts ≤ retryCount then s.safeNack delivery
    else
      match s.scheduleRedelivery delivery (retryCount + 1) (retryDelayMs retryCount) with
      | some s' => s'.safeAck delivery
      | none => s.safeNack delivery

/-- `handleMessage` up to the call of the handler. -/
def handleMessage (s : State Payload) (delivery : Delivery Payload) : State Payload :=
  match delivery.message.content with
  | .malformed _ => s.safeNack delivery
  | .json _ => s.spawn (.handle delivery)

/-- The server hands a message to a consumer that has fewer than `prefetch` unsettled ones. -/
def deliver (s : State Payload) (c consumer : ℕ) (message : Message Payload) :
    Option (State Payload) :=
  let channel := s.channels c
  match channel.consumers[consumer]? with
  | some (some queue) =>
    if channel.isOpen ∧
        (channel.prefetch = 0 ∨
          channel.unsettled.countP (·.consumer = consumer) < channel.prefetch) then
      let delivery := ⟨c, channel.delivered + 1, consumer, queue, message⟩
      some ((s.setChannel c { channel with
        delivered := channel.delivered + 1
        unsettled := channel.unsettled ++ [delivery] }).handleMessage delivery)
    else none
  | _ => none

end State

/-! ## The system -/

/-- `channelEvent`, `connectionEvent`: an `error` or `close` event of an object, whatever its state.
`cancelled`: the server ends a consumer, which gets a `null` message. -/
inductive Label (Payload : Type) where
  | subscribe (subscription : BrokerSubscription)
  | timer
  | onModuleDestroy
  | deliver (channel consumer : ℕ) (message : Message Payload)
  | cancelled (channel consumer : ℕ)
  | channelLost (channel : ℕ)
  | connectionLost (connection : ℕ)
  | channelEvent (channel : ℕ)
  | connectionEvent (connection : ℕ)
  | run (e : ℕ) (outcome : Outcome)

def advance (s : State Payload) (e : ℕ) (o : Outcome) : Option (State Payload) :=
  match s.threads e with
  | .done => none
  | .setup origin pc => s.advanceSetup e origin pc o
  | .subscribe c call calls =>
    match o, calls with
    | .fails, _ => some (s.setThread e .done)
    | .ok, calls =>
      if (s.channels c).isOpen then
        some ((s.setChannel c (call.apply (s.channels c))).setThread e
          (match calls with
          | [] => .done
          | call' :: calls' => .subscribe c call' calls'))
      else none
  | .handle delivery => some ((s.setThread e .done).handlerSettled delivery o)
  | .destroy =>
    let s' := s.setThread e .done
    match s.connection with
    | none => some s'
    | some n => some (s'.connectionLost n)

def step (s : State Payload) : Label Payload → Option (State Payload)
  | .subscribe subscription =>
    let s' := { s with subscriptions := s.subscriptions ++ [subscription] }
    match s.channel, bindAndConsume subscription with
    | some c, call :: calls => some (s'.spawn (.subscribe c call calls))
    | _, _ => some s'
  | .timer =>
    if s.reconnectTimer.isSome then
      let s' := { s with reconnectTimer := none }
      if s.shuttingDown then some { s' with reconnecting := false }
      else some (s'.spawn (.setup .reconnectTimer .connect))
    else none
  | .onModuleDestroy =>
    let s' := { s with shuttingDown := true, reconnectTimer := none }
    match s.channel with
    | none => some (s'.spawn .destroy)
    | some c => some ((s'.channelLost c).spawn .destroy)
  | .deliver c consumer message => s.deliver c consumer message
  | .cancelled c consumer =>
    some (s.setChannel c
      { s.channels c with consumers := (s.channels c).consumers.set consumer none })
  | .channelLost c => some (s.channelLost c)
  | .connectionLost n => some (s.connectionLost n)
  | .channelEvent c => some (if (s.channels c).listening then s.handleConnectionIssue else s)
  | .connectionEvent n =>
    some (if (s.connections n).listening then s.handleConnectionIssue else s)
  | .run e o => advance s e o

/-- `onModuleInit` has just been called. -/
def initial : State Payload where
  connection := none
  channel := none
  subscriptions := []
  shuttingDown := false
  reconnecting := false
  reconnectAttempt := 0
  reconnectTimer := none
  connections := fun _ => ⟨false, false⟩
  nextConnection := 0
  channels := fun _ => (Channel.created 0).lost
  nextChannel := 0
  threads := Function.update (fun _ => .done) 0 (.setup .moduleInit .connect)
  nextThread := 1
  settlements := []
  retries := []

abbrev Reaches (tr : List (Move (State Payload) (Label Payload))) (s : State Payload) : Prop :=
  Run step initial tr s

end Bumpa.Broker
