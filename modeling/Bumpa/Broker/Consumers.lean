import Bumpa.Broker.Executions
import Mathlib.Algebra.BigOperators.Group.Finset.Piecewise
import Mathlib.Algebra.Order.Group.Multiset
import Mathlib.Data.List.ReduceOption
import Mathlib.Tactic.Abel

/-! # The consumers that the subscriptions should have

While the service neither starts nor reconnects, every registered subscription should have one
consumer on the current channel, or a `subscribe` about to start it, and no other open channel any
consumer (`OneConsumerEach`).

`keepsOneConsumer` is the condition on a step. It fails where an object's event drops a current
channel that goes on consuming, where the server cancels a consumer or a call fails on a channel
that stays open, where the setup of `onModuleInit` fails, and where a `subscribe` comes while a
setup binds the subscriptions, which then binds the new one as well.
-/
namespace Bumpa.Broker
set_option autoImplicit false

variable {Payload : Type}

/-! ## Consumers, there or on their way -/

/-- The queues whose consumers have not been cancelled. -/
def Channel.consumed (channel : Channel Payload) : Multiset String := channel.consumers.reduceOption

def ChannelCall.consumes : ChannelCall → Multiset String
  | .consume queue => {queue}
  | _ => 0

/-- The queues that a `bindAndConsume` on channel `c` has yet to consume. -/
def Thread.awaits (c : ℕ) : Thread Payload → Multiset String
  | .setup _ (.bind c' call calls _) | .subscribe c' call calls =>
    if c' = c then call.consumes + (calls.map ChannelCall.consumes).sum else 0
  | _ => 0

def State.awaited (s : State Payload) (c : ℕ) : Multiset String :=
  ∑ e ∈ Finset.range s.nextThread, (s.threads e).awaits c

/-! ## The property -/

def Thread.isSetup (origin : SetupOrigin) : Thread Payload → Bool
  | .setup origin' _ => origin' = origin
  | _ => false

/-- A setup that binds the subscriptions on this channel. -/
def Thread.bindsOn (c : Option ℕ) : Thread Payload → Bool
  | .setup _ (.bind c' _ _ _) => c = some c'
  | _ => false

def State.runs (s : State Payload) (p : Thread Payload → Bool) : Bool :=
  (List.range s.nextThread).any fun e => p (s.threads e)

/-- `onModuleInit` has not returned. -/
def State.initialising (s : State Payload) : Bool := s.runs (·.isSetup .moduleInit)

/-- A reconnect is pending or in progress. -/
def State.recovering (s : State Payload) : Bool :=
  s.reconnectTimer.isSome || s.runs (·.isSetup .reconnectTimer)

/-- The subscriptions are consumed on `c`, each once, and nothing is on another open channel. -/
structure State.ServesFrom (s : State Payload) (c : ℕ) : Prop where
  channel : s.channel = some c
  isOpen : (s.channels c).isOpen = true
  consumers : (s.channels c).consumed + s.awaited c =
    Multiset.ofList (s.subscriptions.map (·.queue))
  others : ∀ d, d ≠ c → (s.channels d).isOpen = true → (s.channels d).consumed = 0

def OneConsumerEach (s : State Payload) : Prop :=
  s.shuttingDown = true ∨ s.initialising = true ∨ s.recovering = true ∨ ∃ c, s.ServesFrom c

/-- There is no current channel that some subscription is bound on, or `p` holds of it. -/
def State.drops (s : State Payload) (p : ℕ → Bool) : Bool :=
  s.subscriptions.isEmpty || s.channel.all p

/-- The condition while the service is up. -/
def keepsUp (s : State Payload) : Label Payload → Bool
  | .subscribe _ => !s.runs (·.bindsOn s.channel)
  | .cancelled c consumer => (s.channels c).consumers[consumer]?.join.isNone
  | .channelLost c => !(s.channels c).listening || s.drops (· = c)
  | .connectionLost n =>
    !(s.connections n).listening || s.drops fun c => (s.channels c).connection = n
  | .channelEvent c => !(s.channels c).listening || s.drops fun _ => false
  | .connectionEvent n => !(s.connections n).listening || s.drops fun _ => false
  | .run e .fails =>
    match s.threads e with
    | .setup _ (.bind c _ _ _) | .subscribe c _ _ => !(s.channels c).isOpen
    | .setup origin _ => origin ≠ .moduleInit
    | _ => true
  | _ => true

def keepsOneConsumer (s : State Payload) (l : Label Payload) : Bool :=
  s.shuttingDown || keepsUp s l

/-! ## Accounting for calls on their way -/

theorem consumed_apply (channel : Channel Payload) (call : ChannelCall) :
    (call.apply channel).consumed = channel.consumed + call.consumes := by
  cases call with
  | consume queue =>
    simp only [ChannelCall.apply, Channel.consumed, ChannelCall.consumes,
      List.reduceOption_append, List.reduceOption_singleton, Option.toList_some,
      ← Multiset.coe_add, Multiset.coe_singleton]
  | _ => exact (add_zero _).symm

theorem awaits_done (c : ℕ) : (Thread.done : Thread Payload).awaits c = 0 := rfl

theorem awaits_bindAndConsume {subscription : BrokerSubscription} {call : ChannelCall}
    {calls : List ChannelCall} (h : bindAndConsume subscription = call :: calls) :
    call.consumes + (calls.map ChannelCall.consumes).sum = {subscription.queue} := by
  cases h
  rfl

theorem queues_append (l : List BrokerSubscription) (subscription : BrokerSubscription) :
    Multiset.ofList ((l ++ [subscription]).map (·.queue)) =
      {subscription.queue} + Multiset.ofList (l.map (·.queue)) := by
  rw [List.map_append, ← Multiset.coe_add, add_comm]
  rfl

theorem awaited_setThread (s : State Payload) {e : ℕ} (he : e < s.nextThread)
    (th : Thread Payload) (c : ℕ) :
    (s.setThread e th).awaited c + (s.threads e).awaits c = s.awaited c + th.awaits c := by
  have hmem : e ∈ Finset.range s.nextThread := Finset.mem_range.mpr he
  have hupdate : ∀ e', (Function.update s.threads e th e').awaits c =
      Function.update (fun e' => (s.threads e').awaits c) e (th.awaits c) e' := fun e' => by
    simp only [Function.update_apply]
    split <;> rfl
  simp only [State.awaited, State.setThread, hupdate]
  rw [Finset.sum_update_of_mem hmem, ← Finset.add_sum_erase _ _ hmem,
    Finset.sdiff_singleton_eq_erase]
  abel

theorem runs_iff (s : State Payload) (p : Thread Payload → Bool) :
    s.runs p = true ↔ ∃ e, e < s.nextThread ∧ p (s.threads e) = true := by
  simp [State.runs]

end Bumpa.Broker
