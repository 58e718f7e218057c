import Bumpa.Amqp.TopicPattern
import Bumpa.Broker.BrokerService
import Mathlib.Data.List.Dedup

/-! # Where failed messages go

The queues and bindings that `bindAndConsume` declares, and the server's routing over them: the
default exchange routes by queue name, the two topic exchanges by the patterns of their bindings,
and a queue with dead-letter arguments publishes what expires or is rejected there once more.

A copy for a retry goes out under the name of its queue and comes back under it, and can be in no
other queue. A rejected message goes out under the routing key of its subscription, and reaches
every dead-letter queue with a pattern that matches it: `failed_messages_stay_iff`.
-/
namespace Bumpa.Broker
open Bumpa.Amqp
set_option autoImplicit false

variable {Payload : Type}

/-- The arguments `x-dead-letter-exchange` and `x-dead-letter-routing-key` of a queue. -/
abbrev DeadLetterArguments := Option (Option BrokerExchange × String)

structure Binding where
  exchange : BrokerExchange
  pattern : String
  queue : String
  deriving DecidableEq, Repr

structure Topology where
  queues : List (String × DeadLetterArguments)
  bindings : List Binding
  deriving DecidableEq, Repr

namespace Topology

def empty : Topology := ⟨[], []⟩

/-- A queue that is asserted again needs its arguments again; the server closes the channel
otherwise, and if a queue is missing. -/
def declare (t : Topology) : ChannelCall → Option Topology
  | .assertQueue queue arguments =>
    match t.queues.lookup queue with
    | none => some { t with queues := (queue, arguments) :: t.queues }
    | some declared => if declared = arguments then some t else none
  | .bindQueue queue exchange pattern =>
    if (t.queues.lookup queue).isSome then
      some { t with bindings := t.bindings.insert ⟨exchange, pattern, queue⟩ }
    else none
  | .prefetch _ => some t
  | .consume queue => if (t.queues.lookup queue).isSome then some t else none

def declareAll (t : Topology) (calls : List ChannelCall) : Option Topology :=
  calls.foldlM declare t

/-- The queues that get a message; `none` is the default exchange. -/
def route (t : Topology) (exchange : Option BrokerExchange) (key : String) : List String :=
  match exchange with
  | none => if (t.queues.lookup key).isSome then [key] else []
  | some exchange =>
    ((t.bindings.filter fun b => b.exchange = exchange && topicMatches b.pattern key).map
      (·.queue)).dedup

/-- Where a message goes that expires or is rejected in a queue; without arguments it is gone. -/
def deadLetter (t : Topology) (queue : String) : List String :=
  match t.queues.lookup queue with
  | some (some (exchange, key)) => t.route exchange key
  | _ => []

end Topology

/-- What fails in the queue and is retried comes back to it and nowhere else, and what is rejected
there ends in its own dead-letter queue and nowhere else. -/
structure StaysWith (t : Topology) (queue : String) : Prop where
  scheduled : t.route none (queue ++ ".retry") = [queue ++ ".retry"]
  redelivered : t.deadLetter (queue ++ ".retry") = [queue]
  rejected : t.deadLetter queue = [queue ++ ".dlq"]

/-- The queue a copy for a retry is sent to. -/
theorem scheduleRedelivery_queue {s s' : State Payload} {d : Delivery Payload} {n delayMs : ℕ}
    (h : s.scheduleRedelivery d n delayMs = some s') :
    s'.retries = s.retries ++ [(d.queue ++ ".retry", retryMessage d.message n delayMs)] := by
  obtain ⟨_, -, rfl⟩ := Option.map_eq_some_iff.mp h
  rfl

/-! ## What is declared -/

section Declare
variable {t t' : Topology} {call : ChannelCall} {calls : List ChannelCall} {queue : String}

theorem lookup_declare (h : t.declare call = some t') {arguments : DeadLetterArguments}
    (hqueue : t.queues.lookup queue = some arguments) :
    t'.queues.lookup queue = some arguments := by
  cases call with
  | assertQueue name declared =>
    simp only [Topology.declare] at h
    split at h
    · next hnone =>
      cases h
      have hne : queue ≠ name := by
        rintro rfl
        rw [hnone] at hqueue
        cases hqueue
      rw [List.lookup_cons, beq_false_of_ne hne]
      exact hqueue
    · split at h <;> cases h
      exact hqueue
  | bindQueue name exchange pattern =>
    simp only [Topology.declare] at h
    split at h <;> cases h
    exact hqueue
  | prefetch count =>
    cases h
    exact hqueue
  | consume name =>
    simp only [Topology.declare] at h
    split at h <;> cases h
    exact hqueue

theorem lookup_asserted {arguments : DeadLetterArguments}
    (h : t.declare (.assertQueue queue arguments) = some t') :
    t'.queues.lookup queue = some arguments := by
  simp only [Topology.declare] at h
  split at h
  · cases h
    exact List.lookup_cons_self
  · next declared hsome =>
    split at h <;> cases h
    next hsame => rw [hsome, hsame]

theorem mem_bindings_declare (h : t.declare call = some t') (b : Binding) :
    b ∈ t'.bindings ↔ b ∈ t.bindings ∨ call = .bindQueue b.queue b.exchange b.pattern := by
  cases call with
  | assertQueue name declared =>
    simp only [Topology.declare] at h
    split at h
    · cases h
      simp
    · split at h <;> cases h
      simp
  | bindQueue name exchange pattern =>
    simp only [Topology.declare] at h
    split at h <;> cases h
    rw [List.mem_insert_iff, or_comm]
    refine or_congr_right ⟨?_, ?_⟩
    · rintro rfl
      rfl
    · intro hcall
      cases hcall
      rfl
  | prefetch count =>
    cases h
    simp
  | consume name =>
    simp only [Topology.declare] at h
    split at h <;> cases h
    simp

theorem lookup_declareAll (h : t.declareAll calls = some t') {arguments : DeadLetterArguments}
    (hqueue : t.queues.lookup queue = some arguments) :
    t'.queues.lookup queue = some arguments := by
  induction calls generalizing t with
  | nil =>
    cases h
    exact hqueue
  | cons call calls ih =>
    rw [Topology.declareAll, List.foldlM_cons] at h
    obtain ⟨t₁, hcall, hrest⟩ := Option.bind_eq_some_iff.mp h
    exact ih hrest (lookup_declare hcall hqueue)

/-- What was asserted without the server's complaint has the arguments it was asserted with. -/
theorem lookup_of_mem (h : t.declareAll calls = some t') {arguments : DeadLetterArguments}
    (hcall : .assertQueue queue arguments ∈ calls) : t'.queues.lookup queue = some arguments := by
  induction calls generalizing t with
  | nil => cases hcall
  | cons call calls ih =>
    rw [Topology.declareAll, List.foldlM_cons] at h
    obtain ⟨t₁, hfirst, hrest⟩ := Option.bind_eq_some_iff.mp h
    rcases List.mem_cons.mp hcall with rfl | hcall
    · exact lookup_declareAll hrest (lookup_asserted hfirst)
    · exact ih hrest hcall

theorem mem_bindings_declareAll (h : t.declareAll calls = some t') (b : Binding) :
    b ∈ t'.bindings ↔
      b ∈ t.bindings ∨ .bindQueue b.queue b.exchange b.pattern ∈ calls := by
  induction calls generalizing t with
  | nil =>
    cases h
    simp
  | cons call calls ih =>
    rw [Topology.declareAll, List.foldlM_cons] at h
    obtain ⟨t₁, hfirst, hrest⟩ := Option.bind_eq_some_iff.mp h
    rw [ih hrest, mem_bindings_declare hfirst, List.mem_cons, or_assoc, eq_comm (a := call)]

end Declare

/-! ## The result -/

section Result
variable {subscriptions : List BrokerSubscription} {t : Topology} {sub : BrokerSubscription}

/-- Every subscription is declared on a server that has nothing yet. -/
def Declares (subscriptions : List BrokerSubscription) (t : Topology) : Prop :=
  Topology.empty.declareAll (subscriptions.flatMap bindAndConsume) = some t

instance (subscriptions : List BrokerSubscription) (t : Topology) :
    Decidable (Declares subscriptions t) :=
  inferInstanceAs (Decidable (_ = _))

theorem Declares.lookup (h : Declares subscriptions t) (hsub : sub ∈ subscriptions)
    {queue : String} {arguments : DeadLetterArguments}
    (hcall : .assertQueue queue arguments ∈ bindAndConsume sub) :
    t.queues.lookup queue = some arguments :=
  lookup_of_mem h (List.mem_flatMap.mpr ⟨sub, hsub, hcall⟩)

/-- The dead-letter queues that a key reaches. -/
theorem Declares.mem_route_deadLetter (h : Declares subscriptions t) (key name : String) :
    name ∈ t.route (some .deadLetter) key ↔ ∃ sub ∈ subscriptions,
      name = sub.queue ++ ".dlq" ∧ topicMatches sub.routingKey key = true := by
  simp only [Topology.route, List.mem_dedup, List.mem_map, List.mem_filter, Bool.and_eq_true,
    decide_eq_true_eq]
  constructor
  · rintro ⟨b, ⟨hb, hexchange, hmatches⟩, rfl⟩
    rcases (mem_bindings_declareAll h b).mp hb with hb | hcall
    · cases hb
    · obtain ⟨sub, hsub, hcall⟩ := List.mem_flatMap.mp hcall
      rw [hexchange] at hcall
      simp only [bindAndConsume, List.mem_cons, ChannelCall.bindQueue.injEq, reduceCtorEq,
        false_or, or_false, List.not_mem_nil, and_false, false_and, true_and] at hcall
      refine ⟨sub, hsub, hcall.1, ?_⟩
      rw [← hcall.2]
      exact hmatches
  · rintro ⟨sub, hsub, rfl, hmatches⟩
    refine ⟨⟨.deadLetter, sub.routingKey, sub.queue ++ ".dlq"⟩, ⟨?_, rfl, hmatches⟩, rfl⟩
    refine (mem_bindings_declareAll h _).mpr (Or.inr (List.mem_flatMap.mpr ⟨sub, hsub, ?_⟩))
    simp [bindAndConsume]

theorem eq_singleton_of_mem_iff {l : List String} {x : String} (hl : l.Nodup)
    (h : ∀ y, y ∈ l ↔ y = x) : l = [x] :=
  List.perm_singleton.mp ((List.perm_ext_iff_of_nodup hl (List.nodup_singleton x)).mpr fun y => by
    rw [h, List.mem_singleton])

/-- In the topology that the subscriptions declare, what fails in a queue stays with its
subscription exactly if no other subscription's pattern matches its routing key. -/
theorem failed_messages_stay_iff (hdistinct : (subscriptions.map (·.queue)).Nodup)
    (h : Declares subscriptions t) (hsub : sub ∈ subscriptions) :
    StaysWith t sub.queue ↔ ∀ sub' ∈ subscriptions, sub' ≠ sub →
      topicMatches sub'.routingKey sub.routingKey = false := by
  have hretry : t.queues.lookup (sub.queue ++ ".retry") = some (some (none, sub.queue)) :=
    h.lookup hsub (by simp [bindAndConsume])
  have hmain : t.queues.lookup sub.queue = some (some (some .deadLetter, sub.routingKey)) :=
    h.lookup hsub (by simp [bindAndConsume])
  have hrejected : t.deadLetter sub.queue = t.route (some .deadLetter) sub.routingKey := by
    rw [Topology.deadLetter, hmain]
  constructor
  · rintro ⟨-, -, hstays⟩ sub' hsub' hne
    refine Bool.eq_false_iff.mpr fun hmatches => hne ?_
    have hmem := (h.mem_route_deadLetter sub.routingKey (sub'.queue ++ ".dlq")).mpr
      ⟨sub', hsub', rfl, hmatches⟩
    rw [← hrejected, hstays, List.mem_singleton] at hmem
    exact List.inj_on_of_nodup_map hdistinct hsub' hsub ((String.append_left_inj ".dlq").mp hmem)
  · intro hothers
    refine ⟨?_, ?_, ?_⟩
    · simp [Topology.route, hretry]
    · simp [Topology.deadLetter, hretry, Topology.route, hmain]
    · rw [hrejected]
      refine eq_singleton_of_mem_iff (List.nodup_dedup _) fun name => ?_
      rw [h.mem_route_deadLetter]
      constructor
      · rintro ⟨sub', hsub', rfl, hmatches⟩
        by_cases hsame : sub' = sub
        · rw [hsame]
        · rw [hothers sub' hsub' hsame] at hmatches
          cases hmatches
      · rintro rfl
        exact ⟨sub, hsub, rfl, topicMatches_self _⟩

/-- For routing keys without wildcards, the other subscriptions have other keys. -/
theorem other_keys_iff (hliteral : ∀ sub' ∈ subscriptions, isLiteral sub'.routingKey = true) :
    (∀ sub' ∈ subscriptions, sub' ≠ sub → topicMatches sub'.routingKey sub.routingKey = false) ↔
      ∀ sub' ∈ subscriptions, sub' ≠ sub → sub.routingKey ≠ sub'.routingKey := by
  refine forall₂_congr fun sub' hsub' => imp_congr_right fun _ => ?_
  rw [Bool.eq_false_iff, ne_eq, topicMatches_of_literal (hliteral sub' hsub')]

end Result

/-- Two subscriptions with keys of their own. -/
theorem failed_messages_stay_distinct : ∃ t,
    Declares [⟨"rewards", "PurchaseCompleted"⟩, ⟨"payouts", "BadgeUnlocked"⟩] t ∧
    StaysWith t "rewards" := by
  obtain ⟨t, h⟩ := Option.isSome_iff_exists.mp (by decide +kernel :
    (Topology.empty.declareAll (List.flatMap bindAndConsume
      [⟨"rewards", "PurchaseCompleted"⟩, ⟨"payouts", "BadgeUnlocked"⟩])).isSome = true)
  exact ⟨t, h, (failed_messages_stay_iff (by decide) h (.head _)).mpr (by decide +kernel)⟩

/-- Two subscriptions share a key: what one of them rejects is in the other's queue as well. -/
theorem shared_key_crosses : ¬ ∀ (subscriptions : List BrokerSubscription) (t : Topology),
    (subscriptions.map (·.queue)).Nodup → Declares subscriptions t →
    ∀ sub ∈ subscriptions, StaysWith t sub.queue := by
  intro hall
  obtain ⟨t, h⟩ := Option.isSome_iff_exists.mp (by decide +kernel :
    (Topology.empty.declareAll (List.flatMap bindAndConsume
      [⟨"payouts", "BadgeUnlocked"⟩, ⟨"mails", "BadgeUnlocked"⟩])).isSome = true)
  have hstays := (hall [⟨"payouts", "BadgeUnlocked"⟩, ⟨"mails", "BadgeUnlocked"⟩] t (by decide) h
    ⟨"payouts", "BadgeUnlocked"⟩ (.head _)).rejected
  have hmain : t.queues.lookup "payouts" = some (some (some .deadLetter, "BadgeUnlocked")) :=
    Declares.lookup h (.head _) (by simp [bindAndConsume])
  have hmem : "mails.dlq" ∈ t.deadLetter "payouts" := by
    rw [Topology.deadLetter, hmain]
    exact (Declares.mem_route_deadLetter h _ _).mpr
      ⟨⟨"mails", "BadgeUnlocked"⟩, .tail _ (.head _), by decide, topicMatches_self _⟩
  rw [hstays] at hmem
  exact absurd hmem (by decide)

end Bumpa.Broker
