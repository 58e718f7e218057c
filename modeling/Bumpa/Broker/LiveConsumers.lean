import Bumpa.Broker.Reconnects

/-! # One live consumer for each subscription

`one_consumer_each`: a run whose steps all meet the condition has one live consumer for each
subscription in every state. `consumers_doubled`: a connection that outlived its channel is lost
after the reconnect.
-/
namespace Bumpa.Broker
open Bumpa.Transition
set_option autoImplicit false

variable {Payload : Type}

def State.registered (s : State Payload) (subscription : BrokerSubscription) : State Payload :=
  { s with subscriptions := s.subscriptions ++ [subscription] }

theorem step_subscribe {s s' : State Payload} {subscription : BrokerSubscription}
    (h : step s (.subscribe subscription) = some s') :
    (s.channel = none ∧ s' = s.registered subscription) ∨
    ∃ c call calls, s.channel = some c ∧ bindAndConsume subscription = call :: calls ∧
      s' = (s.registered subscription).spawn (.subscribe c call calls) := by
  simp only [step] at h
  split at h
  · next c call calls hc hcalls =>
    cases h
    exact Or.inr ⟨c, call, calls, hc, hcalls, rfl⟩
  · next hnone =>
    cases h
    refine Or.inl ⟨Option.eq_none_iff_forall_ne_some.mpr fun c hc => ?_, rfl⟩
    exact hnone c _ _ hc rfl

/-! ## The end of the module -/

@[simp] theorem scheduleReconnect_shuttingDown (s : State Payload) :
    s.scheduleReconnect.shuttingDown = s.shuttingDown := by
  unfold State.scheduleReconnect
  split <;> rfl

@[simp] theorem handleConnectionIssue_shuttingDown (s : State Payload) :
    s.handleConnectionIssue.shuttingDown = s.shuttingDown := by
  unfold State.handleConnectionIssue
  split
  · rfl
  · exact scheduleReconnect_shuttingDown _

@[simp] theorem channelLost_shuttingDown (s : State Payload) (c : ℕ) :
    (s.channelLost c).shuttingDown = s.shuttingDown := by
  unfold State.channelLost
  split
  · exact handleConnectionIssue_shuttingDown _
  · rfl

@[simp] theorem connectionLost_shuttingDown (s : State Payload) (n : ℕ) :
    (s.connectionLost n).shuttingDown = s.shuttingDown := by
  unfold State.connectionLost
  dsimp only
  split
  · exact handleConnectionIssue_shuttingDown _
  · rfl

@[simp] theorem setupEnded_shuttingDown (s : State Payload) (e : ℕ) (origin : SetupOrigin) :
    (s.setupEnded e origin).shuttingDown = s.shuttingDown := by
  cases origin with
  | moduleInit => rfl
  | reconnectTimer =>
    simp only [State.setupEnded]
    split
    · exact scheduleReconnect_shuttingDown _
    · rfl

@[simp] theorem bindNext_shuttingDown (s : State Payload) (e : ℕ) (origin : SetupOrigin)
    (next : ℕ) : (s.bindNext e origin next).shuttingDown = s.shuttingDown := by
  unfold State.bindNext
  split
  · exact setupEnded_shuttingDown _ e origin
  · split
    · rfl
    · exact setupEnded_shuttingDown s e origin

theorem advanceSetup_shuttingDown {s s' : State Payload} {e : ℕ} {origin : SetupOrigin}
    {pc : SetupPc} {o : Outcome} (h : s.advanceSetup e origin pc o = some s') :
    s'.shuttingDown = s.shuttingDown := by
  cases o with
  | fails =>
    cases h
    exact setupEnded_shuttingDown s e origin
  | ok =>
    cases pc with
    | connect =>
      cases h
      rfl
    | createConfirmChannel n | assertEvents n c =>
      simp only [State.advanceSetup] at h
      split at h <;> cases h
      rfl
    | assertDeadLetter n c =>
      simp only [State.advanceSetup] at h
      split at h <;> cases h
      exact bindNext_shuttingDown _ e origin 0
    | bind c call calls next =>
      simp only [State.advanceSetup] at h
      split at h
      · cases calls with
        | nil =>
          cases h
          exact bindNext_shuttingDown _ e origin next
        | cons call' calls' =>
          cases h
          rfl
      · cases h

@[simp] theorem settle_shuttingDown (s : State Payload) (kind : SettlementKind)
    (d : Delivery Payload) : (s.settle kind d).shuttingDown = s.shuttingDown := by
  unfold State.settle
  split <;> rfl

theorem deliver_shuttingDown {s s' : State Payload} {c consumer : ℕ} {message : Message Payload}
    (h : s.deliver c consumer message = some s') : s'.shuttingDown = s.shuttingDown := by
  obtain ⟨d, -, -, -, -, rfl⟩ := deliver_cases h
  unfold State.handleMessage
  split
  · exact settle_shuttingDown _ .nack d
  · rfl

theorem advance_shuttingDown {s s' : State Payload} {e : ℕ} {o : Outcome}
    (h : advance s e o = some s') : s'.shuttingDown = s.shuttingDown := by
  unfold advance at h
  split at h
  · cases h
  · exact advanceSetup_shuttingDown h
  · split at h
    · cases h
      rfl
    · split at h <;> cases h
      rfl
  · next d _ =>
    cases h
    obtain ⟨kind, retries, heq⟩ := handlerSettled_cases (s.setThread e .done) d o
    rw [heq]
    exact settle_shuttingDown _ kind d
  · dsimp only at h
    split at h <;> cases h
    · rfl
    · exact connectionLost_shuttingDown _ _

/-- The module ends once. -/
theorem step_shuttingDown {s s' : State Payload} {l : Label Payload} (h : step s l = some s')
    (hdown : s.shuttingDown = true ∨ l = .onModuleDestroy) : s'.shuttingDown = true := by
  have hevent : ∀ b : Bool, s.shuttingDown = true →
      (if b then s.handleConnectionIssue else s).shuttingDown = true := by
    intro b hs
    split
    · rwa [handleConnectionIssue_shuttingDown]
    · exact hs
  cases l with
  | onModuleDestroy =>
    simp only [step] at h
    split at h <;> cases h
    · rfl
    · exact channelLost_shuttingDown _ _
  | subscribe subscription =>
    have hs := hdown.resolve_right (by simp)
    rcases step_subscribe h with ⟨-, rfl⟩ | ⟨c, call, calls, -, -, rfl⟩
    · exact hs
    · exact hs
  | timer =>
    have hs := hdown.resolve_right (by simp)
    simp only [step] at h
    split at h
    · cases h
      exact hs
    · cases h
  | deliver c consumer message =>
    exact (deliver_shuttingDown h).trans (hdown.resolve_right (by simp))
  | run e o => exact (advance_shuttingDown h).trans (hdown.resolve_right (by simp))
  | cancelled c consumer =>
    cases h
    exact hdown.resolve_right (by simp)
  | channelLost c =>
    cases h
    exact (channelLost_shuttingDown s c).trans (hdown.resolve_right (by simp))
  | connectionLost n =>
    cases h
    exact (connectionLost_shuttingDown s n).trans (hdown.resolve_right (by simp))
  | channelEvent c | connectionEvent n =>
    cases h
    exact hevent _ (hdown.resolve_right (by simp))

/-! ## Steps -/

section
variable {s s' : State Payload} {e c : ℕ}

theorem Calm.registered {live busy : Option ℕ} {due : List BrokerSubscription}
    (h : Calm s live due busy) (subscription : BrokerSubscription) :
    Calm (s.registered subscription) live due busy :=
  ⟨h.shuttingDown, h.channel, h.beyond, h.current, h.claimed, h.bystanders⟩

theorem subscribe_follows {p : Phase} {subscription : BrokerSubscription} (hs : Follows s p)
    (hguard : keepsUp s (.subscribe subscription) = true)
    (h : step s (.subscribe subscription) = some s') : ∃ p', Follows s' p' := by
  have hregistered := hs.calm.registered subscription
  have hchannel := hs.calm.channel
  rcases step_subscribe h with ⟨hnone, rfl⟩ | ⟨c, call, calls, hc, hcalls, rfl⟩
  · refine ⟨p, ?_⟩
    rw [hchannel] at hnone
    cases p with
    | settled c => cases hnone
    | binding e origin c next => cases hnone
    | _ => exact ⟨hregistered, hs.reconnecting, hs.timer, hs.conducts⟩
  · rw [hchannel] at hc
    cases p with
    | waiting => cases hc
    | preparing e origin => cases hc
    | stranded e => cases hc
    | binding e origin c' next =>
      -- the setup would bind the new subscription as well
      obtain ⟨⟨call', calls', he⟩, -⟩ := hs.conducts
      have hruns : s.runs (·.bindsOn s.channel) = true := by
        refine (runs_iff s _).mpr ⟨e, hs.calm.lt_nextThread (by rw [he]; simp), ?_⟩
        rw [he, hchannel]
        exact decide_eq_true rfl
      simp [keepsUp, hruns] at hguard
    | settled c' =>
      cases hc
      refine ⟨.settled c, ?_, hs.reconnecting, hs.timer, trivial⟩
      refine hregistered.spawn (fun _ => (hs.calm.current c rfl).1) (fun _ _ hne => hne)
        fun d _ => ?_
      simp only [Phase.due, Phase.channel, Thread.awaits, awaits_bindAndConsume hcalls,
        State.registered, State.spawn, State.setThread, queues_append, Option.some.injEq]
      split
      · rfl
      · rfl

theorem timer_follows {p : Phase} (hs : Follows s p) (h : step s .timer = some s') :
    ∃ p', Follows s' p' := by
  have htimer := hs.timer
  have hup : s.shuttingDown = false := hs.calm.shuttingDown
  simp only [step] at h
  split at h
  · next hset =>
    rw [hset] at htimer
    cases p with
    | waiting =>
      rw [if_neg (by rw [hup]; simp)] at h
      cases h
      have hunset : Calm { s with reconnectTimer := none } none [] none :=
        ⟨hs.calm.shuttingDown, hs.calm.channel, hs.calm.beyond, hs.calm.current, hs.calm.claimed,
          hs.calm.bystanders⟩
      have hspawned : Calm ({ s with reconnectTimer := none }.spawn
          (.setup .reconnectTimer .connect)) none [] (some s.nextThread) :=
        hunset.spawn (fun hne => absurd rfl hne) (fun _ _ _ => by simp) fun _ _ => zero_add _
      exact ⟨.preparing s.nextThread .reconnectTimer, hspawned, hs.reconnecting, rfl,
        ⟨.connect, Function.update_self _ _ _, trivial⟩, fun horigin => by cases horigin⟩
    | _ => cases htimer
  · cases h

/-- Objects are lost that `lost` names, and somebody listens or nobody does. -/
theorem lost_follows {p : Phase} {connections : ℕ → Connection} {lost : ℕ → Bool} {listening : Bool}
    (hs : Follows s p)
    (hconnections : ∀ n, (connections n).listening = (s.connections n).listening)
    (hheard : listening = true → ¬ s.Unheard)
    (hdeaf : listening = false → ∀ c, p.channel = some c → lost c = false)
    (hguard : (!listening || s.drops lost) = true) :
    ∃ p', Follows (if listening then (s.without connections lost).handleConnectionIssue
      else s.without connections lost) p' := by
  cases listening with
  | false => exact ⟨p, hs.without (hdeaf rfl) hconnections⟩
  | true => exact hs.dropped (hheard rfl) hguard hconnections

theorem channelLost_follows {p : Phase} (hs : Follows s p)
    (hguard : keepsUp s (.channelLost c) = true) : ∃ p', Follows (s.channelLost c) p' := by
  have hwithout : s.setChannel c (s.channels c).lost = s.without s.connections (· = c) := by
    have hchannels : Function.update s.channels c (s.channels c).lost =
        fun c' => if decide (c' = c) = true then (s.channels c').lost else s.channels c' := by
      funext c'
      rw [Function.update_apply]
      simp only [decide_eq_true_eq]
      split
      · next heq => rw [heq]
      · rfl
    simp only [State.setChannel, State.without, hchannels]
  rw [State.channelLost, hwithout]
  refine lost_follows hs (fun _ => rfl) (fun hlistening hunheard => ?_) (fun hdeaf c' hc' => ?_)
    hguard
  · rw [hunheard.1 c] at hlistening
    cases hlistening
  · refine decide_eq_false ?_
    rintro rfl
    rw [(hs.calm.current _ hc').2.2.1] at hdeaf
    cases hdeaf

theorem connectionLost_follows {p : Phase} {n : ℕ} (hs : Follows s p)
    (hguard : keepsUp s (.connectionLost n) = true) : ∃ p', Follows (s.connectionLost n) p' := by
  have hwithout : s.connectionLost n =
      if (s.connections n).listening then
        (s.without (Function.update s.connections n { s.connections n with isOpen := false })
          fun c => (s.channels c).connection = n).handleConnectionIssue
      else s.without (Function.update s.connections n { s.connections n with isOpen := false })
        fun c => (s.channels c).connection = n := by
    simp only [State.connectionLost, State.without, decide_eq_true_eq]
  rw [hwithout]
  refine lost_follows hs (fun m => ?_) (fun hlistening hunheard => ?_) (fun hdeaf c hc => ?_) hguard
  · rw [Function.update_apply]
    split
    · next heq => rw [heq]
    · rfl
  · rw [hunheard.2 n] at hlistening
    cases hlistening
  · refine decide_eq_false ?_
    rintro rfl
    rw [(hs.calm.current c hc).2.2.2] at hdeaf
    cases hdeaf

theorem event_follows {p : Phase} {listening : Bool} (hs : Follows s p)
    (hheard : listening = true → ¬ s.Unheard)
    (hguard : (!listening || s.drops fun _ => false) = true) :
    ∃ p', Follows (if listening then s.handleConnectionIssue else s) p' := by
  have hsame : s.without s.connections (fun _ => false) = s := by
    simp [State.without]
  have h : ∃ p', Follows (if listening then
      (s.without s.connections fun _ => false).handleConnectionIssue
      else s.without s.connections fun _ => false) p' :=
    lost_follows hs (fun _ => rfl) hheard (fun _ _ _ => rfl) hguard
  rwa [hsame] at h

theorem subscribing_follows {p : Phase} {call : ChannelCall} {calls : List ChannelCall}
    {o : Outcome} (hs : Follows s p) (he : s.threads e = .subscribe c call calls)
    (hguard : keepsUp s (.run e o) = true) (h : advance s e o = some s') : Follows s' p := by
  have hbusy : p.busy ≠ some e := by
    intro hbusy
    obtain ⟨origin, pc, hsetup⟩ := conducts_busy hs.conducts hbusy
    rw [he] at hsetup
    cases hsetup
  have hlt : e < s.nextThread := hs.calm.lt_nextThread (by rw [he]; simp)
  have hc : c < s.nextChannel := by
    have hth := hs.calm.bystanders e hbusy
    rwa [he] at hth
  simp only [advance, he] at h
  cases o with
  | fails =>
    cases h
    have hclosed : (s.channels c).isOpen = false := by simpa [keepsUp, he] using hguard
    refine ⟨?_, hs.reconnecting, hs.timer, conducts_setThread hs.conducts hbusy⟩
    refine hs.calm.setThread hlt (fun _ => trivial) (fun _ _ hne => hne) fun d hd => ?_
    have helsewhere : c ≠ d := by
      rintro rfl
      rw [hclosed] at hd
      cases hd
    rw [he]
    simp only [Thread.awaits, if_neg helsewhere]
    rfl
  | ok =>
    simp only at h
    split at h
    · cases h
      have hconducts : (s.setChannel c (call.apply (s.channels c))).Conducts p := by
        refine Conducts.mono hs.conducts rfl rfl (fun d => ?_) (fun _ => rfl) fun _ _ => rfl
        simp only [State.setChannel, Function.update_apply]
        split
        · next heq =>
          rw [heq]
          cases call <;> exact ⟨rfl, rfl, id⟩
        · exact ⟨rfl, rfl, id⟩
      refine ⟨?_, hs.reconnecting, hs.timer, conducts_setThread hconducts hbusy⟩
      refine hs.calm.advance hlt (fun _ => ?_) (fun _ _ hne => hne) fun d => ?_
      · cases calls with
        | nil => trivial
        | cons call' calls' => exact hc
      · rw [he]
        cases calls with
        | nil => simp [Thread.awaits, eq_comm]
        | cons call' calls' =>
          simp only [Thread.awaits, List.map_cons, List.sum_cons, eq_comm (a := d)]
          split
          · rfl
          · rfl
    · cases h

theorem advance_follows {p : Phase} {o : Outcome} (hs : Follows s p)
    (hguard : keepsUp s (.run e o) = true) (h : advance s e o = some s') :
    ∃ p', Follows s' p' := by
  cases he : s.threads e with
  | done =>
    simp only [advance, he] at h
    cases h
  | setup origin pc =>
    simp only [advance, he] at h
    exact advanceSetup_follows hs he hguard h
  | subscribe c call calls => exact ⟨p, subscribing_follows hs he hguard h⟩
  | handle d =>
    simp only [advance, he] at h
    cases h
    exact ⟨p, handlerSettled_follows o hs he⟩
  | destroy =>
    -- it starts with the end of the module
    have hbusy : p.busy ≠ some e := by
      intro hbusy
      obtain ⟨origin, pc, hsetup⟩ := conducts_busy hs.conducts hbusy
      rw [he] at hsetup
      cases hsetup
    have hth := hs.calm.bystanders e hbusy
    rw [he] at hth
    exact hth.elim

theorem step_follows {p : Phase} {l : Label Payload} (hs : Follows s p)
    (hguard : keepsUp s l = true) (h : step s l = some s') :
    s'.shuttingDown = true ∨ ∃ p', Follows s' p' := by
  cases l with
  | subscribe subscription => exact Or.inr (subscribe_follows hs hguard h)
  | timer => exact Or.inr (timer_follows hs h)
  | deliver c consumer message => exact Or.inr ⟨p, deliver_follows hs h⟩
  | run e o => exact Or.inr (advance_follows hs hguard h)
  | onModuleDestroy => exact Or.inl (step_shuttingDown h (Or.inr rfl))
  | cancelled c consumer =>
    cases h
    exact Or.inr ⟨p, cancelled_follows hs hguard⟩
  | channelLost c =>
    cases h
    exact Or.inr (channelLost_follows hs hguard)
  | connectionLost n =>
    cases h
    exact Or.inr (connectionLost_follows hs hguard)
  | channelEvent c =>
    cases h
    refine Or.inr (event_follows hs (fun hlistening hunheard => ?_) hguard)
    rw [hunheard.1 c] at hlistening
    cases hlistening
  | connectionEvent n =>
    cases h
    refine Or.inr (event_follows hs (fun hlistening hunheard => ?_) hguard)
    rw [hunheard.2 n] at hlistening
    cases hlistening

end

/-! ## Runs -/

theorem initial_follows : Follows (initial : State Payload) (.preparing 0 .moduleInit) where
  calm :=
    { shuttingDown := rfl
      channel := rfl
      beyond := initial_beyond
      current := fun _ hc => by cases hc
      claimed := fun _ hd => by cases hd
      bystanders := by
        intro e he
        have hne : e ≠ 0 := fun heq => he (congrArg some heq.symm)
        simp only [initial, Function.update_of_ne hne]
        trivial }
  reconnecting := rfl
  timer := rfl
  conducts := ⟨⟨.connect, rfl, trivial⟩, fun _ => ⟨fun _ => rfl, fun _ => rfl⟩⟩

theorem Follows.oneConsumerEach {s : State Payload} {p : Phase} (hs : Follows s p) :
    OneConsumerEach s := by
  have hconducted : ∀ e, p.busy = some e → s.initialising = true ∨ s.recovering = true := by
    intro e he
    obtain ⟨origin, pc, hsetup⟩ := conducts_busy hs.conducts he
    have hruns : s.runs (·.isSetup origin) = true := by
      refine (runs_iff s _).mpr ⟨e, hs.calm.lt_nextThread (by rw [hsetup]; simp), ?_⟩
      rw [hsetup]
      exact decide_eq_true rfl
    cases origin with
    | moduleInit => exact Or.inl hruns
    | reconnectTimer =>
      rw [State.recovering, hruns, Bool.or_true]
      exact Or.inr rfl
  cases p with
  | waiting =>
    have htimer : s.reconnectTimer.isSome = true := hs.timer
    rw [OneConsumerEach, State.recovering, htimer]
    exact Or.inr (Or.inr (Or.inl rfl))
  | preparing e origin => exact Or.inr ((hconducted e rfl).imp_right Or.inl)
  | binding e origin c next => exact Or.inr ((hconducted e rfl).imp_right Or.inl)
  | stranded e => exact Or.inr ((hconducted e rfl).imp_right Or.inl)
  | settled c =>
    have hcurrent := hs.calm.current c rfl
    refine Or.inr (Or.inr (Or.inr ⟨c, hs.calm.channel, hcurrent.2.1, ?_, fun d hd hopen => ?_⟩))
    · rw [hs.calm.claimed c hcurrent.2.1]
      exact if_pos rfl
    · have hother : (Phase.settled c).channel ≠ some d := fun heq => hd (Option.some.inj heq).symm
      have hclaimed := hs.calm.claimed d hopen
      rw [if_neg hother] at hclaimed
      exact Multiset.le_zero.mp (hclaimed ▸ Multiset.le_add_right _ _)

/-- What a step keeps that meets the condition. -/
theorem step_keepsOne {s s' : State Payload} {l : Label Payload}
    (hguard : keepsOneConsumer s l = true) (hs : s.shuttingDown = true ∨ ∃ p, Follows s p)
    (h : step s l = some s') : s'.shuttingDown = true ∨ ∃ p, Follows s' p := by
  rcases hs with hdown | ⟨p, hs⟩
  · exact Or.inl (step_shuttingDown h (Or.inl hdown))
  · rw [keepsOneConsumer, hs.calm.shuttingDown, Bool.false_or] at hguard
    exact step_follows hs hguard h

/-- A run whose steps all meet the condition has one live consumer for each subscription, or a
start, a reconnect or the end of the module under way, in every state. -/
theorem one_consumer_each {tr : List (Move (State Payload) (Label Payload))} {s : State Payload}
    (h : Reaches tr s) (hguard : Guarded (fun s l => keepsOneConsumer s l = true) tr) :
    OneConsumerEach s ∧ ∀ x ∈ tr, OneConsumerEach x.source ∧ OneConsumerEach x.target := by
  have hone : ∀ s : State Payload, (s.shuttingDown = true ∨ ∃ p, Follows s p) →
      OneConsumerEach s := by
    rintro s (hdown | ⟨p, hs⟩)
    · exact Or.inl hdown
    · exact hs.oneConsumerEach
  obtain ⟨hend, hall⟩ := Run.guarded_invariant _ (fun _ _ _ => step_keepsOne) h hguard
    (Or.inr ⟨_, initial_follows⟩)
  exact ⟨hone s hend, fun x hx => ⟨hone _ (hall x hx).1, hone _ (hall x hx).2⟩⟩

/-! ## Schedules -/

/-- A subscription, a channel-level error, and a reconnect that binds the subscription again. -/
def channelReplaced : List (Label Unit) :=
  List.replicate 4 (.run 0 .ok) ++ .subscribe ⟨"q", "PurchaseCompleted"⟩ ::
    List.replicate 7 (.run 1 .ok) ++ [.channelLost 0, .timer] ++ List.replicate 11 (.run 2 .ok)

/-- The subscription is consumed on the new channel, once. -/
theorem one_consumer_each_reconnected : ∃ tr s, Reaches tr s ∧ (s : State Unit).channel = some 1 ∧
    (s.channels 1).consumers = [some "q"] ∧ OneConsumerEach s := by
  obtain ⟨tr, s, h, hp⟩ := exists_run_of_trace step (initial : State Unit) channelReplaced
    (fun r => (r.1.all fun x => keepsOneConsumer x.source x.label) &&
      decide (r.2.channel = some 1 ∧ (r.2.channels 1).consumers = [some "q"])) (by decide +kernel)
  rw [Bool.and_eq_true, decide_eq_true_eq] at hp
  exact ⟨tr, s, h, hp.2.1, hp.2.2, (one_consumer_each h (guarded_of_all hp.1)).1⟩

/-- The first connection outlived its channel. Its loss drops the channel that the reconnect made,
which goes on consuming beside the next one. -/
theorem consumers_doubled : ¬ ∀ (tr : List (Move (State Unit) (Label Unit))) (s : State Unit),
    Reaches tr s → OneConsumerEach s := by
  intro hall
  obtain ⟨tr, s, h, hp⟩ := exists_run_of_trace step (initial : State Unit)
    (channelReplaced ++ [.connectionLost 0, .timer] ++ List.replicate 11 (.run 3 .ok))
    (fun r => !r.2.shuttingDown && !r.2.initialising && !r.2.recovering &&
      decide (r.2.channel = some 2 ∧ (r.2.channels 1).isOpen = true ∧
        (r.2.channels 1).consumers = [some "q"])) (by decide +kernel)
  simp only [Bool.and_eq_true, Bool.not_eq_true', decide_eq_true_eq] at hp
  obtain ⟨⟨⟨hup, hstarted⟩, hidle⟩, hchannel, hopen, hconsumers⟩ := hp
  rcases hall tr s h with hdown | hstarting | hrecovering | ⟨c, hserves⟩
  · rw [hup] at hdown
    cases hdown
  · rw [hstarted] at hstarting
    cases hstarting
  · rw [hidle] at hrecovering
    cases hrecovering
  · have hc := hserves.channel.symm.trans hchannel
    have hnone := hserves.others 1 (fun heq => by cases heq.trans (Option.some.inj hc)) hopen
    rw [Channel.consumed, hconsumers] at hnone
    exact absurd (congrArg Multiset.card hnone) (by decide)

end Bumpa.Broker
