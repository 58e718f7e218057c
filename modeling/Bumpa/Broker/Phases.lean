import Bumpa.Broker.Consumers

/-! # The phases of the service

`Phase`: what the service is at between its start, the loss of a channel and the end of a reconnect.
`Follows s p`: the state is as phase `p` says, with the consumers that should be there by then.
Deliveries and their handling are not seen (`Alike.follows`); `Calm.move` is the account of an
execution that moves on, and `Calm.without`, `Calm.dropped` of channels that are lost.
-/
namespace Bumpa.Broker
set_option autoImplicit false

variable {Payload : Type}

/-! ## Phases -/

/-- What the service is at. `e` is the execution that sets up, `next` the subscription after the
one it binds. -/
inductive Phase where
  | waiting
  | preparing (e : ℕ) (origin : SetupOrigin)
  | binding (e : ℕ) (origin : SetupOrigin) (c next : ℕ)
  | stranded (e : ℕ)
  | settled (c : ℕ)

namespace Phase

def busy : Phase → Option ℕ
  | .preparing e _ | .binding e _ _ _ | .stranded e => some e
  | .waiting | .settled _ => none

def channel : Phase → Option ℕ
  | .binding _ _ c _ | .settled c => some c
  | _ => none

/-- The subscriptions that should be consumed by now. -/
def due (subscriptions : List BrokerSubscription) : Phase → List BrokerSubscription
  | .binding _ _ _ next => subscriptions.take next
  | .settled _ => subscriptions
  | _ => []

def reconnecting : Phase → Bool
  | .waiting | .stranded _ => true
  | .preparing _ origin | .binding _ origin _ _ => origin = .reconnectTimer
  | .settled _ => false

def timer : Phase → Bool
  | .waiting => true
  | _ => false

end Phase

/-- Where a setup stands that has not made its channel current. -/
def State.Prepares (s : State Payload) : SetupPc → Prop
  | .connect | .createConfirmChannel _ => True
  | .assertEvents n c | .assertDeadLetter n c =>
    c < s.nextChannel ∧ (s.channels c).connection = n
  | .bind _ _ _ _ => False

/-- No object has listeners. -/
def State.Unheard (s : State Payload) : Prop :=
  (∀ c, (s.channels c).listening = false) ∧ ∀ n, (s.connections n).listening = false

/-- The setup that the phase is about. -/
def State.Conducts (s : State Payload) : Phase → Prop
  | .waiting | .settled _ => True
  | .preparing e origin =>
    (∃ pc, s.threads e = .setup origin pc ∧ s.Prepares pc) ∧ (origin = .moduleInit → s.Unheard)
  | .binding e origin c next =>
    (∃ call calls, s.threads e = .setup origin (.bind c call calls next)) ∧
      0 < next ∧ next ≤ s.subscriptions.length
  | .stranded e =>
    ∃ c call calls next, s.threads e = .setup .reconnectTimer (.bind c call calls next) ∧
      (s.channels c).isOpen = false

/-- An execution that no phase is about. The setup of `onModuleInit` is one once its channel is
lost. -/
def State.Bystander (s : State Payload) : Thread Payload → Prop
  | .done | .handle _ => True
  | .subscribe c _ _ => c < s.nextChannel
  | .setup .moduleInit (.bind c _ _ _) => c < s.nextChannel ∧ (s.channels c).isOpen = false
  | _ => False

/-- The part of the invariant that all phases share: `due` is consumed on `live`, and no other
execution than `busy` has a setup at work. -/
structure Calm (s : State Payload) (live : Option ℕ) (due : List BrokerSubscription)
    (busy : Option ℕ) : Prop where
  shuttingDown : s.shuttingDown = false
  channel : s.channel = live
  beyond : ∀ e, s.nextThread ≤ e → s.threads e = .done
  current : ∀ c, live = some c → c < s.nextChannel ∧ (s.channels c).isOpen = true ∧
    (s.channels c).listening = true ∧
    (s.connections (s.channels c).connection).listening = true
  claimed : ∀ d, (s.channels d).isOpen = true → (s.channels d).consumed + s.awaited d =
    if live = some d then Multiset.ofList (due.map (·.queue)) else 0
  bystanders : ∀ e, busy ≠ some e → s.Bystander (s.threads e)

structure Follows (s : State Payload) (p : Phase) : Prop where
  calm : Calm s p.channel (p.due s.subscriptions) p.busy
  reconnecting : s.reconnecting = p.reconnecting
  timer : s.reconnectTimer.isSome = p.timer
  conducts : s.Conducts p

/-! ## Steps that the service's setups do not see -/

def Thread.aside : Thread Payload → Bool
  | .done | .handle _ => true
  | _ => false

def Channel.Alike (channel channel' : Channel Payload) : Prop :=
  channel'.isOpen = channel.isOpen ∧ channel'.listening = channel.listening ∧
    channel'.connection = channel.connection

/-- They differ in deliveries and handlers only. -/
structure Alike (s s' : State Payload) : Prop where
  shuttingDown : s'.shuttingDown = s.shuttingDown
  reconnecting : s'.reconnecting = s.reconnecting
  reconnectTimer : s'.reconnectTimer = s.reconnectTimer
  subscriptions : s'.subscriptions = s.subscriptions
  channel : s'.channel = s.channel
  connections : s'.connections = s.connections
  nextChannel : s'.nextChannel = s.nextChannel
  channels : ∀ c, (s.channels c).Alike (s'.channels c) ∧
    (s'.channels c).consumed = (s.channels c).consumed
  nextThread : s.nextThread ≤ s'.nextThread
  beyond : ∀ e, s'.nextThread ≤ e → s'.threads e = .done
  threads : ∀ e, s'.threads e = s.threads e ∨
    ((s.threads e).aside = true ∧ (s'.threads e).aside = true)

theorem awaits_aside {th : Thread Payload} (h : th.aside = true) (c : ℕ) : th.awaits c = 0 := by
  cases th <;> simp_all [Thread.aside, Thread.awaits]

theorem bystander_aside (s : State Payload) {th : Thread Payload} (h : th.aside = true) :
    s.Bystander th := by
  cases th <;> simp_all [Thread.aside, State.Bystander]

/-- Closed channels stay closed. -/
theorem Bystander.mono {s s' : State Payload} {th : Thread Payload} (h : s.Bystander th)
    (hnext : s.nextChannel ≤ s'.nextChannel)
    (hclosed : ∀ c, c < s.nextChannel → (s.channels c).isOpen = false →
      (s'.channels c).isOpen = false) : s'.Bystander th := by
  unfold State.Bystander at h ⊢
  split at h
  · trivial
  · trivial
  · exact Nat.lt_of_lt_of_le h hnext
  · exact ⟨Nat.lt_of_lt_of_le h.1 hnext, hclosed _ h.1 h.2⟩
  · exact h

theorem conducts_busy {s : State Payload} {p : Phase} {e : ℕ} (h : s.Conducts p)
    (hbusy : p.busy = some e) : ∃ origin pc, s.threads e = .setup origin pc := by
  cases p with
  | waiting => cases hbusy
  | settled c => cases hbusy
  | preparing e' origin =>
    cases hbusy
    obtain ⟨⟨pc, he, -⟩, -⟩ := h
    exact ⟨origin, pc, he⟩
  | binding e' origin c next =>
    cases hbusy
    obtain ⟨⟨call, calls, he⟩, -⟩ := h
    exact ⟨origin, _, he⟩
  | stranded e' =>
    cases hbusy
    obtain ⟨c, call, calls, next, he, -⟩ := h
    exact ⟨.reconnectTimer, _, he⟩

/-- Nobody else disturbs a setup, unless by losing its channel. -/
theorem Conducts.mono {s s' : State Payload} {p : Phase} (h : s.Conducts p)
    (hnext : s'.nextChannel = s.nextChannel) (hsubscriptions : s'.subscriptions = s.subscriptions)
    (hchannels : ∀ c, (s'.channels c).listening = (s.channels c).listening ∧
      (s'.channels c).connection = (s.channels c).connection ∧
      ((s.channels c).isOpen = false → (s'.channels c).isOpen = false))
    (hconnections : ∀ n, (s'.connections n).listening = (s.connections n).listening)
    (hthreads : ∀ e, p.busy = some e → s'.threads e = s.threads e) : s'.Conducts p := by
  cases p with
  | waiting => trivial
  | settled c => trivial
  | preparing e origin =>
    obtain ⟨⟨pc, he, hpc⟩, hunheard⟩ := h
    refine ⟨⟨pc, (hthreads e rfl).trans he, ?_⟩, fun horigin => ?_⟩
    · cases pc with
      | connect | createConfirmChannel n => trivial
      | assertEvents n c | assertDeadLetter n c =>
        exact ⟨hnext ▸ hpc.1, (hchannels c).2.1.trans hpc.2⟩
      | bind c call calls next => exact hpc
    · obtain ⟨hdeaf, hdeaf'⟩ := hunheard horigin
      exact ⟨fun c => (hchannels c).1.trans (hdeaf c), fun n => (hconnections n).trans (hdeaf' n)⟩
  | binding e origin c next =>
    obtain ⟨⟨call, calls, he⟩, hbounds⟩ := h
    rw [State.Conducts, hsubscriptions]
    exact ⟨⟨call, calls, (hthreads e rfl).trans he⟩, hbounds⟩
  | stranded e =>
    obtain ⟨c, call, calls, next, he, hclosed⟩ := h
    exact ⟨c, call, calls, next, (hthreads e rfl).trans he, (hchannels c).2.2 hclosed⟩

theorem awaited_of_le {s : State Payload} {N : ℕ} (hN : s.nextThread ≤ N)
    (h : ∀ e, s.nextThread ≤ e → s.threads e = .done) (c : ℕ) :
    s.awaited c = ∑ e ∈ Finset.range N, (s.threads e).awaits c := by
  refine Finset.sum_subset (Finset.range_mono hN) fun e _ he => ?_
  rw [h e (Nat.le_of_not_lt fun hlt => he (Finset.mem_range.mpr hlt))]
  rfl

namespace Alike
variable {s s' : State Payload}

theorem awaited (h : Alike s s') (hs : ∀ e, s.nextThread ≤ e → s.threads e = .done) (c : ℕ) :
    s'.awaited c = s.awaited c := by
  rw [awaited_of_le h.nextThread hs, State.awaited]
  refine Finset.sum_congr rfl fun e _ => ?_
  rcases h.threads e with heq | ⟨hbefore, hafter⟩
  · rw [heq]
  · rw [awaits_aside hbefore, awaits_aside hafter]

theorem bystander (h : Alike s s') {th : Thread Payload} (hth : s.Bystander th) :
    s'.Bystander th :=
  Bystander.mono hth (Nat.le_of_eq h.nextChannel.symm) fun c _ => (h.channels c).1.1.trans

theorem calm (h : Alike s s') {live busy : Option ℕ} {due : List BrokerSubscription}
    (hs : Calm s live due busy) : Calm s' live due busy where
  shuttingDown := h.shuttingDown.trans hs.shuttingDown
  channel := h.channel.trans hs.channel
  beyond := h.beyond
  current := by
    intro c hc
    obtain ⟨⟨hopen, hlistening, hconnection⟩, -⟩ := h.channels c
    rw [h.nextChannel, hopen, hlistening, hconnection, h.connections]
    exact hs.current c hc
  claimed := by
    intro d hopen
    obtain ⟨⟨hopen', -⟩, hconsumed⟩ := h.channels d
    rw [hconsumed, h.awaited hs.beyond]
    exact hs.claimed d (hopen' ▸ hopen)
  bystanders := by
    intro e he
    rcases h.threads e with heq | ⟨_, hafter⟩
    · rw [heq]
      exact h.bystander (hs.bystanders e he)
    · exact bystander_aside s' hafter

theorem conducts (h : Alike s s') {p : Phase} (hs : s.Conducts p) : s'.Conducts p := by
  refine Conducts.mono hs h.nextChannel h.subscriptions (fun c => ?_) (fun n => ?_) fun e he => ?_
  · obtain ⟨⟨hopen, hlistening, hconnection⟩, -⟩ := h.channels c
    exact ⟨hlistening, hconnection, hopen.trans⟩
  · rw [h.connections]
  · rcases h.threads e with heq | ⟨hbefore, _⟩
    · exact heq
    · obtain ⟨origin, pc, hsetup⟩ := conducts_busy hs he
      rw [hsetup] at hbefore
      cases hbefore

theorem follows (h : Alike s s') {p : Phase} (hs : Follows s p) : Follows s' p where
  calm := by
    rw [h.subscriptions]
    exact h.calm hs.calm
  reconnecting := h.reconnecting.trans hs.reconnecting
  timer := by
    rw [h.reconnectTimer]
    exact hs.timer
  conducts := h.conducts hs.conducts

theorem of_parts {channels : ℕ → Channel Payload} {threads : ℕ → Thread Payload} {nextThread : ℕ}
    (settlements : List (Settlement Payload)) (retries : List (String × Message Payload))
    (hchannels : ∀ c, (s.channels c).Alike (channels c) ∧
      (channels c).consumed = (s.channels c).consumed)
    (hnext : s.nextThread ≤ nextThread) (hbeyond : ∀ e, nextThread ≤ e → threads e = .done)
    (hthreads : ∀ e, threads e = s.threads e ∨
      ((s.threads e).aside = true ∧ (threads e).aside = true)) :
    Alike s { s with
      channels := channels
      threads := threads
      nextThread := nextThread
      settlements := settlements
      retries := retries } where
  shuttingDown := rfl
  reconnecting := rfl
  reconnectTimer := rfl
  subscriptions := rfl
  channel := rfl
  connections := rfl
  nextChannel := rfl
  channels := hchannels
  nextThread := hnext
  beyond := hbeyond
  threads := hthreads

variable (hs : ∀ e, s.nextThread ≤ e → s.threads e = .done)
include hs

theorem setChannel (c : ℕ) {channel : Channel Payload} (hsame : (s.channels c).Alike channel)
    (hconsumed : channel.consumed = (s.channels c).consumed)
    (settlements : List (Settlement Payload)) :
    Alike s { s.setChannel c channel with settlements := settlements } := by
  refine of_parts settlements s.retries (fun c' => ?_) (Nat.le_refl _) hs fun _ => Or.inl rfl
  simp only [State.setChannel, Function.update_apply]
  split
  · next heq => exact heq ▸ ⟨hsame, hconsumed⟩
  · exact ⟨⟨rfl, rfl, rfl⟩, rfl⟩

theorem retries (retries : List (String × Message Payload)) :
    Alike s { s with retries := retries } :=
  of_parts s.settlements retries (fun _ => ⟨⟨rfl, rfl, rfl⟩, rfl⟩) (Nat.le_refl _) hs
    fun _ => Or.inl rfl

theorem settle (kind : SettlementKind) (d : Delivery Payload) : Alike s (s.settle kind d) := by
  unfold State.settle
  split
  · exact retries hs s.retries
  · next c _ =>
    refine setChannel hs c ?_ ?_ _
    · exact ⟨rfl, rfl, rfl⟩
    · rfl

/-- An execution that is done or handles a message goes on doing one of these. -/
theorem setThread {e : ℕ} {th : Thread Payload} (he : e < s.nextThread)
    (hbefore : (s.threads e).aside = true) (hth : th.aside = true) :
    Alike s (s.setThread e th) := by
  refine of_parts s.settlements s.retries (fun _ => ⟨⟨rfl, rfl, rfl⟩, rfl⟩) (Nat.le_refl _)
    (fun e' he' => ?_) fun e' => ?_
  · rw [Function.update_of_ne (Nat.ne_of_gt (Nat.lt_of_lt_of_le he he'))]
    exact hs e' he'
  · simp only [Function.update_apply]
    split
    · next heq => exact Or.inr ⟨heq ▸ hbefore, hth⟩
    · exact Or.inl rfl

theorem reserve : Alike s { s with nextThread := s.nextThread + 1 } :=
  of_parts s.settlements s.retries (fun _ => ⟨⟨rfl, rfl, rfl⟩, rfl⟩) (Nat.le_succ _)
    (fun e he => hs e (Nat.le_of_succ_le he)) fun _ => Or.inl rfl

end Alike

section
variable {s s' : State Payload} {p : Phase}

theorem deliver_follows {c consumer : ℕ} {message : Message Payload} (hs : Follows s p)
    (h : s.deliver c consumer message = some s') : Follows s' p := by
  obtain ⟨d, -, -, -, -, rfl⟩ := deliver_cases h
  have hbeyond := hs.calm.beyond
  have hnumbered : Alike s (s.numbered d) := by
    refine Alike.setChannel hbeyond d.channel ?_ ?_ s.settlements
    · exact ⟨rfl, rfl, rfl⟩
    · rfl
  have hs' := hnumbered.follows hs
  cases hcontent : d.message.content with
  | malformed raw =>
    simp only [State.handleMessage, hcontent]
    exact (Alike.settle hs'.calm.beyond .nack d).follows hs'
  | json event =>
    simp only [State.handleMessage, hcontent]
    have hreserved := (Alike.reserve hs'.calm.beyond).follows hs'
    have hidle : (s.numbered d).threads s.nextThread = .done := hbeyond _ (Nat.le_refl _)
    exact (Alike.setThread hreserved.calm.beyond (Nat.lt_succ_self _) (congrArg Thread.aside hidle)
      rfl).follows hreserved

theorem handlerSettled_follows {e : ℕ} {d : Delivery Payload} (o : Outcome) (hs : Follows s p)
    (he : s.threads e = .handle d) : Follows ((s.setThread e .done).handlerSettled d o) p := by
  have hlt : e < s.nextThread := by
    by_contra hle
    rw [hs.calm.beyond e (Nat.le_of_not_lt hle)] at he
    cases he
  have haside : (s.threads e).aside = true := congrArg Thread.aside he
  have hdone : Follows (s.setThread e .done) p :=
    (Alike.setThread hs.calm.beyond hlt haside rfl).follows hs
  obtain ⟨kind, retries, heq⟩ := handlerSettled_cases (s.setThread e .done) d o
  rw [heq]
  have hretried := (Alike.retries hdone.calm.beyond retries).follows hdone
  exact (Alike.settle hretried.calm.beyond kind d).follows hretried

/-- A `null` message for a consumer that is gone already. -/
theorem cancelled_follows {c consumer : ℕ} (hs : Follows s p)
    (h : (s.channels c).consumers[consumer]?.join.isNone = true) :
    Follows (s.setChannel c
      { s.channels c with consumers := (s.channels c).consumers.set consumer none }) p := by
  have hsame : (s.channels c).consumers.set consumer none = (s.channels c).consumers := by
    refine List.ext_getElem? fun i => ?_
    rw [List.getElem?_set]
    cases hi : (s.channels c).consumers[consumer]? with
    | none => grind
    | some queue =>
      rw [hi] at h
      cases queue with
      | none => grind
      | some queue => cases h
  refine (Alike.setChannel hs.calm.beyond c ?_ ?_ s.settlements).follows hs
  · exact ⟨rfl, rfl, rfl⟩
  · rw [Channel.consumed, hsame]
    rfl

end

/-! ## Steps that it sees -/

namespace Calm
variable {s : State Payload} {live busy busy' : Option ℕ} {due due' : List BrokerSubscription}

theorem lt_nextThread (h : Calm s live due busy) {e : ℕ} (he : s.threads e ≠ .done) :
    e < s.nextThread :=
  Nat.lt_of_not_le fun hle => he (h.beyond e hle)

/-- An execution moves on and channels gain consumers; the sum of both is what is due. -/
theorem move {e : ℕ} {th : Thread Payload} {channels : ℕ → Channel Payload}
    (h : Calm s live due busy) (he : e < s.nextThread)
    (hchannels : ∀ d, (s.channels d).Alike (channels d))
    (hth : busy' ≠ some e → s.Bystander th)
    (hothers : ∀ e', e' ≠ e → busy' ≠ some e' → busy ≠ some e')
    (hdue : ∀ d, (s.channels d).isOpen = true →
      (channels d).consumed + th.awaits d +
          (if live = some d then Multiset.ofList (due.map (·.queue)) else 0) =
        (s.channels d).consumed + (s.threads e).awaits d +
          if live = some d then Multiset.ofList (due'.map (·.queue)) else 0) :
    Calm ({ s with channels := channels }.setThread e th) live due' busy' where
  shuttingDown := h.shuttingDown
  channel := h.channel
  beyond := by
    intro e' he'
    have hne : e' ≠ e := Nat.ne_of_gt (Nat.lt_of_lt_of_le he he')
    simp only [State.setThread, Function.update_of_ne hne]
    exact h.beyond e' he'
  current := by
    intro c hc
    obtain ⟨hopen, hlistening, hconnection⟩ := hchannels c
    have hcurrent := h.current c hc
    simp only [State.setThread, hopen, hlistening, hconnection]
    exact hcurrent
  claimed := by
    intro d hopen
    have hopen' : (s.channels d).isOpen = true := (hchannels d).1 ▸ hopen
    have hclaimed := h.claimed d hopen'
    have hd := hdue d hopen'
    have hmoved := awaited_setThread s he th d
    apply add_right_cancel (b := (s.channels d).consumed + (s.threads e).awaits d)
    calc (channels d).consumed + (s.setThread e th).awaited d +
          ((s.channels d).consumed + (s.threads e).awaits d)
        = (channels d).consumed + (s.channels d).consumed +
          ((s.setThread e th).awaited d + (s.threads e).awaits d) := by abel
      _ = (channels d).consumed + th.awaits d +
          ((s.channels d).consumed + s.awaited d) := by
        rw [hmoved]
        abel
      _ = _ := by
        rw [hclaimed, hd]
        abel
  bystanders := by
    have hbystander : ∀ th', s.Bystander th' →
        ({ s with channels := channels }.setThread e th).Bystander th' :=
      fun _ h => Bystander.mono h (Nat.le_refl _) fun c _ => (hchannels c).1.trans
    intro e' he'
    simp only [State.setThread, Function.update_apply]
    split
    · next heq =>
      subst heq
      exact hbystander th (hth he')
    · next hne => exact hbystander _ (h.bystanders e' (hothers e' hne he'))

/-- An execution that stops or starts to await. -/
theorem setThread {e : ℕ} {th : Thread Payload} (h : Calm s live due busy) (he : e < s.nextThread)
    (hth : busy' ≠ some e → s.Bystander th)
    (hothers : ∀ e', e' ≠ e → busy' ≠ some e' → busy ≠ some e')
    (hdue : ∀ d, (s.channels d).isOpen = true →
      th.awaits d + (if live = some d then Multiset.ofList (due.map (·.queue)) else 0) =
        (s.threads e).awaits d +
          if live = some d then Multiset.ofList (due'.map (·.queue)) else 0) :
    Calm (s.setThread e th) live due' busy' :=
  h.move he (fun _ => ⟨rfl, rfl, rfl⟩) hth hothers fun d hd => by
    rw [add_assoc, hdue d hd, ← add_assoc]

/-- The awaited call on an open channel resolves. -/
theorem advance {e c : ℕ} {call : ChannelCall} {th : Thread Payload} (h : Calm s live due busy)
    (he : e < s.nextThread) (hth : busy' ≠ some e → s.Bystander th)
    (hothers : ∀ e', e' ≠ e → busy' ≠ some e' → busy ≠ some e')
    (hdue : ∀ d, (if d = c then call.consumes else 0) + th.awaits d = (s.threads e).awaits d) :
    Calm ((s.setChannel c (call.apply (s.channels c))).setThread e th) live due busy' := by
  have happly : (s.channels c).Alike (call.apply (s.channels c)) := by
    cases call <;> exact ⟨rfl, rfl, rfl⟩
  refine h.move he (fun d => ?_) hth hothers fun d hd => ?_
  · rw [Function.update_apply]
    split
    · next heq => exact heq ▸ happly
    · exact ⟨rfl, rfl, rfl⟩
  · rw [← hdue d, Function.update_apply]
    split
    · next heq =>
      rw [consumed_apply, heq]
      abel
    · rw [zero_add]

theorem spawn {th : Thread Payload} (h : Calm s live due busy)
    (hth : busy' ≠ some s.nextThread → s.Bystander th)
    (hothers : ∀ e', e' ≠ s.nextThread → busy' ≠ some e' → busy ≠ some e')
    (hdue : ∀ d, (s.channels d).isOpen = true →
      th.awaits d + (if live = some d then Multiset.ofList (due.map (·.queue)) else 0) =
        if live = some d then Multiset.ofList (due'.map (·.queue)) else 0) :
    Calm (s.spawn th) live due' busy' := by
  have hreserved := (Alike.reserve h.beyond).calm h
  refine hreserved.setThread (Nat.lt_succ_self _) hth hothers fun d hd => ?_
  have hidle : s.threads s.nextThread = .done := h.beyond _ (Nat.le_refl _)
  rw [hdue d hd]
  simp only [hidle, awaits_done, zero_add]

end Calm

/-- The channels that `lost` names are lost; connections keep their listeners. -/
def State.without (s : State Payload) (connections : ℕ → Connection) (lost : ℕ → Bool) :
    State Payload :=
  { s with
    connections := connections
    channels := fun c => if lost c then (s.channels c).lost else s.channels c }

/-- The stale references are cleared. -/
def State.released (s : State Payload) : State Payload :=
  { s with channel := none, connection := none }

section
variable {s : State Payload} {connections : ℕ → Connection} {lost : ℕ → Bool}

theorem without_channel (s : State Payload) (connections : ℕ → Connection) (lost : ℕ → Bool)
    (c : ℕ) :
    ((s.without connections lost).channels c).listening = (s.channels c).listening ∧
    ((s.without connections lost).channels c).connection = (s.channels c).connection ∧
    (((s.without connections lost).channels c).isOpen = true →
      lost c = false ∧ (s.channels c).isOpen = true ∧
        ((s.without connections lost).channels c).consumed = (s.channels c).consumed) := by
  unfold State.without
  cases hlost : lost c with
  | false =>
    refine ⟨by simp [hlost], by simp [hlost], fun hopen => ⟨rfl, ?_⟩⟩
    simpa [hlost] using hopen
  | true =>
    refine ⟨by simp [hlost, Channel.lost], by simp [hlost, Channel.lost], fun hopen => ?_⟩
    simp [hlost, Channel.lost] at hopen

theorem without_closed {c : ℕ} (h : (s.channels c).isOpen = false) :
    ((s.without connections lost).channels c).isOpen = false := by
  by_contra hopen
  rw [Bool.not_eq_false] at hopen
  rw [((without_channel s connections lost c).2.2 hopen).2.1] at h
  cases h

theorem without_bystander (connections : ℕ → Connection) (lost : ℕ → Bool)
    {th : Thread Payload} (h : s.Bystander th) : (s.without connections lost).Bystander th :=
  Bystander.mono h (Nat.le_refl _) fun _ _ => without_closed

theorem without_conducts {p : Phase}
    (hconnections : ∀ n, (connections n).listening = (s.connections n).listening)
    (h : s.Conducts p) : (s.without connections lost).Conducts p := by
  refine Conducts.mono h rfl rfl (fun c => ?_) hconnections fun _ _ => rfl
  obtain ⟨hlistening, hconnection, -⟩ := without_channel s connections lost c
  exact ⟨hlistening, hconnection, without_closed⟩

theorem Calm.without {live busy : Option ℕ} {due : List BrokerSubscription}
    (h : Calm s live due busy) (hlost : ∀ c, live = some c → lost c = false)
    (hconnections : ∀ n, (connections n).listening = (s.connections n).listening) :
    Calm (s.without connections lost) live due busy where
  shuttingDown := h.shuttingDown
  channel := h.channel
  beyond := h.beyond
  current := by
    intro c hc
    have hcurrent := h.current c hc
    have hsame : (s.without connections lost).channels c = s.channels c := by
      simp [State.without, hlost c hc]
    rw [hsame]
    exact ⟨hcurrent.1, hcurrent.2.1, hcurrent.2.2.1, (hconnections _).trans hcurrent.2.2.2⟩
  claimed := by
    intro d hopen
    obtain ⟨-, hopen', hconsumed⟩ := (without_channel s connections lost d).2.2 hopen
    rw [hconsumed]
    exact h.claimed d hopen'
  bystanders := fun e he => without_bystander connections lost (h.bystanders e he)

/-- The service lets go of its channel, which is lost or has nothing to consume. -/
theorem Calm.dropped {live busy : Option ℕ} {due : List BrokerSubscription}
    (h : Calm s live due busy) (hlost : ∀ c, live = some c → lost c = true ∨ due = []) :
    Calm (s.without connections lost).released none [] busy where
  shuttingDown := h.shuttingDown
  channel := rfl
  beyond := h.beyond
  current := fun _ hc => by cases hc
  claimed := by
    intro d hopen
    obtain ⟨hkept, hopen', hconsumed⟩ := (without_channel s connections lost d).2.2 hopen
    have hclaimed := h.claimed d hopen'
    rw [← hconsumed] at hclaimed
    refine hclaimed.trans ?_
    split
    · next hlive =>
      rcases hlost d hlive with hlost | hnil
      · rw [hlost] at hkept
        cases hkept
      · rw [hnil]
        rfl
    · rfl
  bystanders := fun e he => without_bystander connections lost (h.bystanders e he)

theorem Follows.without {p : Phase} (h : Follows s p)
    (hlost : ∀ c, p.channel = some c → lost c = false)
    (hconnections : ∀ n, (connections n).listening = (s.connections n).listening) :
    Follows (s.without connections lost) p where
  calm := h.calm.without hlost hconnections
  reconnecting := h.reconnecting
  timer := h.timer
  conducts := without_conducts hconnections h.conducts

end

end Bumpa.Broker
