import Bumpa.Broker.BrokerService

/-! # Which delivery an ack or nack settles

Delivery numbers start at 1 on every channel, so an ack or nack that goes out on another channel
than the one its message came from settles some other delivery there, or none. `Settlement.Own`
says that it settles exactly the delivery whose handling has just finished.

A handler may finish long after its channel is gone, and the service settles on the channel that is
current by then. `settlesOnOwn` is the condition under which that is right: when a handler finishes
or a payload does not parse, the current channel is gone, or is the one that delivered the message.
`settlements_own_iff`: all settlements are right along a run exactly if all its steps meet it.
`settlement_crossed` is a reconnect between a delivery and the end of its handler.
-/
namespace Bumpa.Broker
open Bumpa.Transition
set_option autoImplicit false

variable {Payload : Type}

/-- It goes out on the channel of its message and settles that delivery and no other. -/
def Settlement.Own (x : Settlement Payload) : Prop :=
  x.channel = x.handled.channel ∧ x.settled = [x.handled]

def SettlesOwn (s : State Payload) : Prop := ∀ x ∈ s.settlements, x.Own

/-- The current channel is gone, or is the one a message was delivered on. -/
def State.goneOrOn (s : State Payload) (channel : ℕ) : Bool := s.liveChannel.all (· = channel)

def settlesOnOwn (s : State Payload) : Label Payload → Bool
  | .deliver c _ message =>
    match message.content with
    | .malformed _ => s.goneOrOn c
    | .json _ => true
  | .run e _ =>
    match s.threads e with
    | .handle delivery => s.goneOrOn delivery.channel
    | _ => true
  | _ => true

/-! ## Steps that settle and deliver nothing -/

/-- No settlement and no new handler; channels that existed are as they were or lost. -/
structure Quiet (s s' : State Payload) : Prop where
  settlements : s'.settlements = s.settlements
  handles : ∀ e d, s'.threads e = .handle d → s.threads e = .handle d
  nextChannel : s.nextChannel ≤ s'.nextChannel
  delivered : ∀ c, c < s.nextChannel → (s'.channels c).delivered = (s.channels c).delivered
  unsettled : ∀ c, (c < s.nextChannel ∨ (s.channels c).unsettled = []) →
    (s'.channels c).unsettled = (s.channels c).unsettled ∨ (s'.channels c).unsettled = []
  isOpen : ∀ c, c < s.nextChannel → (s'.channels c).isOpen = true →
    (s.channels c).isOpen = true ∧ (s'.channels c).unsettled = (s.channels c).unsettled
  beyond : ∀ c, s'.nextChannel ≤ c → (s'.channels c).isOpen = true → (s.channels c).isOpen = true

namespace Quiet
variable {s s' s'' : State Payload}

theorem of_channels (hsettlements : s'.settlements = s.settlements)
    (hthreads : ∀ e d, s'.threads e = .handle d → s.threads e = .handle d)
    (hnext : s'.nextChannel = s.nextChannel)
    (hchannels : ∀ c, s'.channels c = s.channels c ∨
      ((s'.channels c).delivered = (s.channels c).delivered ∧
        (s'.channels c).unsettled = (s.channels c).unsettled ∧
        (s'.channels c).isOpen = (s.channels c).isOpen) ∨ s'.channels c = (s.channels c).lost) :
    Quiet s s' where
  settlements := hsettlements
  handles := hthreads
  nextChannel := Nat.le_of_eq hnext.symm
  delivered := by
    intro c _
    rcases hchannels c with h | ⟨h, _⟩ | h <;> rw [h]
    rfl
  unsettled := by
    intro c _
    rcases hchannels c with h | ⟨_, h, _⟩ | h
    · exact Or.inl (by rw [h])
    · exact Or.inl h
    · exact Or.inr (by rw [h]; rfl)
  isOpen := by
    intro c _ hopen
    rcases hchannels c with h | ⟨_, h, h'⟩ | h
    · rw [h] at hopen ⊢
      exact ⟨hopen, rfl⟩
    · exact ⟨h' ▸ hopen, h⟩
    · rw [h] at hopen
      cases hopen
  beyond := by
    intro c _ hopen
    rcases hchannels c with h | ⟨_, h, h'⟩ | h
    · rwa [h] at hopen
    · exact h' ▸ hopen
    · rw [h] at hopen
      cases hopen

theorem of_same (hsettlements : s'.settlements = s.settlements)
    (hthreads : s'.threads = s.threads) (hnext : s'.nextChannel = s.nextChannel)
    (hchannels : s'.channels = s.channels) : Quiet s s' :=
  of_channels hsettlements (fun _ _ h => hthreads ▸ h) hnext fun _ => Or.inl (by rw [hchannels])

theorem trans (h : Quiet s s') (h' : Quiet s' s'') : Quiet s s'' where
  settlements := h'.settlements.trans h.settlements
  handles := fun e d hd => h.handles e d (h'.handles e d hd)
  nextChannel := Nat.le_trans h.nextChannel h'.nextChannel
  delivered := fun c hc =>
    (h'.delivered c (Nat.lt_of_lt_of_le hc h.nextChannel)).trans (h.delivered c hc)
  unsettled := by
    intro c hc
    have hfirst := h.unsettled c hc
    have hsecond := h'.unsettled c
    have := h.nextChannel
    grind
  isOpen := by
    intro c hc hopen
    obtain ⟨hopen', heq'⟩ := h'.isOpen c (Nat.lt_of_lt_of_le hc h.nextChannel) hopen
    obtain ⟨hopen, heq⟩ := h.isOpen c hc hopen'
    exact ⟨hopen, heq'.trans heq⟩
  beyond := fun c hc hopen => h.beyond c (Nat.le_trans h'.nextChannel hc) (h'.beyond c hc hopen)

theorem setThread {e : ℕ} {th : Thread Payload} (h : ∀ d, th ≠ .handle d) :
    Quiet s (s.setThread e th) := by
  refine of_channels rfl (fun e' d hd => ?_) rfl fun _ => Or.inl rfl
  simp only [State.setThread, Function.update_apply] at hd
  split at hd
  · exact absurd hd (h d)
  · exact hd

theorem spawn {th : Thread Payload} (h : ∀ d, th ≠ .handle d) : Quiet s (s.spawn th) :=
  (setThread h).trans (of_same rfl rfl rfl rfl)

theorem scheduleReconnect : Quiet s s.scheduleReconnect := by
  unfold State.scheduleReconnect
  split <;> exact of_same rfl rfl rfl rfl

theorem handleConnectionIssue : Quiet s s.handleConnectionIssue := by
  unfold State.handleConnectionIssue
  split
  · exact of_same rfl rfl rfl rfl
  · refine trans ?_ scheduleReconnect
    exact of_same rfl rfl rfl rfl

theorem channelLost (c : ℕ) : Quiet s (s.channelLost c) := by
  have hlost : Quiet s (s.setChannel c (s.channels c).lost) := by
    refine of_channels rfl (fun _ _ h => h) rfl fun c' => ?_
    simp only [State.setChannel, Function.update_apply]
    split
    · next h => exact Or.inr (Or.inr (by rw [h]))
    · exact Or.inl rfl
  unfold State.channelLost
  split
  · exact hlost.trans handleConnectionIssue
  · exact hlost

theorem connectionLost (n : ℕ) : Quiet s (s.connectionLost n) := by
  unfold State.connectionLost
  split
  · refine trans ?_ handleConnectionIssue
    refine of_channels rfl (fun _ _ h => h) rfl fun c => ?_
    dsimp only
    split
    · exact Or.inr (Or.inr rfl)
    · exact Or.inl rfl
  · refine of_channels rfl (fun _ _ h => h) rfl fun c => ?_
    dsimp only
    split
    · exact Or.inr (Or.inr rfl)
    · exact Or.inl rfl

theorem setupEnded (e : ℕ) (origin : SetupOrigin) : Quiet s (s.setupEnded e origin) := by
  have hdone : Quiet s (s.setThread e .done) := setThread (by simp)
  cases origin with
  | moduleInit => exact hdone
  | reconnectTimer =>
    unfold State.setupEnded
    dsimp only
    split
    · refine trans ?_ scheduleReconnect
      exact hdone.trans (of_same rfl rfl rfl rfl)
    · exact hdone.trans (of_same rfl rfl rfl rfl)

theorem bindNext (e : ℕ) (origin : SetupOrigin) (next : ℕ) :
    Quiet s (s.bindNext e origin next) := by
  unfold State.bindNext
  split
  · refine trans ?_ (setupEnded e origin)
    exact of_same rfl rfl rfl rfl
  · split
    · exact setThread (by simp)
    · exact setupEnded e origin

theorem apply (c : ℕ) (call : ChannelCall) :
    Quiet s (s.setChannel c (call.apply (s.channels c))) := by
  refine of_channels rfl (fun _ _ h => h) rfl fun c' => ?_
  simp only [State.setChannel, Function.update_apply]
  split
  · next h =>
    subst h
    exact Or.inr (Or.inl (by cases call <;> exact ⟨rfl, rfl, rfl⟩))
  · exact Or.inl rfl

theorem createConfirmChannel (n : ℕ) :
    Quiet s { s.setChannel s.nextChannel (Channel.created n) with
      nextChannel := s.nextChannel + 1 } where
  settlements := rfl
  handles := fun _ _ h => h
  nextChannel := Nat.le_succ _
  delivered := fun c hc => by simp [State.setChannel, Function.update_of_ne (Nat.ne_of_lt hc)]
  unsettled := fun c _ => by
    simp only [State.setChannel, Function.update_apply]
    split
    · exact Or.inr rfl
    · exact Or.inl rfl
  isOpen := fun c hc hopen => by
    simp only [State.setChannel, Function.update_of_ne (Nat.ne_of_lt hc)] at hopen ⊢
    exact ⟨hopen, trivial⟩
  beyond := fun c hc hopen => by
    have hne : c ≠ s.nextChannel := by
      dsimp only at hc
      omega
    simpa only [State.setChannel, Function.update_of_ne hne] using hopen

theorem advanceSetup {e : ℕ} {origin : SetupOrigin} {pc : SetupPc} {o : Outcome}
    (h : s.advanceSetup e origin pc o = some s') : Quiet s s' := by
  cases o with
  | fails =>
    simp only [State.advanceSetup, Option.some.injEq] at h
    rw [← h]
    exact setupEnded e origin
  | ok =>
    cases pc with
    | connect =>
      cases h
      refine trans ?_ (setThread (by simp))
      exact of_same rfl rfl rfl rfl
    | createConfirmChannel n =>
      simp only [State.advanceSetup] at h
      split at h <;> cases h
      exact (createConfirmChannel n).trans (setThread (by simp))
    | assertEvents n c =>
      simp only [State.advanceSetup] at h
      split at h <;> cases h
      exact setThread (by simp)
    | assertDeadLetter n c =>
      simp only [State.advanceSetup] at h
      split at h <;> cases h
      refine trans ?_ (bindNext e origin 0)
      refine of_channels rfl (fun _ _ h => h) rfl fun c' => ?_
      simp only [Function.update_apply]
      split
      · next h =>
        rw [h]
        exact Or.inr (Or.inl ⟨rfl, rfl, rfl⟩)
      · exact Or.inl rfl
    | bind c call calls next =>
      simp only [State.advanceSetup] at h
      split at h
      · cases calls with
        | nil =>
          cases h
          exact (apply c call).trans (bindNext e origin next)
        | cons call' calls' =>
          cases h
          exact (apply c call).trans (setThread (by simp))
      · cases h

end Quiet

/-! ## Deliveries on their way -/

/-- A delivery nobody has settled yet, unless by an ack or nack that was meant for another one. -/
structure State.Pending (s : State Payload) (d : Delivery Payload) : Prop where
  channel : d.channel < s.nextChannel
  deliveryTag : d.deliveryTag ≤ (s.channels d.channel).delivered
  unsettled : (s.channels d.channel).isOpen = true →
    d ∈ (s.channels d.channel).unsettled ∨ ∃ x ∈ s.settlements, d ∈ x.settled
  handled : ∀ x ∈ s.settlements, x.handled ≠ d

/-- What every step keeps. -/
structure Deliveries (s : State Payload) : Prop where
  beyond : ∀ c, s.nextChannel ≤ c →
    (s.channels c).isOpen = false ∧ (s.channels c).unsettled = []
  numbered : ∀ c, ∀ d ∈ (s.channels c).unsettled,
    d.channel = c ∧ d.deliveryTag ≤ (s.channels c).delivered
  distinct : ∀ c, (s.channels c).unsettled.Pairwise (·.deliveryTag ≠ ·.deliveryTag)
  pending : ∀ e d, s.threads e = .handle d → s.Pending d
  once : ∀ e e' d, s.threads e = .handle d → s.threads e' = .handle d → e = e'
  settled : ∀ x ∈ s.settlements, x.handled.channel < s.nextChannel ∧
    x.handled.deliveryTag ≤ (s.channels x.handled.channel).delivered

theorem Quiet.pending {s s' : State Payload} (h : Quiet s s') {d : Delivery Payload}
    (hd : s.Pending d) : s'.Pending d where
  channel := Nat.lt_of_lt_of_le hd.channel h.nextChannel
  deliveryTag := by
    rw [h.delivered _ hd.channel]
    exact hd.deliveryTag
  unsettled := by
    intro hopen
    obtain ⟨hopen', heq⟩ := h.isOpen _ hd.channel hopen
    rw [heq, h.settlements]
    exact hd.unsettled hopen'
  handled := by
    rw [h.settlements]
    exact hd.handled

theorem Quiet.deliveries {s s' : State Payload} (h : Quiet s s') (hs : Deliveries s) :
    Deliveries s' := by
  -- an unsettled delivery was already there
  have hcases : ∀ c, (s'.channels c).unsettled = [] ∨
      (c < s.nextChannel ∧ (s'.channels c).unsettled = (s.channels c).unsettled) := by
    intro c
    have hbeyond := hs.beyond c
    have hunsettled := h.unsettled c
    grind
  refine ⟨fun c hc => ⟨?_, ?_⟩, fun c d hd => ?_, fun c => ?_, fun e d hd => ?_, ?_, ?_⟩
  · have hbefore := hs.beyond c (Nat.le_trans h.nextChannel hc)
    have hopen := h.beyond c hc
    grind
  · have hbefore := hs.beyond c (Nat.le_trans h.nextChannel hc)
    rcases h.unsettled c (Or.inr hbefore.2) with heq | hnil
    · rw [heq, hbefore.2]
    · exact hnil
  · rcases hcases c with hnil | ⟨hc, heq⟩
    · rw [hnil] at hd
      cases hd
    · rw [heq] at hd
      rw [h.delivered c hc]
      exact hs.numbered c d hd
  · rcases hcases c with hnil | ⟨hc, heq⟩
    · rw [hnil]
      exact List.Pairwise.nil
    · rw [heq]
      exact hs.distinct c
  · exact h.pending (hs.pending e d (h.handles e d hd))
  · intro e e' d he he'
    exact hs.once e e' d (h.handles e d he) (h.handles e' d he')
  · intro x hx
    rw [h.settlements] at hx
    obtain ⟨hc, htag⟩ := hs.settled x hx
    exact ⟨Nat.lt_of_lt_of_le hc h.nextChannel, by rw [h.delivered _ hc]; exact htag⟩

/-! ## Settling -/

theorem filter_tag {l : List (Delivery Payload)} {d : Delivery Payload}
    (hl : l.Pairwise (·.deliveryTag ≠ ·.deliveryTag)) (hd : d ∈ l) :
    l.filter (·.deliveryTag = d.deliveryTag) = [d] := by
  induction l with
  | nil => cases hd
  | cons x rest ih =>
    obtain ⟨hx, hrest⟩ := List.pairwise_cons.mp hl
    rcases List.mem_cons.mp hd with rfl | hd
    · rw [List.filter_cons_of_pos (by simp), List.cons_inj_right, List.filter_eq_nil_iff]
      intro y hy
      simpa using (hx y hy).symm
    · rw [List.filter_cons_of_neg (by simpa using hx d hd), ih hrest hd]

theorem liveChannel_eq_some {s : State Payload} {c : ℕ} (h : s.liveChannel = some c) :
    s.channel = some c ∧ (s.channels c).isOpen = true := by
  rw [State.liveChannel, Option.filter_eq_some_iff] at h
  exact h

/-- The channels after an ack or nack: one of them has fewer unsettled deliveries. -/
theorem settle_channels {s : State Payload} {c : ℕ} (hc : s.liveChannel = some c)
    (kind : SettlementKind) (d : Delivery Payload) (c' : ℕ) :
    ((s.settle kind d).channels c').isOpen = (s.channels c').isOpen ∧
    ((s.settle kind d).channels c').delivered = (s.channels c').delivered ∧
    ((s.settle kind d).channels c').unsettled =
      if c' = c then (s.channels c).unsettled.filter (·.deliveryTag ≠ d.deliveryTag)
      else (s.channels c').unsettled := by
  simp only [State.settle, hc, State.setChannel, Function.update_apply]
  split
  · next h => exact ⟨by rw [h], by rw [h], rfl⟩
  · exact ⟨rfl, rfl, rfl⟩

theorem settle_settlements {s : State Payload} {kind : SettlementKind} {d : Delivery Payload}
    {c : ℕ} (hc : s.liveChannel = some c) :
    (s.settle kind d).settlements = s.settlements ++
      [⟨kind, d, c, (s.channels c).unsettled.filter (·.deliveryTag = d.deliveryTag)⟩] := by
  simp only [State.settle, hc]

theorem settle_frame (s : State Payload) (kind : SettlementKind) (d : Delivery Payload) :
    (s.settle kind d).threads = s.threads ∧ (s.settle kind d).nextChannel = s.nextChannel := by
  unfold State.settle
  split <;> exact ⟨rfl, rfl⟩

/-- Another delivery stays pending: if its number is settled, the log has it. -/
theorem settle_pending {s : State Payload} {kind : SettlementKind} {d d' : Delivery Payload}
    (hd' : s.Pending d') (hne : d ≠ d') : (s.settle kind d).Pending d' := by
  cases hc : s.liveChannel with
  | none =>
    simp only [State.settle, hc]
    exact hd'
  | some c =>
    have hchannels := settle_channels hc kind d
    refine ⟨?_, ?_, fun hopen => ?_, fun x hx => ?_⟩
    · rw [(settle_frame s kind d).2]
      exact hd'.channel
    · rw [(hchannels _).2.1]
      exact hd'.deliveryTag
    · rw [(hchannels _).1] at hopen
      rw [(hchannels _).2.2, settle_settlements hc]
      rcases hd'.unsettled hopen with hmem | ⟨x, hx, hmem⟩
      · split
        · next hon =>
          rw [hon] at hmem
          by_cases htag : d'.deliveryTag = d.deliveryTag
          · exact Or.inr ⟨_, List.mem_append_right _ (.head _), by simp [hmem, htag]⟩
          · exact Or.inl (by simp [hmem, htag])
        · exact Or.inl hmem
      · exact Or.inr ⟨x, List.mem_append_left _ hx, hmem⟩
    · rw [settle_settlements hc] at hx
      rcases List.mem_append.mp hx with hx | hx
      · exact hd'.handled x hx
      · rw [List.mem_singleton.mp hx]
        exact hne

theorem settle_deliveries {s : State Payload} {kind : SettlementKind} {d : Delivery Payload}
    (hs : Deliveries s) (hd : s.Pending d) (hfree : ∀ e, s.threads e ≠ .handle d) :
    Deliveries (s.settle kind d) := by
  obtain ⟨hthreads, hnext⟩ := settle_frame s kind d
  cases hc : s.liveChannel with
  | none =>
    simp only [State.settle, hc]
    exact hs
  | some c =>
    have hchannels := settle_channels hc kind d
    -- what is unsettled was so before
    have hsub : ∀ c', ((s.settle kind d).channels c').unsettled.Sublist
        (s.channels c').unsettled := by
      intro c'
      rw [(hchannels c').2.2]
      split
      · next h =>
        rw [h]
        exact List.filter_sublist
      · exact List.Sublist.refl _
    refine ⟨fun c' hc' => ?_, fun c' d' hd' => ?_, fun c' => ?_, fun e d' he => ?_,
      fun e e' d' he he' => ?_, fun x hx => ?_⟩
    · rw [hnext] at hc'
      obtain ⟨hclosed, hnil⟩ := hs.beyond c' hc'
      refine ⟨(hchannels c').1.trans hclosed, ?_⟩
      have hsub' := hsub c'
      rw [hnil] at hsub'
      exact List.sublist_nil.mp hsub'
    · rw [(hchannels c').2.1]
      exact hs.numbered c' d' ((hsub c').subset hd')
    · exact (hs.distinct c').sublist (hsub c')
    · rw [hthreads] at he
      refine settle_pending (hs.pending e d' he) ?_
      rintro rfl
      exact hfree e he
    · rw [hthreads] at he he'
      exact hs.once e e' d' he he'
    · rw [hnext, (hchannels _).2.1]
      rw [settle_settlements hc] at hx
      rcases List.mem_append.mp hx with hx | hx
      · exact hs.settled x hx
      · rw [List.mem_singleton.mp hx]
        exact ⟨hd.channel, hd.deliveryTag⟩

/-- While every settlement was right, a pending delivery is unsettled. -/
theorem State.Pending.mem_unsettled {s : State Payload} {d : Delivery Payload} (hd : s.Pending d)
    (hown : SettlesOwn s) (hopen : (s.channels d.channel).isOpen = true) :
    d ∈ (s.channels d.channel).unsettled := by
  rcases hd.unsettled hopen with hmem | ⟨y, hy, hmem⟩
  · exact hmem
  · rw [(hown y hy).2, List.mem_singleton] at hmem
    exact absurd hmem.symm (hd.handled y hy)

/-- While every settlement was right, one that goes out is right exactly on its own channel. -/
theorem settle_own {s : State Payload} {kind : SettlementKind} {d : Delivery Payload}
    (hs : Deliveries s) (hd : s.Pending d) (hown : SettlesOwn s) :
    SettlesOwn (s.settle kind d) ↔ s.goneOrOn d.channel = true := by
  cases hc : s.liveChannel with
  | none => simpa only [State.settle, State.goneOrOn, hc, Option.all_none, iff_true] using hown
  | some c =>
    obtain ⟨-, hopen⟩ := liveChannel_eq_some hc
    simp only [SettlesOwn, settle_settlements hc, State.goneOrOn, hc, Option.all_some,
      decide_eq_true_eq]
    constructor
    · intro hall
      exact (hall _ (List.mem_append_right _ (.head _))).1
    · rintro rfl x hx
      rcases List.mem_append.mp hx with hx | hx
      · exact hown x hx
      · rw [List.mem_singleton.mp hx]
        refine ⟨rfl, ?_⟩
        exact filter_tag (hs.distinct _) (hd.mem_unsettled hown hopen)

/-! ## Delivering -/

/-- The state in which the server has numbered a delivery and the service has not seen it. -/
def State.numbered (s : State Payload) (d : Delivery Payload) : State Payload :=
  s.setChannel d.channel { s.channels d.channel with
    delivered := (s.channels d.channel).delivered + 1
    unsettled := (s.channels d.channel).unsettled ++ [d] }

theorem numbered_liveChannel (s : State Payload) (d : Delivery Payload) :
    (s.numbered d).liveChannel = s.liveChannel := by
  rw [State.liveChannel, State.liveChannel]
  congr 1
  funext c
  simp only [State.numbered, State.setChannel, Function.update_apply]
  split
  · next h => rw [h]
  · rfl

theorem numbered_deliveries {s : State Payload} {d : Delivery Payload} (hs : Deliveries s)
    (hopen : (s.channels d.channel).isOpen = true)
    (htag : d.deliveryTag = (s.channels d.channel).delivered + 1) :
    Deliveries (s.numbered d) ∧ (s.numbered d).Pending d ∧
      ∀ e, (s.numbered d).threads e ≠ .handle d := by
  have hc : d.channel < s.nextChannel := by
    refine Nat.lt_of_not_le fun hle => ?_
    rw [(hs.beyond _ hle).1] at hopen
    cases hopen
  have hself : (s.numbered d).channels d.channel = { s.channels d.channel with
      delivered := (s.channels d.channel).delivered + 1
      unsettled := (s.channels d.channel).unsettled ++ [d] } := by
    simp only [State.numbered, State.setChannel, Function.update_self]
  have hother : ∀ c, c ≠ d.channel → (s.numbered d).channels c = s.channels c := fun c hne => by
    simp only [State.numbered, State.setChannel, Function.update_of_ne hne]
  have hdelivered : ∀ c, (s.channels c).delivered ≤ ((s.numbered d).channels c).delivered := by
    intro c
    by_cases h : c = d.channel
    · rw [h, hself]
      exact Nat.le_succ _
    · exact Nat.le_of_eq (by rw [hother c h])
  -- the number is larger than all that were used on the channel
  have hnew : ∀ d' : Delivery Payload,
      d'.deliveryTag ≤ (s.channels d'.channel).delivered → d' ≠ d := by
    rintro d' hle rfl
    omega
  refine ⟨⟨fun c hle => ?_, fun c d' hd' => ?_, fun c => ?_, fun e d' he => ⟨?_, ?_, ?_, ?_⟩,
    hs.once, fun x hx => ?_⟩, ⟨hc, ?_, fun _ => Or.inl ?_, fun x hx => ?_⟩, fun e he => ?_⟩
  · rw [hother c (Nat.ne_of_gt (Nat.lt_of_lt_of_le hc hle))]
    exact hs.beyond c hle
  · by_cases h : c = d.channel
    · subst h
      rw [hself] at hd' ⊢
      rcases List.mem_append.mp hd' with hd' | hd'
      · obtain ⟨hon, hle⟩ := hs.numbered _ d' hd'
        exact ⟨hon, Nat.le_succ_of_le hle⟩
      · rw [List.mem_singleton.mp hd']
        exact ⟨rfl, Nat.le_of_eq htag⟩
    · rw [hother c h] at hd' ⊢
      exact hs.numbered c d' hd'
  · by_cases h : c = d.channel
    · subst h
      rw [hself]
      refine List.pairwise_append.mpr ⟨hs.distinct _, List.pairwise_singleton _ _, ?_⟩
      intro d' hd' d'' hd''
      rw [List.mem_singleton.mp hd'']
      have := (hs.numbered _ d' hd').2
      omega
    · rw [hother c h]
      exact hs.distinct c
  · exact (hs.pending e d' he).channel
  · exact Nat.le_trans (hs.pending e d' he).deliveryTag (hdelivered _)
  · intro hopen'
    by_cases h : d'.channel = d.channel
    · rw [h, hself] at hopen' ⊢
      have hd' := (hs.pending e d' he).unsettled
      rw [h] at hd'
      rcases hd' hopen' with hmem | hsettled
      · exact Or.inl (List.mem_append_left _ hmem)
      · exact Or.inr hsettled
    · rw [hother _ h] at hopen' ⊢
      exact (hs.pending e d' he).unsettled hopen'
  · exact (hs.pending e d' he).handled
  · obtain ⟨hx', htag'⟩ := hs.settled x hx
    exact ⟨hx', Nat.le_trans htag' (hdelivered _)⟩
  · exact Nat.le_of_eq (by rw [hself, htag])
  · rw [hself]
    exact List.mem_append_right _ (.head _)
  · exact hnew _ (hs.settled x hx).2
  · exact hnew _ (hs.pending e d he).deliveryTag rfl

/-- A handler is started for a delivery that has none. -/
theorem spawn_deliveries {s : State Payload} {d : Delivery Payload} (hs : Deliveries s)
    (hd : s.Pending d) (hfree : ∀ e, s.threads e ≠ .handle d) :
    Deliveries (s.spawn (.handle d)) := by
  have hthreads : ∀ e d', (s.spawn (.handle d)).threads e = .handle d' →
      (e = s.nextThread ∧ d' = d) ∨ (e ≠ s.nextThread ∧ s.threads e = .handle d') := by
    intro e d' he
    simp only [State.spawn, State.setThread, Function.update_apply] at he
    split at he
    · next h => exact Or.inl ⟨h, (Thread.handle.inj he).symm⟩
    · next h => exact Or.inr ⟨h, he⟩
  refine ⟨hs.beyond, hs.numbered, hs.distinct, fun e d' he => ?_, fun e e' d' he he' => ?_,
    hs.settled⟩
  · have hpending : s.Pending d' := by
      rcases hthreads e d' he with ⟨_, rfl⟩ | ⟨_, he⟩
      · exact hd
      · exact hs.pending e d' he
    exact ⟨hpending.channel, hpending.deliveryTag, hpending.unsettled, hpending.handled⟩
  · rcases hthreads e d' he with ⟨h, rfl⟩ | ⟨_, hold⟩
    · rcases hthreads e' d' he' with ⟨h', -⟩ | ⟨_, hold'⟩
      · rw [h, h']
      · exact absurd hold' (hfree e')
    · rcases hthreads e' d' he' with ⟨_, rfl⟩ | ⟨_, hold'⟩
      · exact absurd hold (hfree e)
      · exact hs.once e e' d' hold hold'

theorem deliver_cases {s s' : State Payload} {c consumer : ℕ} {message : Message Payload}
    (h : s.deliver c consumer message = some s') :
    ∃ d : Delivery Payload, d.channel = c ∧ d.message = message ∧
      (s.channels c).isOpen = true ∧ d.deliveryTag = (s.channels c).delivered + 1 ∧
      s' = (s.numbered d).handleMessage d := by
  simp only [State.deliver] at h
  split at h
  · next queue _ =>
    split at h
    · next hcan =>
      cases h
      exact ⟨⟨c, _, consumer, queue, message⟩, rfl, rfl, hcan.1, rfl, rfl⟩
    · cases h
  · cases h

/-! ## Runs -/

/-- What a step keeps, and when its settlement, if it has one, is right. -/
def Keeps (s s' : State Payload) (guard : Bool) : Prop :=
  Deliveries s' ∧ (SettlesOwn s → (SettlesOwn s' ↔ guard = true))

theorem Quiet.keeps {s s' : State Payload} (h : Quiet s s') (hs : Deliveries s) :
    Keeps s s' true := by
  refine ⟨h.deliveries hs, fun hown => iff_of_true ?_ rfl⟩
  rw [SettlesOwn, h.settlements]
  exact hown

theorem deliver_keeps {s s' : State Payload} {c consumer : ℕ} {message : Message Payload}
    (hs : Deliveries s) (h : s.deliver c consumer message = some s') :
    Keeps s s' (settlesOnOwn s (.deliver c consumer message)) := by
  obtain ⟨d, rfl, rfl, hopen, htag, rfl⟩ := deliver_cases h
  obtain ⟨hnumbered, hd, hfree⟩ := numbered_deliveries hs hopen htag
  cases hcontent : d.message.content with
  | malformed raw =>
    simp only [State.handleMessage, settlesOnOwn, hcontent]
    refine ⟨settle_deliveries hnumbered hd hfree, fun hown => ?_⟩
    have hiff : SettlesOwn ((s.numbered d).safeNack d) ↔ _ := settle_own hnumbered hd hown
    rw [hiff, State.goneOrOn, numbered_liveChannel]
    rfl
  | json event =>
    simp only [State.handleMessage, settlesOnOwn, hcontent]
    exact ⟨spawn_deliveries hnumbered hd hfree, fun hown => iff_of_true hown rfl⟩

/-- Whatever the handler did, its delivery is acked or nacked on the current channel. -/
theorem handlerSettled_cases (s : State Payload) (d : Delivery Payload) (o : Outcome) :
    ∃ kind retries, s.handlerSettled d o = { s with retries := retries }.settle kind d := by
  cases o with
  | ok => exact ⟨.ack, s.retries, rfl⟩
  | fails =>
    simp only [State.handlerSettled]
    split
    · exact ⟨.nack, s.retries, rfl⟩
    · cases hr : s.scheduleRedelivery d (readRetryCount d.message + 1)
          (retryDelayMs (readRetryCount d.message)) with
      | none => exact ⟨.nack, s.retries, rfl⟩
      | some s' =>
        obtain ⟨_, -, rfl⟩ := Option.map_eq_some_iff.mp hr
        exact ⟨.ack, _, rfl⟩

/-- A handler is done, and its delivery is settled. -/
theorem ended_keeps {s : State Payload} {e : ℕ} {d : Delivery Payload} (kind : SettlementKind)
    (retries : List (String × Message Payload)) (hs : Deliveries s)
    (he : s.threads e = .handle d) :
    Keeps s ({ s.setThread e .done with retries := retries }.settle kind d)
      (s.goneOrOn d.channel) := by
  have hquiet : Quiet s { s.setThread e .done with retries := retries } := by
    have hthread : Quiet s (s.setThread e .done) := Quiet.setThread (by simp)
    refine hthread.trans ?_
    exact Quiet.of_same rfl rfl rfl rfl
  have hdone := hquiet.deliveries hs
  have hd := hquiet.pending (hs.pending e d he)
  have hfree : ∀ e', (s.setThread e .done).threads e' ≠ .handle d := by
    intro e' he'
    simp only [State.setThread, Function.update_apply] at he'
    split at he'
    · cases he'
    · next hne => exact hne (hs.once e' e d he' he)
  exact ⟨settle_deliveries hdone hd hfree, fun hown => settle_own hdone hd hown⟩

theorem handle_keeps {s : State Payload} {e : ℕ} {d : Delivery Payload} (o : Outcome)
    (hs : Deliveries s) (he : s.threads e = .handle d) :
    Keeps s ((s.setThread e .done).handlerSettled d o) (s.goneOrOn d.channel) := by
  obtain ⟨kind, retries, heq⟩ := handlerSettled_cases (s.setThread e .done) d o
  rw [heq]
  exact ended_keeps kind retries hs he

/-- The label neither delivers a message nor ends its handling. -/
def Label.Settles (s : State Payload) : Label Payload → Prop
  | .deliver _ _ _ => True
  | .run e _ => ∃ d, s.threads e = .handle d
  | _ => False

theorem advance_quiet {s s' : State Payload} {e : ℕ} {o : Outcome}
    (hth : ¬ ∃ d, s.threads e = .handle d) (h : advance s e o = some s') : Quiet s s' := by
  have hdone : Quiet s (s.setThread e .done) := Quiet.setThread (by simp)
  unfold advance at h
  split at h
  · cases h
  · exact Quiet.advanceSetup h
  · split at h
    · cases h
      exact hdone
    · split at h
      · cases h
        refine (Quiet.apply _ _).trans (Quiet.setThread fun d => ?_)
        split <;> simp
      · cases h
  · next d hd => exact absurd ⟨d, hd⟩ hth
  · dsimp only at h
    split at h <;> cases h
    · exact hdone
    · exact hdone.trans (Quiet.connectionLost _)

theorem step_quiet {s s' : State Payload} {l : Label Payload} (hl : ¬ l.Settles s)
    (h : step s l = some s') : Quiet s s' := by
  have hissue : ∀ b : Bool, Quiet s (if b then s.handleConnectionIssue else s) := fun b => by
    split
    · exact Quiet.handleConnectionIssue
    · exact Quiet.of_same rfl rfl rfl rfl
  cases l with
  | subscribe subscription =>
    simp only [step] at h
    split at h <;> cases h
    · refine Quiet.trans ?_ (Quiet.spawn (by simp))
      exact Quiet.of_same rfl rfl rfl rfl
    · exact Quiet.of_same rfl rfl rfl rfl
  | timer =>
    simp only [step] at h
    split at h
    · split at h <;> cases h
      · exact Quiet.of_same rfl rfl rfl rfl
      · refine Quiet.trans ?_ (Quiet.spawn (by simp))
        exact Quiet.of_same rfl rfl rfl rfl
    · cases h
  | onModuleDestroy =>
    simp only [step] at h
    split at h <;> cases h
    · refine Quiet.trans ?_ (Quiet.spawn (by simp))
      exact Quiet.of_same rfl rfl rfl rfl
    · refine Quiet.trans ?_ (Quiet.spawn (by simp))
      refine Quiet.trans ?_ (Quiet.channelLost _)
      exact Quiet.of_same rfl rfl rfl rfl
  | deliver c consumer message => exact absurd trivial hl
  | cancelled c consumer =>
    cases h
    refine Quiet.of_channels rfl (fun _ _ h => h) rfl fun c' => ?_
    simp only [State.setChannel, Function.update_apply]
    split
    · next h =>
      rw [h]
      exact Or.inr (Or.inl ⟨rfl, rfl, rfl⟩)
    · exact Or.inl rfl
  | channelLost c =>
    cases h
    exact Quiet.channelLost c
  | connectionLost n =>
    cases h
    exact Quiet.connectionLost n
  | channelEvent c =>
    cases h
    exact hissue _
  | connectionEvent n =>
    cases h
    exact hissue _
  | run e o => exact advance_quiet hl h

theorem step_keeps {s s' : State Payload} {l : Label Payload} (hs : Deliveries s)
    (h : step s l = some s') : Keeps s s' (settlesOnOwn s l) := by
  by_cases hl : l.Settles s
  · cases l with
    | deliver c consumer message => exact deliver_keeps hs h
    | run e o =>
      obtain ⟨d, hth⟩ := hl
      simp only [step, advance, hth] at h
      cases h
      simpa only [settlesOnOwn, hth] using handle_keeps o hs hth
    | _ => exact absurd hl id
  · have hguard : settlesOnOwn s l = true := by
      cases l with
      | deliver c consumer message => exact absurd trivial hl
      | run e o =>
        cases hth : s.threads e with
        | handle d => exact absurd ⟨d, hth⟩ hl
        | _ => simp only [settlesOnOwn, hth]
      | _ => rfl
    rw [hguard]
    exact (step_quiet hl h).keeps hs

theorem initial_deliveries : Deliveries (initial : State Payload) where
  beyond := fun _ _ => ⟨rfl, rfl⟩
  numbered := fun _ _ hd => by cases hd
  distinct := fun _ => List.Pairwise.nil
  pending := fun e d he => by
    simp only [initial, Function.update_apply] at he
    split at he <;> cases he
  once := fun e e' d he => by
    simp only [initial, Function.update_apply] at he
    split at he <;> cases he
  settled := fun _ hx => by cases hx

/-- Every ack and nack of a run settles exactly the delivery that was just handled, if and only if
no handling ends while another channel than its own is current. -/
theorem settlements_own_iff {tr : List (Move (State Payload) (Label Payload))} {s : State Payload}
    (h : Reaches tr s) :
    (∀ x ∈ tr, SettlesOwn x.target) ↔ Guarded (fun s l => settlesOnOwn s l = true) tr :=
  Run.invariant_iff Deliveries SettlesOwn (fun _ _ _ hs hstep => (step_keeps hs hstep).1)
    (fun _ _ _ hs hown hstep => (step_keeps hs hstep).2 hown) h initial_deliveries
    (fun _ hx => by cases hx)

/-! ## Schedules -/

/-- Module init binds one subscription, and a message arrives on it. -/
def firstDelivery : List (Label Unit) :=
  List.replicate 4 (.run 0 .ok) ++ .subscribe ⟨"q", "PurchaseCompleted"⟩ ::
    List.replicate 7 (.run 1 .ok) ++ [.deliver 0 0 ⟨.json (), "PurchaseCompleted", ⟨none, []⟩⟩]

/-- The channel is lost, and the timer's setup binds the subscription on the next one, where the
message is delivered once more. -/
def reconnected : List (Label Unit) :=
  [.channelLost 0, .timer] ++ List.replicate 11 (.run 3 .ok) ++
    [.deliver 1 0 ⟨.json (), "PurchaseCompleted", ⟨none, []⟩⟩]

/-- The handler fails, its message goes to the retry queue and is acked; the next one is nacked. -/
theorem settlements_own_retried : ∃ tr s, Reaches tr s ∧
    (s : State Unit).settlements.map (·.kind) = [.ack, .nack] ∧ ∀ x ∈ tr, SettlesOwn x.target := by
  obtain ⟨tr, s, h, hp⟩ := exists_run_of_trace step (initial : State Unit)
    (firstDelivery ++ [.run 2 .fails, .deliver 0 0 ⟨.malformed "", "PurchaseCompleted", ⟨none, []⟩⟩])
    (fun r => (r.1.all fun x => settlesOnOwn x.source x.label) &&
      decide (r.2.settlements.map (·.kind) = [.ack, .nack])) (by decide +kernel)
  rw [Bool.and_eq_true, decide_eq_true_eq] at hp
  exact ⟨tr, s, h, hp.2, (settlements_own_iff h).mpr (guarded_of_all hp.1)⟩

/-- The first handler finishes after the reconnect: its ack settles the message that is being
handled on the new channel. -/
theorem settlement_crossed : ¬ ∀ (tr : List (Move (State Unit) (Label Unit))) (s : State Unit),
    Reaches tr s → SettlesOwn s := by
  intro hall
  obtain ⟨tr, s, h, hp⟩ := exists_run_of_trace step (initial : State Unit)
    (firstDelivery ++ reconnected ++ [.run 2 .ok])
    (fun r => r.2.settlements.any fun x => x.handled.channel = 0 && x.channel = 1 &&
      !x.settled.isEmpty) (by decide +kernel)
  obtain ⟨x, hx, hcrossed⟩ := List.any_eq_true.mp hp
  have hown := (hall tr s h x hx).1
  simp only [Bool.and_eq_true, decide_eq_true_eq] at hcrossed
  omega

end Bumpa.Broker
