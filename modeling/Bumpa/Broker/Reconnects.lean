import Bumpa.Broker.Phases

/-! # From phase to phase

`Follows.dropped`: the loss of the current channel. `advanceSetup_follows`: the steps of a setup, in
whichever phase it runs.
-/
namespace Bumpa.Broker
set_option autoImplicit false

variable {Payload : Type}

/-! ## Losing the channel -/

section
variable {s : State Payload} {p : Phase}

theorem Calm.waiting (h : Calm s none [] none) (hreconnecting : s.reconnecting = false) :
    Follows s.scheduleReconnect .waiting := by
  have hidle : (s.reconnecting || s.shuttingDown) = false := by
    rw [hreconnecting, h.shuttingDown]
    rfl
  rw [State.scheduleReconnect, if_neg (by rw [hidle]; simp)]
  exact ⟨⟨h.shuttingDown, h.channel, h.beyond, h.current, h.claimed, h.bystanders⟩, rfl, rfl,
    trivial⟩

theorem scheduleReconnect_again (h : s.reconnecting = true) : s.scheduleReconnect = s := by
  rw [State.scheduleReconnect, h, Bool.true_or, if_pos rfl]

theorem handleConnectionIssue_up (h : s.shuttingDown = false) :
    s.handleConnectionIssue = s.released.scheduleReconnect := by
  rw [State.handleConnectionIssue, if_neg (by rw [h]; simp)]
  rfl

/-- An event that drops the current channel. Before its first channel the service hears none. -/
theorem Follows.dropped {connections : ℕ → Connection} {lost : ℕ → Bool} (h : Follows s p)
    (hheard : ¬ s.Unheard) (hdrops : s.drops lost = true)
    (hconnections : ∀ n, (connections n).listening = (s.connections n).listening) :
    ∃ p', Follows (s.without connections lost).handleConnectionIssue p' := by
  have hdue : ∀ c, p.channel = some c → lost c = true ∨ s.subscriptions = [] := by
    intro c hc
    rw [State.drops, h.calm.channel, hc, Option.all_some, Bool.or_eq_true,
      List.isEmpty_iff] at hdrops
    exact hdrops.symm
  have hcalm : Calm (s.without connections lost).released none [] p.busy :=
    h.calm.dropped fun c hc =>
      (hdue c hc).imp_right fun hnil => by cases p <;> simp [Phase.due, hnil]
  have hconducts : (s.without connections lost).Conducts p :=
    without_conducts hconnections h.conducts
  have hup : (s.without connections lost).shuttingDown = false := h.calm.shuttingDown
  have hagain : p.reconnecting = true → (s.without connections lost).released.scheduleReconnect =
      (s.without connections lost).released :=
    fun hr => scheduleReconnect_again (h.reconnecting.trans hr)
  rw [handleConnectionIssue_up hup]
  cases p with
  | waiting =>
    rw [hagain rfl]
    exact ⟨.waiting, hcalm, h.reconnecting, h.timer, trivial⟩
  | settled c => exact ⟨.waiting, hcalm.waiting h.reconnecting⟩
  | preparing e origin =>
    cases origin with
    | moduleInit => exact absurd (h.conducts.2 rfl) hheard
    | reconnectTimer =>
      rw [hagain rfl]
      exact ⟨.preparing e .reconnectTimer, hcalm, h.reconnecting, h.timer, hconducts⟩
  | stranded e =>
    rw [hagain rfl]
    exact ⟨.stranded e, hcalm, h.reconnecting, h.timer, hconducts⟩
  | binding e origin c next =>
    obtain ⟨⟨call, calls, he⟩, hpos, hnext⟩ := h.conducts
    -- a subscription is being bound, so the channel has gone
    have hclosed : ((s.without connections lost).channels c).isOpen = false := by
      rcases hdue c rfl with hlost | hnil
      · simp [State.without, hlost, Channel.lost]
      · rw [hnil] at hnext
        simp at hnext
        omega
    cases origin with
    | moduleInit =>
      refine ⟨.waiting, Calm.waiting ⟨hcalm.shuttingDown, hcalm.channel, hcalm.beyond,
        hcalm.current, hcalm.claimed, fun e' _ => ?_⟩ h.reconnecting⟩
      by_cases hsame : e' = e
      · subst hsame
        have he' : (s.without connections lost).released.threads e' = _ := he
        rw [he']
        exact ⟨(h.calm.current c rfl).1, hclosed⟩
      · exact hcalm.bystanders e' fun heq => hsame (Option.some.inj heq).symm
    | reconnectTimer =>
      rw [hagain rfl]
      exact ⟨.stranded e, hcalm, h.reconnecting, h.timer, c, call, calls, next, he, hclosed⟩

end

/-! ## Setting up -/

section
variable {s : State Payload} {e c : ℕ} {origin : SetupOrigin}

/-- A reconnect that has failed is tried again. -/
theorem Calm.failed (h : Calm (s.setThread e .done) none [] none) :
    Follows (s.setupEnded e .reconnectTimer) .waiting := by
  have hchannel : s.channel = none := h.channel
  have hup : s.shuttingDown = false := h.shuttingDown
  have hended : s.setupEnded e .reconnectTimer =
      { s.setThread e .done with reconnecting := false }.scheduleReconnect := by
    simp only [State.setupEnded, State.setThread, hchannel, hup, Option.isNone_none, Bool.not_false,
      Bool.and_self, if_true]
  rw [hended]
  refine Calm.waiting ?_ rfl
  exact ⟨h.shuttingDown, h.channel, h.beyond, h.current, h.claimed, h.bystanders⟩

theorem Calm.served (h : Calm (s.setThread e .done) (some c) s.subscriptions none)
    (hreconnecting : s.reconnecting = decide (origin = .reconnectTimer))
    (htimer : s.reconnectTimer.isSome = false) :
    Follows ({ s with reconnectAttempt := 0 }.setupEnded e origin) (.settled c) := by
  have hchannel : s.channel = some c := h.channel
  cases origin with
  | moduleInit =>
    exact ⟨⟨h.shuttingDown, h.channel, h.beyond, h.current, h.claimed, h.bystanders⟩,
      hreconnecting, htimer, trivial⟩
  | reconnectTimer =>
    simp only [State.setupEnded, State.setThread, hchannel, Option.isNone_some, Bool.false_and,
      Bool.false_eq_true, if_false]
    exact ⟨⟨h.shuttingDown, rfl, h.beyond, h.current, h.claimed, h.bystanders⟩,
      rfl, htimer, trivial⟩

/-- The subscriptions before `next` are bound, and the loop goes on to it. -/
theorem Calm.bindNext {next : ℕ}
    (h : Calm (s.setThread e .done) (some c) (s.subscriptions.take next) none)
    (he : e < s.nextThread) (hreconnecting : s.reconnecting = decide (origin = .reconnectTimer))
    (htimer : s.reconnectTimer.isSome = false) :
    ∃ p, Follows (s.bindNext e origin next) p := by
  have hchannel : s.channel = some c := h.channel
  cases hnext : s.subscriptions[next]? with
  | none =>
    have hall : s.subscriptions.take next = s.subscriptions :=
      List.take_of_length_le (List.getElem?_eq_none_iff.mp hnext)
    rw [hall] at h
    refine ⟨.settled c, ?_⟩
    simp only [State.bindNext, hnext]
    exact h.served hreconnecting htimer
  | some subscription =>
    obtain ⟨call, calls, hcalls⟩ : ∃ call calls, bindAndConsume subscription = call :: calls :=
      ⟨_, _, rfl⟩
    have htake : s.subscriptions.take (next + 1) = s.subscriptions.take next ++ [subscription] := by
      rw [List.take_add_one, hnext]
      rfl
    have hbind : s.bindNext e origin next =
        (s.setThread e .done).setThread e (.setup origin (.bind c call calls (next + 1))) := by
      simp only [State.bindNext, hnext, hchannel, hcalls, State.setThread, Function.update_idem]
    rw [hbind]
    refine ⟨.binding e origin c (next + 1), ?_, hreconnecting, htimer, ?_, Nat.succ_pos _, ?_⟩
    · refine h.setThread he (fun hne => absurd rfl hne) (fun _ _ _ => by simp) fun d hd => ?_
      simp only [Phase.due, State.setThread, Function.update_self, Thread.awaits,
        awaits_bindAndConsume hcalls, htake, queues_append, Option.some.injEq]
      split
      · exact (zero_add _).symm
      · rfl
    · exact ⟨call, calls, Function.update_self _ _ _⟩
    · exact (List.getElem?_eq_some_iff.mp hnext).1

theorem update_listening (channels : ℕ → Channel Payload) (c d : ℕ) :
    (Function.update channels c { channels c with listening := true } d).isOpen =
      (channels d).isOpen ∧
    (Function.update channels c { channels c with listening := true } d).consumed =
      (channels d).consumed := by
  rw [Function.update_apply]
  split
  · next heq => exact heq ▸ ⟨rfl, rfl⟩
  · exact ⟨rfl, rfl⟩

/-- The listeners are attached and the new channel is the current one; nothing consumes on it. -/
theorem Calm.connected {n : ℕ} {busy : Option ℕ} (h : Calm s none [] busy)
    (hc : c < s.nextChannel) (hopen : (s.channels c).isOpen = true)
    (hconnection : (s.channels c).connection = n) :
    Calm { s with
      connections := Function.update s.connections n { s.connections n with listening := true }
      channels := Function.update s.channels c { s.channels c with listening := true }
      connection := some n
      channel := some c } (some c) [] busy where
  shuttingDown := h.shuttingDown
  channel := rfl
  beyond := h.beyond
  current := by
    intro c' hc'
    cases hc'
    simp only [Function.update_self, hconnection]
    exact ⟨hc, hopen, trivial, trivial⟩
  claimed := by
    intro d hd
    obtain ⟨hopen', hconsumed⟩ := update_listening s.channels c d
    have hclaimed := h.claimed d (hopen' ▸ hd)
    rw [← hconsumed] at hclaimed
    refine hclaimed.trans ?_
    split <;> split <;> rfl
  bystanders := fun e' he' => Bystander.mono (h.bystanders e' he') (Nat.le_refl _)
    fun c' _ => (update_listening s.channels c c').1.trans

theorem bystander_awaits {th : Thread Payload} (h : s.Bystander th) :
    th.awaits s.nextChannel = 0 := by
  unfold State.Bystander at h
  split at h
  · rfl
  · rfl
  · exact if_neg (Nat.ne_of_lt h)
  · exact if_neg (Nat.ne_of_lt h.1)
  · exact h.elim

/-- A channel is created; no execution has heard of it. -/
theorem Calm.created {n : ℕ} {busy : Option ℕ} (h : Calm s none [] busy)
    (hbusy : ∀ e, busy = some e → (s.threads e).awaits s.nextChannel = 0) :
    Calm { s.setChannel s.nextChannel (Channel.created n) with
      nextChannel := s.nextChannel + 1 } none [] busy where
  shuttingDown := h.shuttingDown
  channel := h.channel
  beyond := h.beyond
  current := fun _ hc => by cases hc
  claimed := by
    intro d hd
    simp only [State.setChannel, Function.update_apply] at hd ⊢
    by_cases hnew : d = s.nextChannel
    · have hawaited : s.awaited d = 0 := by
        refine Finset.sum_eq_zero fun e _ => ?_
        rw [hnew]
        by_cases he : busy = some e
        · exact hbusy e he
        · exact bystander_awaits (h.bystanders e he)
      rw [if_pos hnew]
      exact (zero_add _).trans hawaited
    · rw [if_neg hnew] at hd ⊢
      exact h.claimed d hd
  bystanders := by
    intro e' he'
    refine Bystander.mono (h.bystanders e' he') (Nat.le_succ _) fun c' hc' hclosed => ?_
    simp only [State.setChannel, Function.update_of_ne (Nat.ne_of_lt hc')]
    exact hclosed

theorem awaits_preparing {pc : SetupPc} (h : s.Prepares pc) (d : ℕ) :
    (Thread.setup origin pc : Thread Payload).awaits d = 0 := by
  cases pc with
  | bind c call calls next => exact h.elim
  | _ => rfl

theorem awaits_elsewhere {call : ChannelCall} {calls : List ChannelCall} {next d : ℕ}
    (hclosed : (s.channels c).isOpen = false) (hd : (s.channels d).isOpen = true) :
    (Thread.setup origin (.bind c call calls next) : Thread Payload).awaits d = 0 := by
  refine if_neg ?_
  rintro rfl
  rw [hclosed] at hd
  cases hd

theorem conducts_setThread {p : Phase} {th : Thread Payload} (h : s.Conducts p)
    (hne : p.busy ≠ some e) : (s.setThread e th).Conducts p := by
  refine Conducts.mono h rfl rfl (fun _ => ⟨rfl, rfl, id⟩) (fun _ => rfl) fun e' he' => ?_
  refine Function.update_of_ne ?_ _ _
  rintro rfl
  exact hne he'

/-- A setup that has no current channel ends. -/
theorem Calm.stopped (h : Calm s none [] (some e)) (he : e < s.nextThread)
    (hawaits : ∀ d, (s.channels d).isOpen = true → (s.threads e).awaits d = 0) :
    Calm (s.setThread e .done) none [] none := by
  refine h.setThread he (fun _ => trivial) (fun e' hne _ heq => ?_) fun d hd => ?_
  · exact hne (Option.some.inj heq).symm
  · rw [hawaits d hd]
    rfl

theorem Calm.prepares (h : Calm s none [] (some e)) (he : e < s.nextThread)
    (hawaits : ∀ d, (s.threads e).awaits d = 0) {pc : SetupPc} (hpc : s.Prepares pc) :
    Calm (s.setThread e (.setup origin pc)) none [] (some e) := by
  refine h.setThread he (fun hne => absurd rfl hne) (fun _ _ hne => hne) fun d _ => ?_
  rw [hawaits, awaits_preparing hpc]

variable {s' : State Payload}

theorem preparing_follows {pc : SetupPc} {o : Outcome} (hs : Follows s (.preparing e origin))
    (he : s.threads e = .setup origin pc) (hpc : s.Prepares pc)
    (hguard : keepsUp s (.run e o) = true) (h : s.advanceSetup e origin pc o = some s') :
    ∃ p', Follows s' p' := by
  have hcalm : Calm s none [] (some e) := hs.calm
  have hlt : e < s.nextThread := hcalm.lt_nextThread (by rw [he]; simp)
  have hawaits : ∀ d, (s.threads e).awaits d = 0 := fun d => by rw [he, awaits_preparing hpc]
  have hunheard := hs.conducts.2
  have hdone := hcalm.stopped hlt fun d _ => hawaits d
  cases o with
  | fails =>
    have horigin : origin ≠ .moduleInit := by
      cases pc with
      | bind c call calls next => exact hpc.elim
      | _ => simpa [keepsUp, he] using hguard
    simp only [State.advanceSetup, Option.some.injEq] at h
    cases origin with
    | moduleInit => exact absurd rfl horigin
    | reconnectTimer => exact ⟨.waiting, h ▸ hdone.failed⟩
  | ok =>
    cases pc with
    | connect =>
      cases h
      have hnext : Calm (s.setThread e (.setup origin (.createConfirmChannel s.nextConnection)))
          none [] (some e) := hcalm.prepares hlt hawaits trivial
      refine ⟨.preparing e origin, ?_, hs.reconnecting, hs.timer,
        ⟨_, Function.update_self _ _ _, trivial⟩, fun horigin => ⟨(hunheard horigin).1, ?_⟩⟩
      · exact ⟨hnext.shuttingDown, hnext.channel, hnext.beyond, (fun _ hc => by cases hc),
          hnext.claimed, hnext.bystanders⟩
      · intro n
        simp only [State.setThread, Function.update_apply]
        split
        · rfl
        · exact (hunheard horigin).2 n
    | createConfirmChannel n =>
      simp only [State.advanceSetup] at h
      split at h <;> cases h
      have hcreated := hcalm.created (n := n) fun e' he' => by
        rw [← Option.some.inj he', hawaits]
      have hfresh : ((s.setChannel s.nextChannel (Channel.created n)).channels
          s.nextChannel).connection = n := by
        simp only [State.setChannel, Function.update_self, Channel.created]
      have hpc' : State.Prepares { s.setChannel s.nextChannel (Channel.created n) with
          nextChannel := s.nextChannel + 1 } (.assertEvents n s.nextChannel) :=
        ⟨Nat.lt_succ_self _, hfresh⟩
      refine ⟨.preparing e origin, hcreated.prepares hlt hawaits hpc', hs.reconnecting, hs.timer,
        ⟨_, Function.update_self _ _ _, hpc'⟩, fun horigin => ⟨fun c => ?_, (hunheard horigin).2⟩⟩
      simp only [State.setThread, State.setChannel, Function.update_apply]
      split
      · rfl
      · exact (hunheard horigin).1 c
    | assertEvents n c =>
      simp only [State.advanceSetup] at h
      split at h <;> cases h
      exact ⟨.preparing e origin, hcalm.prepares hlt hawaits hpc, hs.reconnecting, hs.timer,
        ⟨_, Function.update_self _ _ _, hpc⟩, hunheard⟩
    | assertDeadLetter n c =>
      simp only [State.advanceSetup] at h
      split at h <;> cases h
      next hopen =>
      exact (hdone.connected hpc.1 hopen hpc.2).bindNext hlt hs.reconnecting hs.timer
    | bind c call calls next => exact hpc.elim

theorem binding_follows {call : ChannelCall} {calls : List ChannelCall} {next : ℕ} {o : Outcome}
    (hs : Follows s (.binding e origin c next))
    (he : s.threads e = .setup origin (.bind c call calls next))
    (hguard : keepsUp s (.run e o) = true)
    (h : s.advanceSetup e origin (.bind c call calls next) o = some s') : ∃ p', Follows s' p' := by
  have hcalm : Calm s (some c) (s.subscriptions.take next) (some e) := hs.calm
  have hlt : e < s.nextThread := hcalm.lt_nextThread (by rw [he]; simp)
  have hopen := (hcalm.current c rfl).2.1
  cases o with
  | fails => simp [keepsUp, he, hopen] at hguard
  | ok =>
    simp only [State.advanceSetup, hopen, if_true] at h
    cases calls with
    | nil =>
      cases h
      have hbound : Calm ((s.setChannel c (call.apply (s.channels c))).setThread e .done) (some c)
          (s.subscriptions.take next) none := by
        refine hcalm.advance hlt (fun _ => trivial) (fun e' hne _ heq => ?_) fun d => ?_
        · exact hne (Option.some.inj heq).symm
        · rw [he]
          simp [Thread.awaits, eq_comm]
      exact hbound.bindNext hlt hs.reconnecting hs.timer
    | cons call' calls' =>
      cases h
      refine ⟨.binding e origin c next, ?_, hs.reconnecting, hs.timer,
        ⟨call', calls', Function.update_self _ _ _⟩, hs.conducts.2⟩
      refine hcalm.advance hlt (fun hne => absurd rfl hne) (fun _ _ hne => hne) fun d => ?_
      rw [he]
      simp only [Thread.awaits, List.map_cons, List.sum_cons, eq_comm (a := d)]
      split
      · rfl
      · rfl

/-- Setups go on as the phases say. -/
theorem advanceSetup_follows {p : Phase} {pc : SetupPc} {o : Outcome} (hs : Follows s p)
    (he : s.threads e = .setup origin pc) (hguard : keepsUp s (.run e o) = true)
    (h : s.advanceSetup e origin pc o = some s') : ∃ p', Follows s' p' := by
  have hlt : e < s.nextThread := hs.calm.lt_nextThread (by rw [he]; simp)
  by_cases hbusy : p.busy = some e
  · cases p with
    | waiting => cases hbusy
    | settled c => cases hbusy
    | preparing e' origin' =>
      cases hbusy
      obtain ⟨⟨pc', he', hpc⟩, -⟩ := hs.conducts
      obtain ⟨rfl, rfl⟩ := Thread.setup.inj (he.symm.trans he')
      exact preparing_follows hs he hpc hguard h
    | binding e' origin' c next =>
      cases hbusy
      obtain ⟨⟨call, calls, he'⟩, -⟩ := hs.conducts
      obtain ⟨rfl, rfl⟩ := Thread.setup.inj (he.symm.trans he')
      exact binding_follows hs he hguard h
    | stranded e' =>
      cases hbusy
      obtain ⟨c, call, calls, next, he', hclosed⟩ := hs.conducts
      obtain ⟨rfl, rfl⟩ := Thread.setup.inj (he.symm.trans he')
      cases o with
      | ok => simp [State.advanceSetup, hclosed] at h
      | fails =>
        simp only [State.advanceSetup, Option.some.injEq] at h
        have hcalm : Calm s none [] (some e) := hs.calm
        have hdone : Calm (s.setThread e .done) none [] none := hcalm.stopped hlt fun d hd => by
          rw [he, awaits_elsewhere hclosed hd]
        exact ⟨.waiting, h ▸ hdone.failed⟩
  · -- the setup of `onModuleInit`, whose channel is lost
    have hth := hs.calm.bystanders e hbusy
    rw [he] at hth
    cases origin with
    | reconnectTimer => exact hth.elim
    | moduleInit =>
      cases pc with
      | bind c call calls next =>
        obtain ⟨-, hclosed⟩ := hth
        cases o with
        | ok => simp [State.advanceSetup, hclosed] at h
        | fails =>
          cases h
          refine ⟨p, ?_, hs.reconnecting, hs.timer, conducts_setThread hs.conducts hbusy⟩
          refine hs.calm.setThread hlt (fun _ => trivial) (fun _ _ hne => hne) fun d hd => ?_
          rw [he, awaits_elsewhere hclosed hd]
          rfl
      | _ => exact hth.elim

end

end Bumpa.Broker
