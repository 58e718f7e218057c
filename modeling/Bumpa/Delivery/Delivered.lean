import Bumpa.Delivery.Relay

/-! # What becomes of a published event

`Relays` says what a step of the whole is in terms of the outbox, the server and the operation.
From it: a row that is PUBLISHED is done, or its message is held by the server, or it was dropped
where no queue was bound, or it was lost to a crossing ack (`published_delivered`); and the operation
is called with events that were committed, and no others (`reaches_handler`).

What the operation has to guarantee is `Handler.Lawful`: an execution that resolves has done its
event, and what is done stays done.
-/
namespace Bumpa.Delivery
open Bumpa.Events Bumpa.Transition
open Broker.Redelivery (Fleet FleetLabel fleetStep fleetStep_tracked fleetStep_genuine
  fleetStep_succeeded fleetStep_handle fleetStep_holds fleetStep_history fleetStep_grows
  fleetStep_published initial_tracked initial_genuine Tracked)
open Broker (Content Message)
set_option autoImplicit false

variable {Payload σ ℓ : Type} {cfg : RelayConfig Payload} {H : Handler Payload σ ℓ}

/-- `For s n payload`: execution `n` was called with the event; `Done s payload`: it is dealt with. -/
structure Handler.Lawful (H : Handler Payload σ ℓ) where
  Inv : σ → Prop
  For : σ → ℕ → Payload → Prop
  Done : σ → Payload → Prop
  initial : Inv H.initial
  inv : ∀ {s l s'}, Inv s → H.step s l = some s' → Inv s'
  called : ∀ {s l s' payload}, Inv s → H.start payload = some l → H.step s l = some s' →
    For s' (H.next s) payload ∧ H.next s < H.next s'
  stays : ∀ {s l s' n payload}, Inv s → H.step s l = some s' → For s n payload → For s' n payload
  next : ∀ {s l s'}, Inv s → H.step s l = some s' → H.next s ≤ H.next s'
  settles : ∀ {s l s' n o}, Inv s → H.step s l = some s' → H.settles s l = some (n, o) →
    n < H.next s ∧ (o = .ok → ∀ payload, For s n payload → Done s' payload)
  done : ∀ {s l s' payload}, Inv s → H.step s l = some s' → Done s payload → Done s' payload

/-! ## One step of the whole -/

/-- The label is one of the outbox, and no commit of another event than its id stands for. -/
def RelayLabel.ofOutbox (cfg : RelayConfig Payload) : RelayLabel Payload ℓ →
    Option (Outbox.Label Payload)
  | .commit id => some (.commit id (cfg.event id))
  | .outbox (.commit _ _) => none
  | .outbox l => some l
  | _ => none

/-- The server takes in the event of this row, and there is no queue for it. -/
def Drops (cfg : RelayConfig Payload) (id : ReadableId)
    (x : Move (Relay Payload σ) (RelayLabel Payload ℓ)) : Prop :=
  ∃ l, x.label.ofOutbox cfg = some l ∧ (l.accepted x.source.outbox).map (·.id) = some id ∧
    (x.source.bound && cfg.routes (cfg.event id)) = false

/-- The message is lost to an ack for another one. -/
def Loses (o : ℕ) (x : Move (Relay Payload σ) (RelayLabel Payload ℓ)) : Prop :=
  ∃ l, x.label = .fleet l ∧ Broker.Redelivery.Loses o ⟨x.source.fleet, l, x.target.fleet⟩

inductive Relays (cfg : RelayConfig Payload) (H : Handler Payload σ ℓ) (r r' : Relay Payload σ) :
    RelayLabel Payload ℓ → Prop
  | hands {l : RelayLabel Payload ℓ} (l' : Outbox.Label Payload) (label : l.ofOutbox cfg = some l')
      (own : Outbox.commits cfg.event r.outbox l')
      (step : Outbox.step cfg.options r.outbox l' = some r'.outbox)
      (whole : r' = { r with outbox := r'.outbox }.receive cfg (l'.accepted r.outbox)) :
      Relays cfg H r r' l
  | serves (l : FleetLabel Payload) (step : fleetStep r.fleet l = some r'.fleet)
      (unpublished : ∀ queue message, l ≠ .publish queue message)
      (undelivered : ∀ p c consumer i copy payload, l = .run p (.deliver c consumer i) →
        r.fleet.ready[i]? = some copy → copy.message.content ≠ .json payload)
      (ended : ∀ p e o, l = .run p (.service (.run e o)) → r.ended p e o = true)
      (outbox : r'.outbox = r.outbox) (handler : r'.handler = r.handler)
      (calls : r'.calls = r.calls) (results : r'.results = r.results) :
      Relays cfg H r r' (.fleet l)
  | calls (p c consumer i : ℕ) (copy : Broker.Redelivery.Copy Payload) (payload : Payload) (l : ℓ)
      (ready : r.fleet.ready[i]? = some copy) (content : copy.message.content = .json payload)
      (start : H.start payload = some l) (step : H.step r.handler l = some r'.handler)
      (fleet : fleetStep r.fleet (.run p (.deliver c consumer i)) = some r'.fleet)
      (outbox : r'.outbox = r.outbox)
      (calls : r'.calls = Function.update r.calls p (Function.update (r.calls p)
        (r.fleet.services p).nextThread (some (H.next r.handler))))
      (results : r'.results = r.results) : Relays cfg H r r' (.fleet (.run p (.deliver c consumer i)))
  | works (l : ℓ) (other : H.starts l = false) (step : H.step r.handler l = some r'.handler)
      (outbox : r'.outbox = r.outbox) (fleet : r'.fleet = r.fleet) (calls : r'.calls = r.calls)
      (results : r'.results = (H.settles r.handler l).elim r.results fun x =>
        Function.update r.results x.1 (some x.2)) : Relays cfg H r r' (.handler l)

section Step
variable {r r' : Relay Payload σ}

/-- Only the queue of the server has what the server takes in. -/
theorem receive_eq (cfg : RelayConfig Payload) (r : Relay Payload σ)
    (copy : Option (Outbox.OutboxRecord Payload)) : r.receive cfg copy = r ∨
      ∃ message, r.receive cfg copy =
        { r with fleet := r.fleet.publish cfg.subscription.queue message } := by
  cases copy with
  | none => exact Or.inl rfl
  | some copy =>
    simp only [Relay.receive, Relay.publish]
    split
    · exact Or.inr ⟨_, rfl⟩
    · exact Or.inl rfl

@[simp] theorem receive_outbox (r : Relay Payload σ) (copy : Option (Outbox.OutboxRecord Payload)) :
    (r.receive cfg copy).outbox = r.outbox := by
  rcases receive_eq cfg r copy with heq | ⟨message, heq⟩ <;> rw [heq]

@[simp] theorem receive_handler (r : Relay Payload σ) (copy : Option (Outbox.OutboxRecord Payload)) :
    (r.receive cfg copy).handler = r.handler := by
  rcases receive_eq cfg r copy with heq | ⟨message, heq⟩ <;> rw [heq]

theorem hand_relays {l : RelayLabel Payload ℓ} {l' : Outbox.Label Payload}
    (hlabel : l.ofOutbox cfg = some l') (hown : Outbox.commits cfg.event r.outbox l')
    (h : r.hand cfg l' = some r') : Relays cfg H r r' l := by
  obtain ⟨outbox, hstep, rfl⟩ := Option.map_eq_some_iff.mp h
  exact .hands l' hlabel hown (by rw [receive_outbox]; exact hstep) (by rw [receive_outbox])

theorem serve_relays {l : FleetLabel Payload} (h : r.serve cfg H l = some r') :
    Relays cfg H r r' (.fleet l) := by
  have hserves : ∀ {fleet bound}, fleetStep r.fleet l = some fleet →
      (∀ queue message, l ≠ .publish queue message) →
      (∀ p c consumer i copy payload, l = .run p (.deliver c consumer i) →
        r.fleet.ready[i]? = some copy → copy.message.content ≠ .json payload) →
      (∀ p e o, l = .run p (.service (.run e o)) → r.ended p e o = true) →
      r' = { r with fleet := fleet, bound := bound } → Relays cfg H r r' (.fleet l) := by
    rintro fleet bound hstep hpublish hdeliver hended rfl
    exact .serves l hstep hpublish hdeliver hended rfl rfl rfl rfl
  cases l with
  | publish queue message => cases h
  | expire i queue =>
    obtain ⟨fleet, hstep, rfl⟩ := Option.map_eq_some_iff.mp h
    exact hserves hstep (by simp) (by simp) (by simp) rfl
  | crash p =>
    obtain ⟨fleet, hstep, rfl⟩ := Option.map_eq_some_iff.mp h
    exact hserves hstep (by simp) (by simp) (by simp) rfl
  | run p l =>
    cases l with
    | deliver c consumer i =>
      simp only [Relay.serve, Relay.deliver] at h
      split at h
      · next copy fleet hcopy hfleet =>
        split at h
        · next hcontent =>
          cases h
          refine hserves hfleet (by simp) ?_ (by simp) rfl
          rintro p' c' consumer' i' copy' payload hlabel hcopy'
          cases hlabel
          rw [hcopy, Option.some.injEq] at hcopy'
          rw [← hcopy', hcontent]
          simp
        · next payload hcontent =>
          obtain ⟨handler, hhandler, rfl⟩ := Option.map_eq_some_iff.mp h
          obtain ⟨l, hstart, hstep⟩ := Option.bind_eq_some_iff.mp hhandler
          exact .calls p c consumer i copy payload l hcopy hcontent hstart hstep hfleet rfl rfl rfl
      · cases h
    | unschedulable e =>
      simp only [Relay.serve] at h
      split at h
      · obtain ⟨fleet, hstep, rfl⟩ := Option.map_eq_some_iff.mp h
        exact hserves hstep (by simp) (by simp) (by simp) rfl
      · cases h
    | service l =>
      cases l with
      | run e o =>
        simp only [Relay.serve] at h
        split at h
        · next hended =>
          obtain ⟨fleet, hstep, rfl⟩ := Option.map_eq_some_iff.mp h
          refine hserves hstep (by simp) (by simp) ?_ rfl
          rintro p' e' o' ⟨⟩
          exact hended
        · cases h
      | subscribe subscription =>
        simp only [Relay.serve] at h
        split at h
        · obtain ⟨fleet, hstep, rfl⟩ := Option.map_eq_some_iff.mp h
          exact hserves hstep (by simp) (by simp) (by simp) rfl
        · cases h
      | _ =>
        obtain ⟨fleet, hstep, rfl⟩ := Option.map_eq_some_iff.mp h
        exact hserves hstep (by simp) (by simp) (by simp) rfl
    | _ =>
      obtain ⟨fleet, hstep, rfl⟩ := Option.map_eq_some_iff.mp h
      exact hserves hstep (by simp) (by simp) (by simp) rfl

/-- The operation takes a step, or it is left alone. -/
theorem Relays.handler_step {l : RelayLabel Payload ℓ} (h : Relays cfg H r r' l) :
    r'.handler = r.handler ∨ ∃ l', H.step r.handler l' = some r'.handler := by
  cases h with
  | hands l' label own step whole => exact Or.inl (by rw [whole, receive_handler])
  | serves l step unpublished undelivered ended outbox handler calls results => exact Or.inl handler
  | calls p c consumer i copy payload l ready content start step fleet outbox calls results =>
    exact Or.inr ⟨l, step⟩
  | works l other step outbox fleet calls results => exact Or.inr ⟨l, step⟩

theorem relayStep_relays {l : RelayLabel Payload ℓ} (h : relayStep cfg H r l = some r') :
    Relays cfg H r r' l := by
  cases l with
  | commit id => exact hand_relays rfl rfl h
  | fleet l => exact serve_relays h
  | handler l =>
    simp only [relayStep] at h
    split at h
    · cases h
    · next hother =>
      obtain ⟨handler, hstep, rfl⟩ := Option.map_eq_some_iff.mp h
      exact .works l (Bool.eq_false_iff.mpr hother) hstep rfl rfl rfl rfl
  | outbox l =>
    cases l with
    | commit id payload => cases h
    | _ => exact hand_relays rfl trivial h

end Step

/-! ## What every step keeps -/

/-- The outbox tells the truth, the server has what it was given, and a handler works on the event of
its delivery. -/
structure Linked (cfg : RelayConfig Payload) (law : H.Lawful) (r : Relay Payload σ) : Prop where
  told : Outbox.Told cfg.options cfg.event r.outbox
  tracked : ∀ p, Tracked (r.fleet.system p)
  genuine : r.fleet.Genuine
  inv : law.Inv r.handler
  published : ∀ entry ∈ r.fleet.published, ∃ id ∈ r.outbox.world.accepted,
    entry = (cfg.subscription.queue, cfg.message (cfg.event id))
  calls : ∀ p e d n, (r.fleet.services p).threads e = .handle d → r.calls p e = some n →
    ∃ payload, d.message.content = .json payload ∧ law.For r.handler n payload ∧
      (r.results n = some .ok → law.Done r.handler payload)
  fresh : ∀ n, (r.results n).isSome → n < H.next r.handler
  succeeded : ∀ o, r.fleet.Succeeded o → ∃ queue payload,
    r.fleet.Published o queue (.json payload) ∧ law.Done r.handler payload

section Linked
variable {r r' : Relay Payload σ} {law : H.Lawful}

theorem publish_step (cfg : RelayConfig Payload) (f : Fleet Payload) (payload : Payload) :
    fleetStep f (.publish cfg.subscription.queue (cfg.message payload)) =
      some (f.publish cfg.subscription.queue (cfg.message payload)) := rfl

/-- The row that is handed over was committed with the event of its id. -/
theorem accepted_payload {s : Outbox.State Payload} (hs : Outbox.Told cfg.options cfg.event s)
    {l : Outbox.Label Payload} {copy : Outbox.OutboxRecord Payload}
    (h : l.accepted s = some copy) : copy.payload = cfg.event copy.id := by
  cases l with
  | run e o => exact (hs.threads e).records copy (Outbox.accepted_holding h).2
  | _ => cases h

/-- What the broker has taken in is what it had taken in before and the row that is handed over. -/
theorem step_accepts {options : Outbox.OutboxModuleOptions} {s s' : Outbox.State Payload}
    {l : Outbox.Label Payload} (h : Outbox.step options s l = some s') :
    s'.world.accepted = s.world.accepted ++ ((l.accepted s).map (·.id)).toList := by
  have hnil : s.world.accepted = s.world.accepted ++ [] := (List.append_nil _).symm
  cases l with
  | run e o =>
    obtain ⟨th', hadv, -⟩ := Outbox.step_run h
    exact Outbox.advance_accepts hadv
  | commit id payload =>
    simp only [Outbox.step] at h
    split at h <;> cases h
    exact hnil
  | _ =>
    cases h
    exact hnil

theorem Linked.fleet_published (hs : Linked cfg law r) {o : ℕ} {queue : String}
    {content : Content Payload} (h : r.fleet.Published o queue content) :
    ∃ id ∈ r.outbox.world.accepted, queue = cfg.subscription.queue ∧
      content = .json (cfg.event id) := by
  obtain ⟨message, hget, rfl⟩ := h
  obtain ⟨id, hid, hentry⟩ := hs.published _ (List.mem_of_getElem? hget)
  obtain ⟨rfl, rfl⟩ := Prod.mk.inj hentry
  exact ⟨id, hid, rfl, rfl⟩

theorem published_mono {f f' : Fleet Payload} {done : Payload → Prop}
    (hgrows : f.published <+: f'.published) {o : ℕ}
    (h : ∃ queue payload, f.Published o queue (.json payload) ∧ done payload) :
    ∃ queue payload, f'.Published o queue (.json payload) ∧ done payload := by
  obtain ⟨queue, payload, hpublished, hdone⟩ := h
  exact ⟨queue, payload, hpublished.mono hgrows, hdone⟩

/-- The handler that has resolved has done the event of its delivery. -/
theorem Linked.resolved (hs : Linked cfg law r) {p e : ℕ} {d : Broker.Delivery Payload}
    (hd : (r.fleet.services p).threads e = .handle d) (hended : r.ended p e .ok = true) :
    ∃ payload, d.message.content = .json payload ∧ law.Done r.handler payload := by
  simp only [Relay.ended, hd, Option.any_eq_true, decide_eq_true_eq] at hended
  obtain ⟨n, hcall, hresult⟩ := hended
  obtain ⟨payload, hcontent, -, hdone⟩ := hs.calls p e d n hd hcall
  exact ⟨payload, hcontent, hdone hresult⟩

theorem hands_linked {l : Outbox.Label Payload} (hs : Linked cfg law r)
    (hown : Outbox.commits cfg.event r.outbox l)
    (hstep : Outbox.step cfg.options r.outbox l = some r'.outbox)
    (hwhole : r' = { r with outbox := r'.outbox }.receive cfg (l.accepted r.outbox)) :
    Linked cfg law r' := by
  have htold := Outbox.step_told hs.told hown hstep
  have hnow := step_accepts hstep
  have hold : ∀ entry ∈ r.fleet.published, ∃ id ∈ r'.outbox.world.accepted,
      entry = (cfg.subscription.queue, cfg.message (cfg.event id)) := by
    intro entry hentry
    obtain ⟨id, hid, heq⟩ := hs.published entry hentry
    exact ⟨id, by rw [hnow]; exact List.mem_append_left _ hid, heq⟩
  have hkept : r' = { r with outbox := r'.outbox } → Linked cfg law r' := by
    intro heq
    rw [heq]
    exact ⟨htold, hs.tracked, hs.genuine, hs.inv, hold, hs.calls, hs.fresh, hs.succeeded⟩
  cases haccepted : l.accepted r.outbox with
  | none =>
    rw [haccepted] at hwhole
    exact hkept hwhole
  | some copy =>
    rw [haccepted, Option.map_some, Option.toList_some] at hnow
    rw [haccepted, Relay.receive, Relay.publish] at hwhole
    split at hwhole
    · have hpublish := publish_step cfg r.fleet copy.payload
      rw [hwhole]
      refine ⟨htold, fleetStep_tracked hs.tracked hpublish,
        fleetStep_genuine hs.tracked hs.genuine hpublish, hs.inv, fun entry hentry => ?_, hs.calls,
        hs.fresh, fun o ho => published_mono (fleetStep_grows hpublish) (hs.succeeded o ho)⟩
      rcases List.mem_append.mp hentry with hmem | hnew
      · exact hold entry hmem
      · refine ⟨copy.id, ?_, ?_⟩
        · change copy.id ∈ r'.outbox.world.accepted
          rw [hnow]
          exact List.mem_append_right _ (.head _)
        · rw [List.mem_singleton.mp hnew, accepted_payload hs.told haccepted]
    · exact hkept hwhole

theorem serves_published {l : FleetLabel Payload} {f f' : Fleet Payload}
    (h : fleetStep f l = some f') (hl : ∀ queue message, l ≠ .publish queue message) :
    f'.published = f.published :=
  (fleetStep_published h).resolve_right fun ⟨queue, message, heq, _⟩ => hl queue message heq

theorem serves_linked {l : FleetLabel Payload} (hs : Linked cfg law r)
    (hstep : fleetStep r.fleet l = some r'.fleet)
    (hunpublished : ∀ queue message, l ≠ .publish queue message)
    (hundelivered : ∀ p c consumer i copy payload, l = .run p (.deliver c consumer i) →
      r.fleet.ready[i]? = some copy → copy.message.content ≠ .json payload)
    (hended : ∀ p e o, l = .run p (.service (.run e o)) → r.ended p e o = true)
    (houtbox : r'.outbox = r.outbox) (hhandler : r'.handler = r.handler)
    (hcalls : r'.calls = r.calls) (hresults : r'.results = r.results) : Linked cfg law r' := by
  have hpublished := serves_published hstep hunpublished
  refine ⟨houtbox ▸ hs.told, fleetStep_tracked hs.tracked hstep,
    fleetStep_genuine hs.tracked hs.genuine hstep, hhandler ▸ hs.inv, ?_, ?_, ?_, ?_⟩
  · rw [hpublished, houtbox]
    exact hs.published
  · intro p e d n hd hn
    rw [hcalls] at hn
    rw [hhandler, hresults]
    rcases fleetStep_handle hstep hd with ⟨hold, -⟩ | ⟨c, consumer, i, copy, event, rfl, -, hi, -, -, hjson⟩
    · exact hs.calls p e d n hold hn
    · exact absurd hjson (hundelivered p c consumer i copy event rfl hi)
  · rw [hresults, hhandler]
    exact hs.fresh
  · intro o ho
    refine published_mono (fleetStep_grows hstep) ?_
    rw [hhandler]
    rcases fleetStep_succeeded hs.tracked hs.genuine hstep ho with hold | ⟨p, e, d, rfl, hd, hmessage⟩
    · exact hs.succeeded o hold
    · obtain ⟨payload, hcontent, hdone⟩ := hs.resolved hd (hended p e .ok rfl)
      exact ⟨d.queue, payload, hcontent ▸ hmessage, hdone⟩

/-- The execution that is called has a number of its own. -/
theorem calls_linked {p c consumer i : ℕ} {copy : Broker.Redelivery.Copy Payload}
    {payload : Payload} {l : ℓ} (hs : Linked cfg law r) (hi : r.fleet.ready[i]? = some copy)
    (hjson : copy.message.content = .json payload) (hstart : H.start payload = some l)
    (hstep : H.step r.handler l = some r'.handler)
    (hfleet : fleetStep r.fleet (.run p (.deliver c consumer i)) = some r'.fleet)
    (houtbox : r'.outbox = r.outbox)
    (hcalls : r'.calls = Function.update r.calls p (Function.update (r.calls p)
      (r.fleet.services p).nextThread (some (H.next r.handler))))
    (hresults : r'.results = r.results) : Linked cfg law r' := by
  obtain ⟨hfor, hnext⟩ := law.called hs.inv hstart hstep
  have hkept : ∀ {p' e d n}, (r.fleet.services p').threads e = .handle d →
      r.calls p' e = some n → ∃ payload, d.message.content = .json payload ∧
        law.For r'.handler n payload ∧ (r'.results n = some .ok → law.Done r'.handler payload) := by
    intro p' e d n hd hn
    obtain ⟨payload', hcontent, hfor', hdone⟩ := hs.calls p' e d n hd hn
    refine ⟨payload', hcontent, law.stays hs.inv hstep hfor', fun hok => ?_⟩
    rw [hresults] at hok
    exact law.done hs.inv hstep (hdone hok)
  refine ⟨houtbox ▸ hs.told, fleetStep_tracked hs.tracked hfleet,
    fleetStep_genuine hs.tracked hs.genuine hfleet, law.inv hs.inv hstep, ?_, ?_, ?_, ?_⟩
  · rw [serves_published hfleet (by simp), houtbox]
    exact hs.published
  · intro p' e d n hd hn
    rw [hcalls] at hn
    rcases fleetStep_handle hfleet hd with
      ⟨hold, hfresh⟩ | ⟨c', consumer', i', copy', event, hl, he, hi', -, hd', -⟩
    · by_cases hp : p' = p
      · subst hp
        have he := hfresh c consumer i copy payload rfl hi hjson
        rw [Function.update_self, Function.update_of_ne he] at hn
        exact hkept hold hn
      · rw [Function.update_of_ne hp] at hn
        exact hkept hold hn
    · cases hl
      rw [hi, Option.some.injEq] at hi'
      rw [Function.update_self, he, Function.update_self, Option.some.injEq] at hn
      refine ⟨payload, by rw [hd', ← hi', hjson], hn ▸ hfor, fun hok => ?_⟩
      rw [hresults] at hok
      have hlt := hs.fresh n (by rw [hok]; rfl)
      omega
  · intro n hn
    rw [hresults] at hn
    exact (hs.fresh n hn).trans hnext
  · intro o ho
    refine published_mono (fleetStep_grows hfleet) ?_
    rcases fleetStep_succeeded hs.tracked hs.genuine hfleet ho with hold | ⟨p', e, d, hl, -⟩
    · obtain ⟨queue, payload', hmessage, hdone⟩ := hs.succeeded o hold
      exact ⟨queue, payload', hmessage, law.done hs.inv hstep hdone⟩
    · cases hl

theorem works_linked {l : ℓ} (hs : Linked cfg law r) (hstep : H.step r.handler l = some r'.handler)
    (houtbox : r'.outbox = r.outbox) (hfleet : r'.fleet = r.fleet) (hcalls : r'.calls = r.calls)
    (hresults : r'.results = (H.settles r.handler l).elim r.results fun x =>
      Function.update r.results x.1 (some x.2)) : Linked cfg law r' := by
  have hnext := law.next hs.inv hstep
  refine ⟨houtbox ▸ hs.told, hfleet ▸ hs.tracked, hfleet ▸ hs.genuine, law.inv hs.inv hstep, ?_, ?_,
    ?_, ?_⟩
  · rw [hfleet, houtbox]
    exact hs.published
  · intro p e d n hd hn
    rw [hfleet] at hd
    rw [hcalls] at hn
    obtain ⟨payload, hcontent, hfor, hdone⟩ := hs.calls p e d n hd hn
    refine ⟨payload, hcontent, law.stays hs.inv hstep hfor, fun hok => ?_⟩
    rw [hresults] at hok
    cases hsettles : H.settles r.handler l with
    | none =>
      rw [hsettles] at hok
      exact law.done hs.inv hstep (hdone hok)
    | some x =>
      rw [hsettles, Option.elim_some, Function.update_apply] at hok
      split at hok
      · next hx =>
        exact (law.settles hs.inv hstep hsettles).2 (Option.some.inj hok) payload (hx ▸ hfor)
      · exact law.done hs.inv hstep (hdone hok)
  · intro n hn
    rw [hresults] at hn
    cases hsettles : H.settles r.handler l with
    | none =>
      rw [hsettles] at hn
      exact (hs.fresh n hn).trans_le hnext
    | some x =>
      rw [hsettles, Option.elim_some, Function.update_apply] at hn
      split at hn
      · next hx =>
        rw [hx]
        exact ((law.settles hs.inv hstep hsettles).1).trans_le hnext
      · exact (hs.fresh n hn).trans_le hnext
  · intro o ho
    rw [hfleet] at ho ⊢
    obtain ⟨queue, payload, hmessage, hdone⟩ := hs.succeeded o ho
    exact ⟨queue, payload, hmessage, law.done hs.inv hstep hdone⟩

theorem step_linked {l : RelayLabel Payload ℓ} (hs : Linked cfg law r)
    (h : Relays cfg H r r' l) : Linked cfg law r' := by
  cases h with
  | hands l' label own step whole => exact hands_linked hs own step whole
  | serves l step unpublished undelivered ended outbox handler calls results =>
    exact serves_linked hs step unpublished undelivered ended outbox handler calls results
  | calls p c consumer i copy payload l ready content start step fleet outbox calls results =>
    exact calls_linked hs ready content start step fleet outbox calls results
  | works l other step outbox fleet calls results =>
    exact works_linked hs step outbox fleet calls results

theorem initial_linked (cfg : RelayConfig Payload) (law : H.Lawful) :
    Linked cfg law (Relay.initial H) where
  told := Outbox.initial_told cfg.options cfg.event
  tracked := initial_tracked
  genuine := initial_genuine
  inv := law.initial
  published := List.forall_mem_nil _
  calls := fun _ _ _ _ _ hn => by cases hn
  fresh := fun _ hn => by cases hn
  succeeded := fun _ ho => by cases ho

theorem reaches_linked {tr : List (Move (Relay Payload σ) (RelayLabel Payload ℓ))}
    (h : RelayRuns cfg H tr r) (law : H.Lawful) : Linked cfg law r :=
  Run.invariant (Linked cfg law) (fun _ _ _ hs hstep => step_linked hs (relayStep_relays hstep)) h
    (initial_linked cfg law)

/-- Rows come from commits, and none is deleted. -/
theorem relay_rows {law : H.Lawful} {l : RelayLabel Payload ℓ} (hs : Linked cfg law r)
    (h : relayStep cfg H r l = some r') (id : ReadableId) :
    (r'.outbox.world.rows.row id).isSome ↔ (r.outbox.world.rows.row id).isSome ∨ l = .commit id := by
  have hrelays := relayStep_relays h
  cases hrelays with
  | hands l' label own step whole =>
    rw [Outbox.step_row hs.told step]
    refine or_congr_right ?_
    cases l with
    | commit id' =>
      cases label
      simp
    | outbox l =>
      cases l <;> cases label <;> simp
    | _ => cases label
  | serves l step unpublished undelivered ended outbox handler calls results =>
    rw [outbox]
    simp
  | calls p c consumer i copy payload l ready content start step fleet outbox calls results =>
    rw [outbox]
    simp
  | works l other step outbox fleet calls results =>
    rw [outbox]
    simp

end Linked

/-! ## No event is lost -/

/-- The event is a message that the server holds, or a handler has resolved with it, or a step has
lost it; or it was dropped. -/
def Accounted (cfg : RelayConfig Payload)
    (tr : List (Move (Relay Payload σ) (RelayLabel Payload ℓ))) (r : Relay Payload σ)
    (id : ReadableId) : Prop :=
  (∃ o, r.fleet.Published o cfg.subscription.queue (.json (cfg.event id)) ∧
    (r.fleet.Holds o ∨ r.fleet.Succeeded o ∨ ∃ x ∈ tr, Loses o x)) ∨ ∃ x ∈ tr, Drops cfg id x

section Accounted
variable {r r' : Relay Payload σ} {tr : List (Move (Relay Payload σ) (RelayLabel Payload ℓ))}

/-- A message that is on the server stays accounted for. -/
theorem Accounted.step {l : RelayLabel Payload ℓ} {f : FleetLabel Payload} {id : ReadableId}
    (hs : ∀ p, Tracked (r.fleet.system p)) (hstep : fleetStep r.fleet f = some r'.fleet)
    (hlabel : l = .fleet f ∨ ∃ queue message, f = .publish queue message)
    (h : Accounted cfg tr r id) : Accounted cfg (tr ++ [⟨r, l, r'⟩]) r' id := by
  rcases h with ⟨o, hpublished, hcase⟩ | ⟨x, hx, hdrops⟩
  · refine Or.inl ⟨o, hpublished.mono (fleetStep_grows hstep), ?_⟩
    rcases hcase with hheld | hsucceeded | ⟨x, hx, hloses⟩
    · refine (fleetStep_holds hs hstep hheld).imp_right (Or.imp_right fun hloses => ?_)
      rcases hlabel with rfl | ⟨queue, message, rfl⟩
      · exact ⟨_, List.mem_append_right _ (.head _), f, rfl, hloses⟩
      · obtain ⟨p, l', hl', -⟩ := hloses
        cases hl'
    · exact Or.inr (Or.inl ((fleetStep_history hstep o).subset hsucceeded))
    · exact Or.inr (Or.inr ⟨x, List.mem_append_left _ hx, hloses⟩)
  · exact Or.inr ⟨x, List.mem_append_left _ hx, hdrops⟩

/-- Nothing happens on the server. -/
theorem Accounted.congr {x : Move (Relay Payload σ) (RelayLabel Payload ℓ)} {id : ReadableId}
    (hfleet : r'.fleet = r.fleet) (h : Accounted cfg tr r id) : Accounted cfg (tr ++ [x]) r' id := by
  rcases h with ⟨o, hpublished, hcase⟩ | ⟨y, hy, hdrops⟩
  · rw [← hfleet] at hpublished hcase
    refine Or.inl ⟨o, hpublished, hcase.imp_right (Or.imp_right ?_)⟩
    rintro ⟨y, hy, hloses⟩
    exact ⟨y, List.mem_append_left _ hy, hloses⟩
  · exact Or.inr ⟨y, List.mem_append_left _ hy, hdrops⟩

theorem step_accounted {l : RelayLabel Payload ℓ} {law : H.Lawful} (hs : Linked cfg law r)
    (h : Relays cfg H r r' l) (hall : ∀ id ∈ r.outbox.world.accepted, Accounted cfg tr r id) :
    ∀ id ∈ r'.outbox.world.accepted, Accounted cfg (tr ++ [⟨r, l, r'⟩]) r' id := by
  intro id hid
  cases h with
  | serves l step unpublished undelivered ended outbox handler calls results =>
    rw [outbox] at hid
    exact (hall id hid).step hs.tracked step (Or.inl rfl)
  | calls p c consumer i copy payload l ready content start step fleet outbox calls results =>
    rw [outbox] at hid
    exact (hall id hid).step hs.tracked fleet (Or.inl rfl)
  | works l other step outbox fleet calls results =>
    rw [outbox] at hid
    exact (hall id hid).congr fleet
  | hands l' label own step whole =>
    rw [step_accepts step] at hid
    cases haccepted : l'.accepted r.outbox with
    | none =>
      rw [haccepted, Option.map_none, Option.toList_none, List.append_nil] at hid
      rw [haccepted] at whole
      exact (hall id hid).congr (by rw [whole]; rfl)
    | some copy =>
      have hpayload := accepted_payload hs.told haccepted
      rw [haccepted, Option.map_some, Option.toList_some, List.mem_append, List.mem_singleton] at hid
      rw [haccepted, Relay.receive, Relay.publish] at whole
      split at whole
      · have hpublish := publish_step cfg r.fleet copy.payload
        have hfleet : r'.fleet = r.fleet.publish cfg.subscription.queue (cfg.message copy.payload) := by
          rw [whole]
        rcases hid with hold | rfl
        · exact (hall id hold).step hs.tracked (hfleet ▸ hpublish) (Or.inr ⟨_, _, rfl⟩)
        · refine Or.inl ⟨r.fleet.published.length, ⟨cfg.message copy.payload, ?_, ?_⟩, Or.inl ?_⟩
          · rw [hfleet]
            simp [Fleet.publish]
          · rw [hpayload]
            rfl
          · rw [hfleet]
            exact ⟨0, Or.inl ⟨_, List.mem_append_right _ (.head _), rfl⟩⟩
      · next hunrouted =>
        rcases hid with hold | rfl
        · exact (hall id hold).congr (by rw [whole])
        · refine Or.inr ⟨_, List.mem_append_right _ (.head _), l', label, by rw [haccepted]; rfl, ?_⟩
          rw [← hpayload]
          exact Bool.eq_false_iff.mpr hunrouted

theorem reaches_accounted (h : RelayRuns cfg H tr r) (law : H.Lawful) :
    ∀ id ∈ r.outbox.world.accepted, Accounted cfg tr r id :=
  Run.history (fun tr r => ∀ id ∈ r.outbox.world.accepted, Accounted cfg tr r id)
    (List.forall_mem_nil _)
    (fun _ _ _ _ hreach hs hstep =>
      step_accounted (reaches_linked hreach law) (relayStep_relays hstep) hs) h

/-- A row that is PUBLISHED is done, or the server holds its message, or the message was dropped
where no queue was bound for it, or lost to an ack for another one. -/
theorem published_cases (h : RelayRuns cfg H tr r) (law : H.Lawful) {id : ReadableId}
    (hid : r.outbox.world.statusOf id = some .published) :
    law.Done r.handler (cfg.event id) ∨
      (∃ o, r.fleet.Published o cfg.subscription.queue (.json (cfg.event id)) ∧ r.fleet.Holds o) ∨
      (∃ x ∈ tr, Drops cfg id x) ∨
        ∃ o, r.fleet.Published o cfg.subscription.queue (.json (cfg.event id)) ∧
          ∃ x ∈ tr, Loses o x := by
  have hs := reaches_linked h law
  rcases reaches_accounted h law id (hs.told.world.published id hid) with
    ⟨o, hpublished, hheld | hsucceeded | ⟨x, hx, hloses⟩⟩ | hdropped
  · exact Or.inr (Or.inl ⟨o, hpublished, hheld⟩)
  · obtain ⟨queue, payload, hmessage, hdone⟩ := hs.succeeded o hsucceeded
    have heq := (hmessage.content_eq hpublished).2
    rw [Content.json.injEq] at heq
    exact Or.inl (heq ▸ hdone)
  · exact Or.inr (Or.inr (Or.inr ⟨o, hpublished, x, hx, hloses⟩))
  · exact Or.inr (Or.inr (Or.inl hdropped))

end Accounted

/-- The queue is bound when an event for it is taken in, and handlers end at home. -/
def undisturbed (cfg : RelayConfig Payload) (r : Relay Payload σ) : RelayLabel Payload ℓ → Bool
  | .outbox l => (l.accepted r.outbox).all fun copy => r.bound || !cfg.routes copy.payload
  | .fleet l => Broker.Redelivery.settlesHome r.fleet l
  | _ => true

section Undisturbed
variable {r r' : Relay Payload σ} {tr : List (Move (Relay Payload σ) (RelayLabel Payload ℓ))}

theorem undisturbed_step {law : H.Lawful} (hs : Linked cfg law r) {l : RelayLabel Payload ℓ}
    (hl : undisturbed cfg r l = true) (h : Relays cfg H r r' l) :
    (∀ id, cfg.routes (cfg.event id) = true →
      ¬Drops cfg id (⟨r, l, r'⟩ : Move _ (RelayLabel Payload ℓ))) ∧
      ∀ o, ¬Loses o (⟨r, l, r'⟩ : Move _ (RelayLabel Payload ℓ)) := by
  refine ⟨fun id hroutes => ?_, fun o => ?_⟩
  · rintro ⟨l', hlabel, haccepted, hunbound⟩
    obtain ⟨copy, hcopy, rfl⟩ := Option.map_eq_some_iff.mp haccepted
    cases l with
    | outbox l =>
      cases l with
      | run e o =>
        cases hlabel
        rw [hroutes, Bool.and_true] at hunbound
        rw [undisturbed, hcopy, Option.all_some, accepted_payload hs.told hcopy, hroutes,
          hunbound] at hl
        cases hl
      | _ => cases hlabel <;> cases hcopy
    | commit id =>
      cases hlabel
      cases hcopy
    | _ => cases hlabel
  · rintro ⟨l', rfl, hloses⟩
    have hhome : Broker.Redelivery.settlesHome r.fleet l' = true := hl
    cases h with
    | hands l'' label own step whole => cases label
    | serves _ step unpublished undelivered ended outbox handler calls results =>
      exact Broker.Redelivery.not_loses hhome step hloses
    | calls p c consumer i copy payload l ready content start step fleet outbox calls results =>
      exact Broker.Redelivery.not_loses hhome fleet hloses

theorem undisturbed_run (h : RelayRuns cfg H tr r) (law : H.Lawful)
    (hG : Guarded (fun r l => undisturbed cfg r l = true) tr) :
    ∀ x ∈ tr, (∀ id, cfg.routes (cfg.event id) = true → ¬Drops cfg id x) ∧ ∀ o, ¬Loses o x := by
  induction h with
  | nil => exact List.forall_mem_nil _
  | snoc prev last ih =>
    obtain ⟨htr, hl⟩ := guarded_snoc.mp hG
    intro x hx
    rcases List.mem_append.mp hx with hold | hnew
    · exact ih htr x hold
    · rw [List.mem_singleton.mp hnew]
      exact undisturbed_step (reaches_linked prev law) hl (relayStep_relays last)

/-- Nothing is on its way. -/
structure Settled (r : Relay Payload σ) : Prop where
  published : ∀ id row, r.outbox.world.rows.row id = some row → row.status = .published
  ready : r.fleet.ready = []
  taken : ∀ p, r.fleet.taken p = []
  retry : r.fleet.retry = []
  dead : r.fleet.dead = []

/-- The process that takes the step. -/
def RelayLabel.process : RelayLabel Payload ℓ → Option ℕ
  | .fleet (.run p _) => some p
  | _ => none

theorem relay_idle {p : ℕ} {l : RelayLabel Payload ℓ} (hl : l.process ≠ some p)
    (h : Relays cfg H r r' l) (hp : r.fleet.taken p = []) : r'.fleet.taken p = [] := by
  cases h with
  | hands l' label own step whole =>
    rw [whole]
    rcases receive_eq cfg { r with outbox := r'.outbox } (l'.accepted r.outbox) with
      heq | ⟨message, heq⟩ <;>
    · rw [heq]
      exact hp
  | serves l step unpublished undelivered ended outbox handler calls results =>
    refine Broker.Redelivery.fleetStep_idle (fun l' heq => hl ?_) step hp
    rw [heq]
    rfl
  | calls p' c consumer i copy payload l ready content start step fleet outbox calls results =>
    refine Broker.Redelivery.fleetStep_idle (fun l' heq => hl ?_) fleet hp
    rw [heq]
    rfl
  | works l other step outbox fleet calls results =>
    rw [fleet]
    exact hp

theorem Settled.holds_nothing (h : Settled r) (o : ℕ) : ¬r.fleet.Holds o := by
  rw [Broker.Redelivery.Fleet.holds_iff, h.ready, h.retry, h.dead]
  rintro (⟨copy, hmem, -⟩ | ⟨p, x, hmem, -⟩ | ⟨copy, hmem, -⟩ | ⟨copy, hmem, -⟩)
  · cases hmem
  · rw [h.taken p] at hmem
    cases hmem
  · cases hmem
  · cases hmem

/-- When nothing is on its way, every event for the queue is done. -/
theorem settled_done (h : RelayRuns cfg H tr r) (law : H.Lawful)
    (hG : Guarded (fun r l => undisturbed cfg r l = true) tr) (hsettled : Settled r)
    {id : ReadableId} (hrow : (r.outbox.world.rows.row id).isSome)
    (hroutes : cfg.routes (cfg.event id) = true) :
    law.Done r.handler (cfg.event id) := by
  obtain ⟨row, hrow⟩ := Option.isSome_iff_exists.mp hrow
  have hpublished : r.outbox.world.statusOf id = some .published := by
    rw [Outbox.World.statusOf, hrow, Option.map_some, hsettled.published id row hrow]
  have hsafe := undisturbed_run h law hG
  rcases published_cases h law hpublished with
    hdone | ⟨o, -, hheld⟩ | ⟨x, hx, hdrops⟩ | ⟨o, -, x, hx, hloses⟩
  · exact hdone
  · exact absurd hheld (hsettled.holds_nothing o)
  · exact absurd hdrops ((hsafe x hx).1 id hroutes)
  · exact absurd hloses ((hsafe x hx).2 o)

/-- What has to be seen of a run by one process to know that nothing is on its way. -/
def Relay.settled (r : Relay Payload σ) : Bool :=
  r.outbox.world.rows.rows.all (·.status = .published) && (r.fleet.ready.isEmpty &&
    r.fleet.retry.isEmpty && r.fleet.dead.isEmpty && (r.fleet.taken 0).isEmpty)

/-- The step is not taken by another process. -/
def RelayLabel.alone (l : RelayLabel Payload ℓ) : Bool := l.process.all (· = 0)

theorem settled_alone (h : RelayRuns cfg H tr r) (halone : Guarded (fun _ l => l.alone = true) tr)
    (hr : r.settled = true) : Settled r := by
  simp only [Relay.settled, Bool.and_eq_true, List.isEmpty_iff, List.all_eq_true,
    decide_eq_true_eq] at hr
  obtain ⟨hpublished, ⟨⟨hready, hretry⟩, hdead⟩, htaken⟩ := hr
  refine ⟨fun id row hrow => hpublished row ?_, hready, fun p => ?_, hretry, hdead⟩
  · exact List.mem_filterMap.mpr ⟨id, r.outbox.world.rows.mem_keys hrow, hrow⟩
  · by_cases hp : p = 0
    · rw [hp]
      exact htaken
    · refine (Run.guarded_invariant (G := fun _ l => RelayLabel.alone l = true)
        (fun r => r.fleet.taken p = []) (fun r l r' hl hidle hstep => ?_) h halone rfl).1
      refine relay_idle (fun heq => hp ?_) (relayStep_relays hstep) hidle
      rw [RelayLabel.alone, heq] at hl
      simpa using hl

/-- Process 0 connects and subscribes. -/
def subscribes (subscription : Broker.BrokerSubscription) : List (RelayLabel Payload ℓ) :=
  List.replicate 4 (.fleet (.run 0 (.service (.run 0 .ok)))) ++
    .fleet (.run 0 (.service (.subscribe subscription))) ::
    List.replicate 7 (.fleet (.run 0 (.service (.run 1 .ok))))

end Undisturbed

/-! ## The run of the operation -/

/-- The event that the step calls the operation with. -/
def calledWith (f : Fleet Payload) : FleetLabel Payload → Option Payload
  | .run _ (.deliver _ _ i) => (f.ready[i]?).bind fun copy =>
    match copy.message.content with
    | .json payload => some payload
    | .malformed _ => none
  | _ => none

/-- What a step of the whole is to the operation. -/
def handlerMove (H : Handler Payload σ ℓ) (x : Move (Relay Payload σ) (RelayLabel Payload ℓ)) :
    Option (Move σ ℓ) :=
  match x.label with
  | .handler l => some ⟨x.source.handler, l, x.target.handler⟩
  | .fleet l => ((calledWith x.source.fleet l).bind H.start).map fun l =>
      ⟨x.source.handler, l, x.target.handler⟩
  | _ => none

section Handler
variable {r r' : Relay Payload σ} {tr : List (Move (Relay Payload σ) (RelayLabel Payload ℓ))}

theorem handlerMove_hands {l : RelayLabel Payload ℓ} {l' : Outbox.Label Payload}
    (h : l.ofOutbox cfg = some l') : handlerMove H ⟨r, l, r'⟩ = none := by
  cases l with
  | fleet l => cases h
  | handler l => cases h
  | _ => rfl

theorem calledWith_serves {l : FleetLabel Payload} (h : ∀ p c consumer i copy payload,
    l = .run p (.deliver c consumer i) → r.fleet.ready[i]? = some copy →
      copy.message.content ≠ .json payload) : calledWith r.fleet l = none := by
  cases l with
  | run p l =>
    cases l with
    | deliver c consumer i =>
      cases hi : r.fleet.ready[i]? with
      | none => simp only [calledWith, hi, Option.bind_none]
      | some copy =>
        cases hcontent : copy.message.content with
        | json payload => exact absurd hcontent (h p c consumer i copy payload rfl hi)
        | malformed raw => simp only [calledWith, hi, Option.bind_some, hcontent]
    | _ => rfl
  | _ => rfl

/-- The operation runs by itself, and is called with the events of rows that the broker has taken in. -/
theorem reaches_handler (h : RelayRuns cfg H tr r) (law : H.Lawful) :
    Run H.step H.initial (tr.filterMap (handlerMove H)) r.handler ∧
      ∀ x ∈ tr.filterMap (handlerMove H), H.starts x.label = true →
        ∃ id ∈ r.outbox.world.accepted, H.start (cfg.event id) = some x.label := by
  refine Run.history (fun tr r => Run H.step H.initial (tr.filterMap (handlerMove H)) r.handler ∧
    ∀ x ∈ tr.filterMap (handlerMove H), H.starts x.label = true →
      ∃ id ∈ r.outbox.world.accepted, H.start (cfg.event id) = some x.label)
    ⟨Run.nil, List.forall_mem_nil _⟩ ?_ h
  rintro tr r l r' hreach ⟨hrun, hcalled⟩ hstep
  have hs := reaches_linked hreach law
  rw [filterMap_snoc]
  have hrelays := relayStep_relays hstep
  cases hrelays with
  | hands l' label own step whole =>
    rw [handlerMove_hands label, Option.toList_none, List.append_nil]
    have hhandler : r'.handler = r.handler := by
      rw [whole, receive_handler]
    refine ⟨hhandler ▸ hrun, fun x hx hx' => ?_⟩
    obtain ⟨id, hid, hstart⟩ := hcalled x hx hx'
    exact ⟨id, by rw [step_accepts step]; exact List.mem_append_left _ hid, hstart⟩
  | serves l step unpublished undelivered ended outbox handler calls results =>
    have hnone : handlerMove H ⟨r, .fleet l, r'⟩ = none := by
      simp only [handlerMove, calledWith_serves undelivered, Option.bind_none, Option.map_none]
    rw [hnone, Option.toList_none, List.append_nil, handler, outbox]
    exact ⟨hrun, hcalled⟩
  | works l other step outbox fleet calls results =>
    rw [handlerMove, Option.toList_some, outbox]
    refine ⟨hrun.snoc step, fun x hx hx' => ?_⟩
    rcases List.mem_append.mp hx with hold | hnew
    · exact hcalled x hold hx'
    · rw [List.mem_singleton.mp hnew, other] at hx'
      cases hx'
  | calls p c consumer i copy payload l ready content start step fleet outbox calls results =>
    have hsome : handlerMove H ⟨r, .fleet (.run p (.deliver c consumer i)), r'⟩ =
        some ⟨r.handler, l, r'.handler⟩ := by
      simp only [handlerMove, calledWith, ready, Option.bind_some, content, start, Option.map_some]
    rw [hsome, Option.toList_some, outbox]
    refine ⟨hrun.snoc step, fun x hx hx' => ?_⟩
    rcases List.mem_append.mp hx with hold | hnew
    · exact hcalled x hold hx'
    · obtain ⟨id, hid, -, hjson⟩ :=
        hs.fleet_published (hs.genuine.ready copy (List.mem_of_getElem? ready))
      rw [content, Content.json.injEq] at hjson
      rw [List.mem_singleton.mp hnew]
      exact ⟨id, hid, hjson ▸ start⟩

end Handler

end Bumpa.Delivery
