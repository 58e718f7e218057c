import Bumpa.Broker.Conservation

/-! # A handler gets what was published

The copies of a message are in its queue, or in the retry queue of that, with the content that was
published (`Genuine`), however often they went round. So the content that a handler is called with is
that of a published message, in every run of any number of processes (`handled_as_published`).
-/
namespace Bumpa.Broker.Redelivery
open Bumpa.Transition
set_option autoImplicit false

variable {Payload : Type}

/-- Message `o` was published to `queue` with this content. -/
def Server.Published (srv : Server Payload) (o : ℕ) (queue : String) (content : Content Payload) :
    Prop :=
  ∃ message, srv.published[o]? = some (queue, message) ∧ message.content = content

structure Genuine (srv : Server Payload) : Prop where
  ready : ∀ copy ∈ srv.ready, srv.Published copy.origin copy.queue copy.message.content
  taken : ∀ x ∈ srv.taken, srv.Published x.1 x.2.queue x.2.message.content
  retry : ∀ copy ∈ srv.retry, ∃ queue, copy.queue = queue ++ ".retry" ∧
    srv.Published copy.origin queue copy.message.content

namespace Genuine
variable {srv srv' : Server Payload} {d : Delivery Payload}

theorem of_subset (h : Genuine srv) (hpublished : srv'.published = srv.published)
    (hready : ∀ copy ∈ srv'.ready, copy ∈ srv.ready) (htaken : ∀ x ∈ srv'.taken, x ∈ srv.taken)
    (hretry : ∀ copy ∈ srv'.retry, copy ∈ srv.retry) : Genuine srv' := by
  refine ⟨fun copy hc => ?_, fun x hx => ?_, fun copy hc => ?_⟩
  · rw [Server.Published, hpublished]
    exact h.ready copy (hready copy hc)
  · rw [Server.Published, hpublished]
    exact h.taken x (htaken x hx)
  · simp only [Server.Published, hpublished]
    exact h.retry copy (hretry copy hc)

theorem observe (h : Genuine srv) (d : Delivery Payload) (event : Event Payload) :
    Genuine (srv.observe d event) := by
  unfold Server.observe
  split
  · exact h
  · exact h.of_subset rfl (fun _ h => h) (fun _ h => h) fun _ h => h

theorem settle (h : Genuine srv) (kind : SettlementKind) (d : Delivery Payload) :
    Genuine (srv.settle kind d) := by
  unfold Server.settle
  split
  · exact h
  · cases kind <;>
      exact h.of_subset rfl (fun _ h => h) (fun _ h => (List.mem_filter.mp h).1) fun _ h => h

theorem schedule (h : Genuine srv)
    (hd : ∀ x ∈ srv.taken, sameDelivery x.2 d = true → x.2 = d) {message : Message Payload}
    (hcontent : message.content = d.message.content) :
    Genuine (srv.schedule d (d.queue ++ ".retry") message) := by
  unfold Server.schedule
  split
  · exact h
  · next o horigin =>
    refine ⟨h.ready, h.taken, fun copy hcopy => ?_⟩
    rcases List.mem_append.mp hcopy with hold | hnew
    · exact h.retry copy hold
    · obtain ⟨x, hx, rfl, hsame⟩ := Server.origin_eq_some horigin
      have hpublished := h.taken x hx
      rw [hd x hx hsame] at hpublished
      rw [List.mem_singleton.mp hnew]
      exact ⟨d.queue, rfl, hcontent ▸ hpublished⟩

theorem take (h : Genuine srv) {i : ℕ} {copy : Copy Payload} (hi : srv.ready[i]? = some copy)
    (hqueue : d.queue = copy.queue) (hmessage : d.message = copy.message) :
    Genuine (srv.take i copy.origin d) := by
  refine ⟨fun copy' hcopy' => h.ready copy' (List.mem_of_mem_eraseIdx hcopy'), fun x hx => ?_,
    h.retry⟩
  rcases List.mem_append.mp hx with hold | hnew
  · exact h.taken x hold
  · rw [List.mem_singleton.mp hnew]
    have hpublished := h.ready copy (List.mem_of_getElem? hi)
    rw [← hqueue, ← hmessage] at hpublished
    exact hpublished

theorem scheduleAll (h : Genuine srv)
    (hd : ∀ x ∈ srv.taken, sameDelivery x.2 d = true → x.2 = d)
    {copies : List (String × Message Payload)}
    (hcopies : ∀ copy ∈ copies, ∃ n ms, copy = (d.queue ++ ".retry", retryMessage d.message n ms)) :
    Genuine (srv.scheduleAll d copies) := by
  induction copies generalizing srv with
  | nil => exact h
  | cons copy copies ih =>
    obtain ⟨n, ms, rfl⟩ := hcopies copy (.head _)
    refine ih (h.schedule hd rfl) ?_ fun copy' hcopy' => hcopies copy' (List.mem_cons_of_mem _ hcopy')
    rw [Server.schedule_taken]
    exact hd

theorem settleAll (h : Genuine srv) (kind : SettlementKind) (ds : List (Delivery Payload)) :
    Genuine (ds.foldl (fun srv d => srv.settle kind d) srv) := by
  induction ds generalizing srv with
  | nil => exact h
  | cons d ds ih => exact ih (h.settle kind d)

theorem receive (h : Genuine srv)
    (hd : ∀ x ∈ srv.taken, sameDelivery x.2 d = true → x.2 = d)
    {copies : List (String × Message Payload)}
    (hcopies : ∀ copy ∈ copies, ∃ n ms, copy = (d.queue ++ ".retry", retryMessage d.message n ms))
    {s s₁ : State Payload} (hretries : s₁.retries = s.retries ++ copies)
    (hsettlements : s₁.settlements = s.settlements) (kind : SettlementKind) :
    Genuine (srv.receive d s (s₁.settle kind d)) := by
  rw [receive_settles hretries hsettlements]
  exact (h.scheduleAll hd hcopies).settleAll kind _

theorem requeue (h : Genuine srv) (s : State Payload) : Genuine (srv.requeue s) := by
  refine ⟨fun copy hcopy => ?_, fun x hx => h.taken x (List.mem_filter.mp hx).1, h.retry⟩
  rcases List.mem_append.mp hcopy with hold | hback
  · exact h.ready copy hold
  · obtain ⟨x, hx, rfl⟩ := List.mem_map.mp hback
    exact h.taken x (List.mem_filter.mp hx).1

end Genuine

/-! ## Steps -/

section Step
variable {sys sys' : System Payload}

/-- A delivery with a new number and no other that is out. -/
theorem Tracked.take_handled (hs : Tracked sys) {d : Delivery Payload}
    (htag : d.deliveryTag = (sys.service.channels d.channel).delivered + 1) (i o : ℕ) :
    ∀ x ∈ (sys.server.take i o d).taken, sameDelivery x.2 d = true → x.2 = d := by
  intro x hx hsame
  rcases List.mem_append.mp hx with hold | hnew
  · rw [hs.new_delivery htag x hold] at hsame
    cases hsame
  · rw [List.mem_singleton.mp hnew]

theorem Genuine.observeAll {srv : Server Payload} (h : Genuine srv) (d : Delivery Payload)
    (events : List (Event Payload)) : Genuine (srv.observeAll d events) := by
  induction events generalizing srv with
  | nil => exact h
  | cons event events ih => exact ih (h.observe d event)

theorem step_genuine {l : SystemLabel Payload} (hs : Tracked sys) (hg : Genuine sys.server)
    (h : Does sys sys' l) : Genuine sys'.server := by
  cases h with
  | quiet _ _ step hserver => exact hserver ▸ hg
  | starts copy d event taken queue message parsed isOpen tag hservice hserver =>
    rw [hserver]
    exact hg.take taken queue message
  | @refuses c consumer i copy d raw taken queue message malformed isOpen tag hservice hserver =>
    rw [hserver, hservice]
    have hretries : (sys.service.numbered d).retries = sys.service.retries ++ [] :=
      (List.append_nil _).symm
    exact (hg.take taken queue message).receive (hs.take_handled tag i copy.origin)
      (List.forall_mem_nil _) hretries rfl .nack
  | ends e d kind copies events handled ending label hservice hserver =>
    rw [hserver, hservice]
    have hretries : (afterHandler sys.service e copies).retries = sys.service.retries ++ copies := rfl
    refine (hg.observeAll d events).receive ?_ ending.scheduled hretries rfl kind
    rw [Server.observeAll_taken]
    exact hs.handled e d handled

/-- What is not a success adds none. -/
theorem Server.succeeded_note {srv : Server Payload} {o o' : ℕ} {event : Event Payload}
    (hevent : event ≠ .succeeded) : (srv.note o' event).Succeeded o ↔ srv.Succeeded o := by
  simp only [Succeeded, note, Function.update_apply]
  split
  · next h =>
    rw [h, List.mem_append, List.mem_singleton]
    exact or_iff_left (Ne.symm hevent)
  · rfl

theorem Server.succeeded_schedule (srv : Server Payload) (d : Delivery Payload) (queue : String)
    (message : Message Payload) (o : ℕ) :
    (srv.schedule d queue message).Succeeded o ↔ srv.Succeeded o := by
  unfold schedule
  split
  · rfl
  · exact succeeded_note (by simp)

theorem Server.succeeded_settle (srv : Server Payload) (kind : SettlementKind)
    (d : Delivery Payload) (o : ℕ) : (srv.settle kind d).Succeeded o ↔ srv.Succeeded o := by
  unfold settle
  split
  · rfl
  · cases kind <;> exact succeeded_note (by simp)

theorem Server.succeeded_foldl {α : Type} {f : Server Payload → α → Server Payload} {o : ℕ}
    (hf : ∀ srv x, (f srv x).Succeeded o ↔ srv.Succeeded o) (xs : List α) (srv : Server Payload) :
    (xs.foldl f srv).Succeeded o ↔ srv.Succeeded o := by
  induction xs generalizing srv with
  | nil => rfl
  | cons x xs ih => exact (ih _).trans (hf srv x)

theorem Server.succeeded_receive (srv : Server Payload) (d : Delivery Payload)
    (s s' : State Payload) (o : ℕ) :
    (srv.receive d s s').Succeeded o ↔ srv.Succeeded o := by
  refine (succeeded_foldl (fun srv y => ?_) _ _).trans (succeeded_foldl (fun srv
    (copy : String × Message Payload) => succeeded_schedule srv d copy.1 copy.2 o) _ srv)
  exact succeeded_foldl (fun srv d' => succeeded_settle srv y.kind d' o) _ srv

theorem Server.succeeded_observeAll {srv : Server Payload} {d : Delivery Payload}
    {events : List (Event Payload)} {o : ℕ} (h : (srv.observeAll d events).Succeeded o) :
    srv.Succeeded o ∨ .succeeded ∈ events ∧ srv.origin d = some o := by
  induction events generalizing srv with
  | nil => exact Or.inl h
  | cons event events ih =>
    rcases ih h with hhere | ⟨hlater, horigin⟩
    · have hone : (srv.observe d event).Succeeded o := hhere
      unfold observe at hone
      split at hone
      · exact Or.inl hone
      · next o' horigin =>
        by_cases hevent : event = .succeeded
        · subst hevent
          by_cases ho : o' = o
          · exact Or.inr ⟨.head _, ho ▸ horigin⟩
          · refine Or.inl ?_
            simpa only [Succeeded, note, Function.update_of_ne (Ne.symm ho)] using hone
        · exact Or.inl ((succeeded_note hevent).mp hone)
    · rw [origin, observe_taken] at horigin
      exact Or.inr ⟨List.mem_cons_of_mem event hlater, horigin⟩

/-- A handler has resolved, and it was called with what the message was published with. -/
theorem step_succeeded {l : SystemLabel Payload} (hs : Tracked sys) (hg : Genuine sys.server)
    (h : Does sys sys' l) {o : ℕ} (ho : sys'.server.Succeeded o) :
    sys.server.Succeeded o ∨ ∃ e d, l = .service (.run e .ok) ∧
      sys.service.threads e = .handle d ∧ sys.server.Published o d.queue d.message.content := by
  cases h with
  | quiet _ _ step hserver => exact Or.inl (hserver ▸ ho)
  | starts copy d event taken queue message parsed isOpen tag hservice hserver =>
    rw [hserver] at ho
    exact Or.inl ((Server.succeeded_note (by simp)).mp ho)
  | refuses copy d raw taken queue message malformed isOpen tag hservice hserver =>
    rw [hserver, Server.succeeded_receive] at ho
    exact Or.inl ((Server.succeeded_note (by simp)).mp ho)
  | ends e d kind copies events handled ending label hservice hserver =>
    rw [hserver, Server.succeeded_receive] at ho
    rcases Server.succeeded_observeAll ho with hold | ⟨hevents, horigin⟩
    · exact Or.inl hold
    · obtain ⟨x, hx, rfl, hsame⟩ := Server.origin_eq_some horigin
      have hpublished := hg.taken x hx
      rw [hs.handled e d handled x hx hsame] at hpublished
      rcases label with ⟨rfl, -⟩ | ⟨-, hnone⟩
      · exact Or.inr ⟨e, d, rfl, handled, hpublished⟩
      · exact absurd hevents hnone

end Step

/-! ## The fleet -/

section Fleet
variable {f f' : Fleet Payload} {l : FleetLabel Payload}

/-- Message `o` was published to `queue` with this content. -/
def Fleet.Published (f : Fleet Payload) (o : ℕ) (queue : String) (content : Content Payload) : Prop :=
  ∃ message, f.published[o]? = some (queue, message) ∧ message.content = content

theorem Fleet.Published.mono {o : ℕ} {queue : String} {content : Content Payload}
    (hgrows : f.published <+: f'.published) (h : f.Published o queue content) :
    f'.Published o queue content := by
  obtain ⟨message, hget, hcontent⟩ := h
  obtain ⟨later, hlater⟩ := hgrows
  have hlt := (List.getElem?_eq_some_iff.mp hget).1
  exact ⟨message, by rw [← hlater, List.getElem?_append_left hlt, hget], hcontent⟩

theorem fleetStep_grows (h : fleetStep f l = some f') : f.published <+: f'.published := by
  rcases fleetStep_published h with hsame | ⟨queue, message, -, rfl⟩
  · exact hsame ▸ List.prefix_refl _
  · exact List.prefix_append _ _

/-- The copies in the queues are genuine, and those that are out with any process. -/
structure Fleet.Genuine (f : Fleet Payload) : Prop where
  ready : ∀ copy ∈ f.ready, f.Published copy.origin copy.queue copy.message.content
  taken : ∀ p, ∀ x ∈ f.taken p, f.Published x.1 x.2.queue x.2.message.content
  retry : ∀ copy ∈ f.retry, ∃ queue, copy.queue = queue ++ ".retry" ∧
    f.Published copy.origin queue copy.message.content

theorem Fleet.Genuine.system (h : f.Genuine) (p : ℕ) :
    Redelivery.Genuine (f.system p).server :=
  ⟨h.ready, h.taken p, h.retry⟩

theorem fleetStep_genuine (hs : ∀ p, Tracked (f.system p)) (hg : f.Genuine)
    (h : fleetStep f l = some f') : f'.Genuine := by
  have hgrows := fleetStep_grows h
  cases l with
  | publish queue message =>
    simp only [fleetStep] at h
    split at h <;> cases h
    refine ⟨fun copy hcopy => ?_, fun p x hx => (hg.taken p x hx).mono hgrows, fun copy hcopy => ?_⟩
    · rcases List.mem_append.mp hcopy with hold | hnew
      · exact (hg.ready copy hold).mono hgrows
      · rw [List.mem_singleton.mp hnew]
        exact ⟨message, by simp [Fleet.publish], rfl⟩
    · obtain ⟨queue', hqueue, hpublished⟩ := hg.retry copy hcopy
      exact ⟨queue', hqueue, hpublished.mono hgrows⟩
  | expire i queue =>
    simp only [fleetStep] at h
    split at h
    · cases h
    · next copy hi =>
      split at h <;> cases h
      next hqueue =>
      refine ⟨fun copy' hcopy' => ?_, hg.taken, fun copy' hcopy' =>
        hg.retry copy' (List.mem_of_mem_eraseIdx hcopy')⟩
      rcases List.mem_append.mp hcopy' with hold | hnew
      · exact hg.ready copy' hold
      · obtain ⟨queue', hqueue', hpublished⟩ := hg.retry copy (List.mem_of_getElem? hi)
        rw [hqueue] at hqueue'
        rw [List.mem_singleton.mp hnew, (String.append_left_inj ".retry").mp hqueue']
        exact hpublished
  | run p l =>
    obtain ⟨sys, hdoes, rfl⟩ := run_step h
    have hsys := (step_genuine (hs p) (hg.system p) hdoes).requeue sys.service
    refine ⟨hsys.ready, fun p' x hx => ?_, hsys.retry⟩
    by_cases hp : p' = p
    · subst hp
      simp only [Fleet.put, Function.update_self] at hx
      exact hsys.taken x hx
    · simp only [Fleet.put, Function.update_of_ne hp] at hx
      exact (hg.taken p' x hx).mono hgrows
  | crash p =>
    simp only [fleetStep] at h
    split at h <;> cases h
    refine ⟨fun copy hcopy => ?_, fun p' x hx => ?_, hg.retry⟩
    · rcases List.mem_append.mp hcopy with hold | hback
      · exact hg.ready copy hold
      · obtain ⟨x, hx, rfl⟩ := List.mem_map.mp hback
        exact hg.taken p x hx
    · simp only [Fleet.crash, Function.update_apply] at hx
      split at hx
      · cases hx
      · exact hg.taken p' x hx

theorem initial_genuine : (Fleet.initial : Fleet Payload).Genuine :=
  ⟨List.forall_mem_nil _, fun _ => List.forall_mem_nil _, List.forall_mem_nil _⟩

theorem fleetStep_succeeded (hs : ∀ p, Tracked (f.system p)) (hg : f.Genuine)
    (h : fleetStep f l = some f') {o : ℕ} (ho : f'.Succeeded o) :
    f.Succeeded o ∨ ∃ p e d, l = .run p (.service (.run e .ok)) ∧
      (f.services p).threads e = .handle d ∧ f.Published o d.queue d.message.content := by
  cases l with
  | publish queue message =>
    simp only [fleetStep] at h
    split at h <;> cases h
    exact Or.inl ho
  | expire i queue =>
    simp only [fleetStep] at h
    split at h
    · cases h
    · next copy hi =>
      split at h <;> cases h
      have hnoted : ((f.system 0).server.note copy.origin .returned).Succeeded o := ho
      exact Or.inl ((Server.succeeded_note (by simp)).mp hnoted)
  | run p l =>
    obtain ⟨sys, hdoes, rfl⟩ := run_step h
    rcases step_succeeded (hs p) (hg.system p) hdoes ho with hold | ⟨e, d, rfl, hth, hpublished⟩
    · exact Or.inl hold
    · exact Or.inr ⟨p, e, d, rfl, hth, hpublished⟩
  | crash p =>
    simp only [fleetStep] at h
    split at h <;> cases h
    exact Or.inl ho

theorem Fleet.Published.content_eq {o : ℕ} {queue queue' : String}
    {content content' : Content Payload} (h : f.Published o queue content)
    (h' : f.Published o queue' content') : queue = queue' ∧ content = content' := by
  obtain ⟨message, hget, rfl⟩ := h
  obtain ⟨message', hget', rfl⟩ := h'
  rw [hget, Option.some.injEq, Prod.mk.injEq] at hget'
  exact ⟨hget'.1, congrArg _ hget'.2⟩

/-- A handler that runs was there before, and no message starts one under its number, or the step
has started it for a ready copy. -/
theorem step_handle {sys sys' : System Payload} {l : SystemLabel Payload} (h : Does sys sys' l)
    {e : ℕ} {d : Delivery Payload} (hd : sys'.service.threads e = .handle d) :
    (sys.service.threads e = .handle d ∧ ∀ c consumer i copy event, l = .deliver c consumer i →
      sys.server.ready[i]? = some copy → copy.message.content = .json event →
        e ≠ sys.service.nextThread) ∨
    ∃ c consumer i copy event, l = .deliver c consumer i ∧ e = sys.service.nextThread ∧
      sys.server.ready[i]? = some copy ∧ d.queue = copy.queue ∧ d.message = copy.message ∧
        copy.message.content = .json event := by
  cases h with
  | quiet _ undelivered step server =>
    obtain ⟨l', hstep, hl'⟩ := step
    exact Or.inl ⟨(step_quiet hl' hstep).handles e d hd,
      fun c consumer i _ _ hl => absurd hl (undelivered c consumer i)⟩
  | @starts c consumer i copy d' event taken queue message parsed isOpen tag hservice server =>
    rw [hservice, State.spawn] at hd
    simp only [State.setThread, Function.update_apply] at hd
    split at hd
    · next he =>
      cases hd
      exact Or.inr ⟨c, consumer, i, copy, event, rfl, he, taken, queue, message, parsed⟩
    · next he => exact Or.inl ⟨hd, fun _ _ _ _ _ _ _ _ => he⟩
  | @refuses c consumer i copy d' raw taken queue message malformed isOpen tag hservice server =>
    rw [hservice, (settle_frame _ _ _).1] at hd
    refine Or.inl ⟨hd, fun _ _ _ copy' event hl hi hjson => ?_⟩
    cases hl
    rw [taken, Option.some.injEq] at hi
    rw [← hi, malformed] at hjson
    cases hjson
  | ends e' d' kind copies events handled ending label hservice server =>
    rw [hservice, (settle_frame _ _ _).1] at hd
    simp only [afterHandler, State.setThread, Function.update_apply] at hd
    split at hd
    · cases hd
    · refine Or.inl ⟨hd, fun _ _ _ _ _ hl => ?_⟩
      rcases label with ⟨rfl, -⟩ | ⟨rfl | rfl, -⟩ <;> cases hl

theorem fleetStep_handle (h : fleetStep f l = some f') {p e : ℕ} {d : Delivery Payload}
    (hd : (f'.services p).threads e = .handle d) :
    ((f.services p).threads e = .handle d ∧ ∀ c consumer i copy event,
      l = .run p (.deliver c consumer i) → f.ready[i]? = some copy →
        copy.message.content = .json event → e ≠ (f.services p).nextThread) ∨
    ∃ c consumer i copy event, l = .run p (.deliver c consumer i) ∧
      e = (f.services p).nextThread ∧ f.ready[i]? = some copy ∧ d.queue = copy.queue ∧
        d.message = copy.message ∧ copy.message.content = .json event := by
  cases l with
  | publish queue message =>
    simp only [fleetStep] at h
    split at h <;> cases h
    exact Or.inl ⟨hd, by simp⟩
  | expire i queue =>
    simp only [fleetStep] at h
    split at h
    · cases h
    · split at h <;> cases h
      exact Or.inl ⟨hd, by simp⟩
  | run p' l =>
    obtain ⟨sys, hdoes, rfl⟩ := run_step h
    simp only [Fleet.put, Function.update_apply] at hd
    split at hd
    · next hp =>
      subst hp
      rcases step_handle hdoes hd with ⟨hold, hfresh⟩ | ⟨c, consumer, i, copy, event, rfl, hstarted⟩
      · exact Or.inl ⟨hold, fun c consumer i copy event hl =>
          hfresh c consumer i copy event (FleetLabel.run.inj hl).2⟩
      · exact Or.inr ⟨c, consumer, i, copy, event, rfl, hstarted⟩
    · next hp => exact Or.inl ⟨hd, fun _ _ _ _ _ hl => absurd (FleetLabel.run.inj hl).1.symm hp⟩
  | crash p' =>
    simp only [fleetStep] at h
    split at h <;> cases h
    exact Or.inl ⟨hd, by simp⟩

/-! ## Runs -/

/-- Handlers run with what was published, and one that has resolved for a message did so with what
that was published with. -/
structure HandledAsPublished (tr : List (Move (Fleet Payload) (FleetLabel Payload)))
    (f : Fleet Payload) : Prop where
  running : ∀ p e d, (f.services p).threads e = .handle d →
    ∃ o, f.Published o d.queue d.message.content
  succeeded : ∀ o, f.Succeeded o → ∃ x ∈ tr, ∃ p e d, x.label = .run p (.service (.run e .ok)) ∧
    (x.source.services p).threads e = .handle d ∧ f.Published o d.queue d.message.content

/-- In every run of any number of processes: whatever is requeued, retried and redelivered, a handler
is called with the content of a published message, for the queue that it was published to. -/
theorem handled_as_published {tr : List (Move (Fleet Payload) (FleetLabel Payload))}
    (h : FleetRuns tr f) : HandledAsPublished tr f := by
  have hidle : ∀ p e d, ((Fleet.initial : Fleet Payload).services p).threads e ≠ .handle d := by
    intro p e d
    simp only [Fleet.initial, initial, Function.update_apply]
    split <;> simp
  refine (Run.history (fun tr f => f.Genuine ∧ HandledAsPublished tr f)
    ⟨initial_genuine, fun p e d hd => absurd hd (hidle p e d), fun _ ho => by cases ho⟩ ?_ h).2
  rintro tr f l f' hreach ⟨hg, hs⟩ hstep
  have htracked := reaches_tracked hreach
  have hgrows := fleetStep_grows hstep
  refine ⟨fleetStep_genuine htracked hg hstep, fun p e d hd => ?_, fun o ho => ?_⟩
  · rcases fleetStep_handle hstep hd with
      ⟨hold, -⟩ | ⟨c, consumer, i, copy, event, -, -, hi, hqueue, hmessage, -⟩
    · obtain ⟨o, hpublished⟩ := hs.running p e d hold
      exact ⟨o, hpublished.mono hgrows⟩
    · have hpublished := hg.ready copy (List.mem_of_getElem? hi)
      rw [← hqueue, ← hmessage] at hpublished
      exact ⟨copy.origin, hpublished.mono hgrows⟩
  · rcases fleetStep_succeeded htracked hg hstep ho with hold | ⟨p, e, d, rfl, hd, hpublished⟩
    · obtain ⟨x, hx, p, e, d, hlabel, hd, hpublished⟩ := hs.succeeded o hold
      exact ⟨x, List.mem_append_left _ hx, p, e, d, hlabel, hd, hpublished.mono hgrows⟩
    · exact ⟨_, List.mem_append_right _ (.head _), p, e, d, rfl, hd, hpublished.mono hgrows⟩

end Fleet

/-- The message is handled after its retry. -/
theorem handled_as_published_retried : ∃ (tr : List (Move (Fleet Unit) (FleetLabel Unit))) (f : Fleet Unit),
    FleetRuns tr f ∧ f.Succeeded 0 ∧ HandledAsPublished tr f := by
  obtain ⟨tr, f, h, hp⟩ := exists_run_of_trace fleetStep (Fleet.initial : Fleet Unit)
    (FleetLabel.connects 0 ++ FleetLabel.connects 1 ++
      [.publish "q" ⟨.json (), "PurchaseCompleted", ⟨none, []⟩⟩, .run 0 (.deliver 0 0 0),
        .run 0 (.service (.run 2 .fails)), .expire 0 "q", .run 1 (.deliver 0 0 0),
        .run 1 (.service (.run 2 .ok))])
    (fun r => decide (.succeeded ∈ r.2.history 0)) (by decide +kernel)
  have hsucceeded : .succeeded ∈ f.history 0 := of_decide_eq_true hp
  exact ⟨tr, f, h, hsucceeded, handled_as_published h⟩

end Bumpa.Broker.Redelivery
