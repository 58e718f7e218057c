import Bumpa.Broker.Fleet
import Bumpa.Broker.Redelivery

/-! # What a step of a process is

A process does nothing about deliveries, starts a handler, refuses what does not parse, or ends a
handler (`Does`). In each case the server learns of it in one way, and it is from these four cases
that the invariants of the fleet are proved.

`Tracked` is what every step keeps: deliveries that are out have their numbers from their channels,
and a handler works on the delivery that is out under its number.
-/
namespace Bumpa.Broker.Redelivery
open Bumpa.Transition
set_option autoImplicit false

variable {Payload : Type}

/-! ## Origins and copies -/

theorem sameDelivery_trans {d d' d'' : Delivery Payload} (h : sameDelivery d d' = true)
    (h' : sameDelivery d' d'' = true) : sameDelivery d d'' = true := by
  simp only [sameDelivery, Bool.and_eq_true, decide_eq_true_eq] at h h' ⊢
  exact ⟨h.1.trans h'.1, h.2.trans h'.2⟩

namespace Server
variable {srv : Server Payload} {o : ℕ} {d : Delivery Payload}

theorem origin_of_same (hdistinct : Distinct srv.taken) {x : ℕ × Delivery Payload}
    (hx : x ∈ srv.taken) (hsame : sameDelivery x.2 d = true) : srv.origin d = some x.1 := by
  cases hfind : srv.taken.find? fun x => sameDelivery x.2 d with
  | none => exact absurd hsame (List.find?_eq_none.mp hfind x hx)
  | some y =>
    have hy : sameDelivery y.2 d = true :=
      @List.find?_some _ (fun y => sameDelivery y.2 d) y _ hfind
    rw [sameDelivery_comm] at hy
    have hxy := hdistinct.eq hx (List.mem_of_find?_eq_some hfind) (sameDelivery_trans hsame hy)
    rw [origin, hfind, hxy]
    rfl

/-- What `origin` finds is out. -/
theorem origin_eq_some (h : srv.origin d = some o) :
    ∃ x ∈ srv.taken, x.1 = o ∧ sameDelivery x.2 d = true := by
  obtain ⟨x, hfind, rfl⟩ := Option.map_eq_some_iff.mp h
  exact ⟨x, List.mem_of_find?_eq_some hfind, rfl,
    @List.find?_some _ (fun y => sameDelivery y.2 d) x _ hfind⟩

theorem observe_taken (srv : Server Payload) (d : Delivery Payload) (event : Event Payload) :
    (srv.observe d event).taken = srv.taken := by
  unfold observe
  split <;> rfl

theorem schedule_taken (srv : Server Payload) (d : Delivery Payload) (queue : String)
    (message : Message Payload) : (srv.schedule d queue message).taken = srv.taken := by
  unfold schedule
  split <;> rfl

theorem settle_taken (srv : Server Payload) (kind : SettlementKind) (d : Delivery Payload) :
    (srv.settle kind d).taken.Sublist srv.taken := by
  unfold settle
  split
  · exact List.Sublist.refl _
  · cases kind <;> exact List.filter_sublist

theorem foldl_settle_taken (kind : SettlementKind) (ds : List (Delivery Payload))
    (srv : Server Payload) :
    (ds.foldl (fun srv d => srv.settle kind d) srv).taken.Sublist srv.taken := by
  induction ds generalizing srv with
  | nil => exact List.Sublist.refl _
  | cons d ds ih => exact (ih _).trans (settle_taken srv kind d)

theorem foldl_settle_retry (kind : SettlementKind) (ds : List (Delivery Payload))
    (srv : Server Payload) :
    (ds.foldl (fun srv d => srv.settle kind d) srv).retry = srv.retry := by
  induction ds generalizing srv with
  | nil => rfl
  | cons d ds ih =>
    have hone : (srv.settle kind d).retry = srv.retry := by
      unfold settle
      split
      · rfl
      · cases kind <;> rfl
    exact (ih _).trans hone

/-- The copies that the service sends for one delivery. -/
def scheduleAll (srv : Server Payload) (d : Delivery Payload)
    (copies : List (String × Message Payload)) : Server Payload :=
  copies.foldl (fun srv copy => srv.schedule d copy.1 copy.2) srv

theorem scheduleAll_taken (srv : Server Payload) (d : Delivery Payload)
    (copies : List (String × Message Payload)) : (srv.scheduleAll d copies).taken = srv.taken := by
  induction copies generalizing srv with
  | nil => rfl
  | cons copy copies ih => exact (ih _).trans (schedule_taken srv d copy.1 copy.2)

theorem schedule_retry (srv : Server Payload) (d : Delivery Payload) (queue : String)
    (message : Message Payload) : srv.retry <+: (srv.schedule d queue message).retry := by
  unfold schedule
  split
  · exact List.prefix_refl _
  · exact List.prefix_append _ _

theorem scheduleAll_retry (srv : Server Payload) (d : Delivery Payload)
    (copies : List (String × Message Payload)) :
    srv.retry <+: (srv.scheduleAll d copies).retry := by
  induction copies generalizing srv with
  | nil => exact List.prefix_refl _
  | cons copy copies ih => exact (schedule_retry srv d copy.1 copy.2).trans (ih _)

/-- A copy of the delivered message waits in the retry queue. -/
theorem exists_scheduled {copies : List (String × Message Payload)} (hcopies : copies ≠ [])
    (h : srv.origin d = some o) : ∃ copy ∈ (srv.scheduleAll d copies).retry, copy.origin = o := by
  cases copies with
  | nil => exact absurd rfl hcopies
  | cons copy copies =>
    have hfirst : (⟨o, copy.1, copy.2⟩ : Copy Payload) ∈ (srv.schedule d copy.1 copy.2).retry := by
      simp only [schedule, h]
      exact List.mem_append_right _ (.head _)
    exact ⟨_, (scheduleAll_retry _ d copies).subset hfirst, rfl⟩

/-! ## Histories only grow -/

theorem note_history (srv : Server Payload) (o' : ℕ) (event : Event Payload) :
    srv.history o <+: (srv.note o' event).history o := by
  simp only [note, Function.update_apply]
  split
  · next h =>
    rw [h]
    exact List.prefix_append _ _
  · exact List.prefix_refl _

theorem observe_history (srv : Server Payload) (d : Delivery Payload) (event : Event Payload) :
    srv.history o <+: (srv.observe d event).history o := by
  unfold observe
  split
  · exact List.prefix_refl _
  · exact note_history srv _ event

theorem schedule_history (srv : Server Payload) (d : Delivery Payload) (queue : String)
    (message : Message Payload) :
    srv.history o <+: (srv.schedule d queue message).history o := by
  unfold schedule
  split
  · exact List.prefix_refl _
  · exact note_history srv _ _

theorem settle_history (srv : Server Payload) (kind : SettlementKind) (d : Delivery Payload) :
    srv.history o <+: (srv.settle kind d).history o := by
  unfold settle
  split
  · exact List.prefix_refl _
  · cases kind <;> exact note_history srv _ _

theorem foldl_history {α : Type} {f : Server Payload → α → Server Payload}
    (hf : ∀ srv x, srv.history o <+: (f srv x).history o) (xs : List α) (srv : Server Payload) :
    srv.history o <+: (xs.foldl f srv).history o := by
  induction xs generalizing srv with
  | nil => exact List.prefix_refl _
  | cons x xs ih => exact (hf srv x).trans (ih _)

theorem receive_history (srv : Server Payload) (d : Delivery Payload) (s s' : State Payload) :
    srv.history o <+: (srv.receive d s s').history o := by
  have hscheduled : srv.history o <+:
      (srv.scheduleAll d (s'.retries.drop s.retries.length)).history o :=
    foldl_history (fun srv (copy : String × Message Payload) =>
      schedule_history srv d copy.1 copy.2) _ srv
  refine hscheduled.trans (foldl_history (fun srv y => ?_) _ _)
  exact foldl_history (fun srv d' => settle_history srv y.kind d') _ srv

theorem receive_taken (srv : Server Payload) (d : Delivery Payload) (s s' : State Payload) :
    (srv.receive d s s').taken.Sublist srv.taken := by
  rw [← scheduleAll_taken srv d (s'.retries.drop s.retries.length)]
  unfold receive
  generalize s'.settlements.drop s.settlements.length = settlements
  dsimp only
  generalize hsrv : List.foldl _ srv _ = srv'
  have hsame : srv'.taken = (srv.scheduleAll d (s'.retries.drop s.retries.length)).taken := by
    rw [← hsrv]
    rfl
  rw [← hsame]
  clear hsame hsrv
  induction settlements generalizing srv' with
  | nil => exact List.Sublist.refl _
  | cons y settlements ih => exact (ih _).trans (foldl_settle_taken y.kind y.settled srv')

/-! ## What was published stays as it is -/

theorem observe_published (srv : Server Payload) (d : Delivery Payload) (event : Event Payload) :
    (srv.observe d event).published = srv.published := by
  unfold observe
  split <;> rfl

theorem schedule_published (srv : Server Payload) (d : Delivery Payload) (queue : String)
    (message : Message Payload) : (srv.schedule d queue message).published = srv.published := by
  unfold schedule
  split <;> rfl

theorem settle_published (srv : Server Payload) (kind : SettlementKind) (d : Delivery Payload) :
    (srv.settle kind d).published = srv.published := by
  unfold settle
  split
  · rfl
  · cases kind <;> rfl

theorem foldl_published {α : Type} {f : Server Payload → α → Server Payload}
    (hf : ∀ srv x, (f srv x).published = srv.published) (xs : List α) (srv : Server Payload) :
    (xs.foldl f srv).published = srv.published := by
  induction xs generalizing srv with
  | nil => rfl
  | cons x xs ih => exact (ih _).trans (hf srv x)

theorem receive_published (srv : Server Payload) (d : Delivery Payload) (s s' : State Payload) :
    (srv.receive d s s').published = srv.published := by
  have hscheduled := foldl_published (fun srv (copy : String × Message Payload) =>
    schedule_published srv d copy.1 copy.2) (s'.retries.drop s.retries.length) srv
  refine (foldl_published (fun srv y => ?_) _ _).trans hscheduled
  exact foldl_published (fun srv d' => settle_published srv y.kind d') _ srv

end Server

/-! ## An ack or nack -/

section Receive
variable {srv : Server Payload} {d : Delivery Payload} {kind : SettlementKind}
  {s s₁ : State Payload} {copies : List (String × Message Payload)} {o : ℕ}

/-- The copies arrive, and then the ack or nack, wherever it goes out. -/
theorem receive_settles (hretries : s₁.retries = s.retries ++ copies)
    (hsettlements : s₁.settlements = s.settlements) :
    srv.receive d s (s₁.settle kind d) =
      ((s₁.liveChannel.elim [] fun c =>
        (s₁.channels c).unsettled.filter (·.deliveryTag = d.deliveryTag)).foldl
        (fun srv d' => srv.settle kind d')
        (srv.scheduleAll d copies)) := by
  rw [Server.receive, settle_retries, hretries, List.drop_left]
  cases hlive : s₁.liveChannel with
  | none =>
    have hsame : (s₁.settle kind d).settlements = s.settlements := by
      simp only [State.settle, hlive, hsettlements]
    rw [hsame, List.drop_length]
    rfl
  | some c =>
    rw [settle_settlements hlive, hsettlements, List.drop_left]
    rfl

end Receive

/-! ## What a step of a process is -/

/-- Handling ended with `events`: what was sent, and how its delivery is settled. -/
structure Ending (d : Delivery Payload) (kind : SettlementKind)
    (copies : List (String × Message Payload)) (events : List (Event Payload)) : Prop where
  scheduled : ∀ copy ∈ copies, ∃ n ms, copy = (d.queue ++ ".retry", retryMessage d.message n ms)
  acked : kind = .ack → copies = [] → .succeeded ∈ events

def Server.observeAll (srv : Server Payload) (d : Delivery Payload) (events : List (Event Payload)) :
    Server Payload :=
  events.foldl (fun srv event => srv.observe d event) srv

/-- A step of a process does nothing about deliveries, starts a handler, refuses what does not
parse, or ends a handler. -/
inductive Does (sys sys' : System Payload) : SystemLabel Payload → Prop
  | quiet {l : SystemLabel Payload} (unhandled : ∀ e o, l = .service (.run e o) →
        ∀ d, sys.service.threads e ≠ .handle d)
      (undelivered : ∀ c consumer i, l ≠ .deliver c consumer i)
      (step : ∃ l', step sys.service l' = some sys'.service ∧ ¬l'.Settles sys.service)
      (server : sys'.server = sys.server) : Does sys sys' l
  | starts {c consumer i : ℕ} (copy : Copy Payload) (d : Delivery Payload) (event : Payload)
      (taken : sys.server.ready[i]? = some copy) (queue : d.queue = copy.queue)
      (message : d.message = copy.message) (parsed : copy.message.content = .json event)
      (isOpen : (sys.service.channels d.channel).isOpen = true)
      (tag : d.deliveryTag = (sys.service.channels d.channel).delivered + 1)
      (service : sys'.service = (sys.service.numbered d).spawn (.handle d))
      (server : sys'.server = sys.server.take i copy.origin d) :
      Does sys sys' (.deliver c consumer i)
  | refuses {c consumer i : ℕ} (copy : Copy Payload) (d : Delivery Payload) (raw : String)
      (taken : sys.server.ready[i]? = some copy) (queue : d.queue = copy.queue)
      (message : d.message = copy.message) (malformed : copy.message.content = .malformed raw)
      (isOpen : (sys.service.channels d.channel).isOpen = true)
      (tag : d.deliveryTag = (sys.service.channels d.channel).delivered + 1)
      (service : sys'.service = (sys.service.numbered d).settle .nack d)
      (server : sys'.server =
        (sys.server.take i copy.origin d).receive d sys.service sys'.service) :
      Does sys sys' (.deliver c consumer i)
  | ends {l : SystemLabel Payload} (e : ℕ) (d : Delivery Payload) (kind : SettlementKind)
      (copies : List (String × Message Payload)) (events : List (Event Payload))
      (handled : sys.service.threads e = .handle d) (ending : Ending d kind copies events)
      (label : (l = .service (.run e .ok) ∧ events = [.succeeded]) ∨
        (l = .service (.run e .fails) ∨ l = .unschedulable e) ∧ .succeeded ∉ events)
      (service : sys'.service = (afterHandler sys.service e copies).settle kind d)
      (server : sys'.server =
        (sys.server.observeAll d events).receive d sys.service sys'.service) :
      Does sys sys' l

section Does
variable {sys sys' : System Payload}

/-- The handler rejects. -/
theorem fails_ends (sys : System Payload) (e : ℕ) (d : Delivery Payload) :
    ∃ kind copies, Ending d kind copies [.failed] ∧
      (sys.service.setThread e .done).handlerSettled d .fails =
        (afterHandler sys.service e copies).settle kind d := by
  simp only [State.handlerSettled]
  split
  · exact ⟨.nack, [], ⟨List.forall_mem_nil _, fun h => by cases h⟩, by rw [afterHandler_nil]; rfl⟩
  · cases hr : (sys.service.setThread e .done).scheduleRedelivery d (readRetryCount d.message + 1)
        (retryDelayMs (readRetryCount d.message)) with
    | none =>
      exact ⟨.nack, [], ⟨List.forall_mem_nil _, fun h => by cases h⟩,
        by rw [afterHandler_nil]; rfl⟩
    | some s' =>
      obtain ⟨_, -, rfl⟩ := Option.map_eq_some_iff.mp hr
      refine ⟨.ack, [_], ⟨fun copy hcopy => ?_, fun _ h => by cases h⟩, rfl⟩
      exact ⟨_, _, List.mem_singleton.mp hcopy⟩

theorem serviceStep_does {l : Label Payload} (h : serviceStep sys l = some sys') :
    Does sys sys' (.service l) := by
  have hquiet : ∀ {s'}, (∀ e o, l = .run e o → ∀ d, sys.service.threads e ≠ .handle d) →
      ¬l.Settles sys.service → step sys.service l = some s' → sys' = ⟨s', sys.server⟩ →
      Does sys sys' (.service l) := by
    rintro s' hth hl hstep rfl
    exact .quiet (fun e o hlabel => hth e o (SystemLabel.service.inj hlabel)) (by simp)
      ⟨l, hstep, hl⟩ rfl
  cases l with
  | deliver c consumer message => cases h
  | run e o =>
    obtain ⟨s', hstep, heq⟩ := Option.map_eq_some_iff.mp h
    cases he : sys.service.threads e with
    | handle d =>
      simp only [he] at heq
      simp only [step, advance, he, Option.some.injEq] at hstep
      subst hstep
      subst heq
      cases o with
      | ok =>
        refine .ends e d .ack [] [.succeeded] he ⟨List.forall_mem_nil _, fun _ _ => .head _⟩
          (Or.inl ⟨rfl, rfl⟩) ?_ rfl
        rw [afterHandler_nil]
        rfl
      | fails =>
        obtain ⟨kind, copies, hending, hservice⟩ := fails_ends sys e d
        exact .ends e d kind copies [.failed] he hending (Or.inr ⟨Or.inl rfl, by simp⟩) hservice rfl
    | _ =>
      simp only [he] at heq
      refine hquiet (fun e' o' hlabel d hd => ?_) ?_ hstep heq.symm
      · cases hlabel
        cases he.symm.trans hd
      · rintro ⟨d, hd⟩
        cases he.symm.trans hd
  | _ =>
    simp only [serviceStep] at h
    obtain ⟨s', hstep, heq⟩ := Option.map_eq_some_iff.mp h
    exact hquiet (fun _ _ hlabel => by cases hlabel) id hstep heq.symm

theorem systemStep_does {l : SystemLabel Payload} (hl : l.ofService = true)
    (h : systemStep sys l = some sys') : Does sys sys' l := by
  cases l with
  | publish queue message => cases hl
  | expire i queue => cases hl
  | deliver c consumer i =>
    simp only [systemStep] at h
    split at h
    · cases h
    · next copy hi =>
      split at h
      · next hconsumes =>
        obtain ⟨s', hstep, rfl⟩ := Option.map_eq_some_iff.mp h
        obtain ⟨hopen, rfl⟩ := deliver_eq hconsumes hstep
        cases hparsed : copy.message.content with
        | json event =>
          refine .starts copy ⟨c, (sys.service.channels c).delivered + 1, consumer, copy.queue,
            copy.message⟩ event hi rfl rfl hparsed hopen rfl ?_ ?_
          · simp only [State.handleMessage, hparsed]
          · simp only [State.handleMessage, hparsed]
            exact receive_started _ _
        | malformed raw =>
          refine .refuses copy ⟨c, (sys.service.channels c).delivered + 1, consumer, copy.queue,
            copy.message⟩ raw hi rfl rfl hparsed hopen rfl ?_ rfl
          simp only [State.handleMessage, hparsed]
          rfl
      · cases h
  | unschedulable e =>
    simp only [systemStep] at h
    split at h
    · next d he =>
      split at h
      · cases h
        refine .ends e d .nack [] [.failed, .unscheduled] he
          ⟨List.forall_mem_nil _, fun hack => by cases hack⟩ (Or.inr ⟨Or.inr rfl, by simp⟩) ?_ rfl
        rw [afterHandler_nil]
        rfl
      · cases h
    · cases h
  | service l => exact serviceStep_does h

end Does

/-! ## What every step keeps -/

/-- A delivery that is out has its number from its channel, and its handler works on it. -/
structure Tracked (sys : System Payload) : Prop where
  deliveries : Deliveries sys.service
  distinct : Distinct sys.server.taken
  numbered : ∀ x ∈ sys.server.taken, x.2.channel < sys.service.nextChannel ∧
    x.2.deliveryTag ≤ (sys.service.channels x.2.channel).delivered
  handled : ∀ e d, sys.service.threads e = .handle d →
    ∀ x ∈ sys.server.taken, sameDelivery x.2 d = true → x.2 = d

section Tracked
variable {sys sys' : System Payload}

theorem Server.observeAll_taken (srv : Server Payload) (d : Delivery Payload)
    (events : List (Event Payload)) : (srv.observeAll d events).taken = srv.taken := by
  induction events generalizing srv with
  | nil => rfl
  | cons event events ih => exact (ih _).trans (observe_taken srv d event)

/-- The numbers of a channel that exists do not go back. -/
theorem numbered_of_le {s s' : State Payload} {taken taken' : List (ℕ × Delivery Payload)}
    (h : ∀ x ∈ taken, x.2.channel < s.nextChannel ∧
      x.2.deliveryTag ≤ (s.channels x.2.channel).delivered)
    (hsub : ∀ x ∈ taken', x ∈ taken) (hnext : s.nextChannel ≤ s'.nextChannel)
    (hdelivered : ∀ c < s.nextChannel, (s.channels c).delivered ≤ (s'.channels c).delivered) :
    ∀ x ∈ taken', x.2.channel < s'.nextChannel ∧
      x.2.deliveryTag ≤ (s'.channels x.2.channel).delivered := by
  intro x hx
  obtain ⟨hlt, hle⟩ := h x (hsub x hx)
  exact ⟨Nat.lt_of_lt_of_le hlt hnext, Nat.le_trans hle (hdelivered _ hlt)⟩

theorem settle_delivered (s : State Payload) (kind : SettlementKind) (d : Delivery Payload)
    (c : ℕ) : ((s.settle kind d).channels c).delivered = (s.channels c).delivered := by
  cases hlive : s.liveChannel with
  | none => simp only [State.settle, hlive]
  | some c' => exact (settle_channels hlive kind d c).2.1

/-- A new delivery is told apart from all that are out. -/
theorem Tracked.new_delivery (hs : Tracked sys) {d : Delivery Payload}
    (htag : d.deliveryTag = (sys.service.channels d.channel).delivered + 1) :
    ∀ x ∈ sys.server.taken, sameDelivery x.2 d = false := by
  intro x hx
  refine Bool.eq_false_iff.mpr fun hsame => ?_
  simp only [sameDelivery, Bool.and_eq_true, decide_eq_true_eq] at hsame
  have hle := (hs.numbered x hx).2
  rw [hsame.1] at hle
  omega

theorem Tracked.take_distinct (hs : Tracked sys) {d : Delivery Payload}
    (htag : d.deliveryTag = (sys.service.channels d.channel).delivered + 1) (i o : ℕ) :
    Distinct (sys.server.take i o d).taken := by
  refine List.pairwise_append.mpr ⟨hs.distinct, List.pairwise_singleton _ _, fun x hx y hy => ?_⟩
  rw [List.mem_singleton.mp hy]
  exact hs.new_delivery htag x hx

theorem numbered_delivered (s : State Payload) (d : Delivery Payload) (c : ℕ) :
    ((s.numbered d).channels c).delivered =
      (s.channels c).delivered + if c = d.channel then 1 else 0 := by
  simp only [State.numbered, State.setChannel, Function.update_apply]
  split
  · next h => rw [h]
  · rfl

theorem Tracked.take_numbered (hs : Tracked sys) {d : Delivery Payload}
    (hopen : (sys.service.channels d.channel).isOpen = true)
    (htag : d.deliveryTag = (sys.service.channels d.channel).delivered + 1) (i o : ℕ) :
    ∀ x ∈ (sys.server.take i o d).taken, x.2.channel < sys.service.nextChannel ∧
      x.2.deliveryTag ≤ ((sys.service.numbered d).channels x.2.channel).delivered := by
  intro x hx
  rw [numbered_delivered]
  rcases List.mem_append.mp hx with hx | hx
  · obtain ⟨hlt, hle⟩ := hs.numbered x hx
    exact ⟨hlt, Nat.le_trans hle (Nat.le_add_right _ _)⟩
  · rw [List.mem_singleton.mp hx]
    refine ⟨Nat.lt_of_not_le fun hle => ?_, Nat.le_of_eq (by rw [if_pos rfl, htag])⟩
    rw [(hs.deliveries.beyond _ hle).1] at hopen
    cases hopen

theorem step_tracked {l : SystemLabel Payload} (hs : Tracked sys) (h : Does sys sys' l) :
    Tracked sys' := by
  obtain ⟨service, server⟩ := sys
  obtain ⟨service', server'⟩ := sys'
  cases h with
  | quiet _ _ step hserver =>
    obtain ⟨l', hstep, hl'⟩ := step
    have hquiet : Quiet service service' := step_quiet hl' hstep
    simp only at hserver
    subst hserver
    refine ⟨hquiet.deliveries hs.deliveries, hs.distinct, ?_, fun e d he => ?_⟩
    · exact numbered_of_le hs.numbered (fun _ hx => hx) hquiet.nextChannel
        fun c hc => Nat.le_of_eq (hquiet.delivered c hc).symm
    · exact hs.handled e d (hquiet.handles e d he)
  | starts copy d event taken queue message parsed isOpen tag hservice hserver =>
    simp only at hservice hserver isOpen tag
    subst hservice
    subst hserver
    obtain ⟨hnumbered, hpending, hfree⟩ := numbered_deliveries hs.deliveries isOpen tag
    refine ⟨spawn_deliveries hnumbered hpending hfree, hs.take_distinct tag _ _,
      hs.take_numbered isOpen tag _ _, fun e d' he x hx hsame => ?_⟩
    have hcases : d' = d ∨ service.threads e = .handle d' := by
      simp only [State.spawn, State.setThread, Function.update_apply] at he
      split at he
      · exact Or.inl (Thread.handle.inj he).symm
      · exact Or.inr he
    rcases List.mem_append.mp hx with hout | hnew
    · rcases hcases with rfl | hold
      · have hother := hs.new_delivery tag x hout
        rw [hsame] at hother
        cases hother
      · exact hs.handled e d' hold x hout hsame
    · rw [List.mem_singleton.mp hnew] at hsame ⊢
      rcases hcases with rfl | hold
      · rfl
      · have hle := (hs.deliveries.pending e d' hold).deliveryTag
        simp only [sameDelivery, Bool.and_eq_true, decide_eq_true_eq] at hsame
        rw [← hsame.1, ← hsame.2] at hle
        simp only at hle
        omega
  | @refuses c consumer i copy d raw taken queue message malformed isOpen tag hservice hserver =>
    simp only at hservice hserver isOpen tag
    subst hservice
    subst hserver
    obtain ⟨hnumbered, hpending, hfree⟩ := numbered_deliveries hs.deliveries isOpen tag
    have hsub := Server.receive_taken (server.take i copy.origin d) d service
      ((service.numbered d).settle .nack d)
    refine ⟨settle_deliveries hnumbered hpending hfree, (hs.take_distinct tag _ _).sublist hsub, ?_,
      fun e d' he x hx hsame => ?_⟩
    · refine numbered_of_le (s := service.numbered d) (hs.take_numbered isOpen tag i copy.origin)
        (fun _ hx => hsub.subset hx) ?_ ?_
      · exact Nat.le_of_eq (settle_frame (service.numbered d) .nack d).2.symm
      · exact fun c _ => Nat.le_of_eq (settle_delivered (service.numbered d) .nack d c).symm
    · rw [(settle_frame _ _ _).1] at he
      rcases List.mem_append.mp (hsub.subset hx) with hout | hnew
      · exact hs.handled e d' he x hout hsame
      · rw [List.mem_singleton.mp hnew] at hsame ⊢
        have hle := (hs.deliveries.pending e d' he).deliveryTag
        simp only [sameDelivery, Bool.and_eq_true, decide_eq_true_eq] at hsame
        rw [← hsame.1, ← hsame.2] at hle
        simp only at hle
        omega
  | ends e d kind copies events handled ending label hservice hserver =>
    simp only at hservice hserver handled
    subst hservice
    subst hserver
    have hsub := Server.receive_taken (server.observeAll d events) d service
      ((afterHandler service e copies).settle kind d)
    rw [Server.observeAll_taken] at hsub
    refine ⟨(ended_keeps kind _ hs.deliveries handled).1, hs.distinct.sublist hsub, ?_,
      fun e' d' he x hx hsame => ?_⟩
    · refine numbered_of_le hs.numbered (fun _ hx => hsub.subset hx) ?_ ?_
      · exact Nat.le_of_eq (settle_frame (afterHandler service e copies) kind d).2.symm
      · exact fun c _ => Nat.le_of_eq (settle_delivered (afterHandler service e copies) kind d c).symm
    · rw [(settle_frame _ _ _).1] at he
      refine hs.handled e' d' ?_ x (hsub.subset hx) hsame
      simp only [afterHandler, State.setThread, Function.update_apply] at he
      split at he
      · cases he
      · exact he

theorem Server.observeAll_history (srv : Server Payload) (d : Delivery Payload)
    (events : List (Event Payload)) {o : ℕ} :
    srv.history o <+: (srv.observeAll d events).history o :=
  foldl_history (fun srv event => observe_history srv d event) events srv

theorem step_history {l : SystemLabel Payload} (h : Does sys sys' l) (o : ℕ) :
    sys.server.history o <+: sys'.server.history o := by
  cases h with
  | quiet _ _ step hserver =>
    exact hserver ▸ List.prefix_refl _
  | starts copy d event taken queue message parsed isOpen tag hservice hserver =>
    rw [hserver]
    exact Server.note_history _ _ _
  | refuses copy d raw taken queue message malformed isOpen tag hservice hserver =>
    rw [hserver]
    refine List.IsPrefix.trans ?_ (Server.receive_history _ d _ _)
    exact Server.note_history _ _ _
  | ends e d kind copies events handled ending label hservice hserver =>
    rw [hserver]
    exact (Server.observeAll_history _ d events).trans (Server.receive_history _ d _ _)

theorem step_published {l : SystemLabel Payload} (h : Does sys sys' l) :
    sys'.server.published = sys.server.published := by
  cases h with
  | quiet _ _ step hserver => rw [hserver]
  | starts copy d event taken queue message parsed isOpen tag hservice hserver =>
    rw [hserver]
    rfl
  | refuses copy d raw taken queue message malformed isOpen tag hservice hserver =>
    rw [hserver, Server.receive_published]
    rfl
  | ends e d kind copies events handled ending label hservice hserver =>
    rw [hserver, Server.receive_published]
    exact Server.foldl_published (fun srv event => Server.observe_published srv d event) events _

end Tracked

end Bumpa.Broker.Redelivery
