import Bumpa.Broker.ProcessSteps

/-! # No message is lost on the server

A message that the exchange has put into a queue has a copy there, out with a consumer, in the retry
queue or in the dead-letter queue, until a handler succeeds with it. Channels are lost and processes
crash at any time; what they had not settled is ready again, so a message may be handled more than
once.

The one way out is an ack that goes out on another channel than the one its message came from, and
settles the delivery that has the same number there (`Crosses`). `messages_conserved` says it of
every run of any number of processes.
-/
namespace Bumpa.Broker.Redelivery
open Bumpa.Transition
set_option autoImplicit false

variable {Payload : Type}

/-- There is a copy of the message. -/
def Server.Holds (srv : Server Payload) (o : ℕ) : Prop :=
  (∃ copy ∈ srv.ready, copy.origin = o) ∨ (∃ x ∈ srv.taken, x.1 = o) ∨
    (∃ copy ∈ srv.retry, copy.origin = o) ∨ ∃ copy ∈ srv.dead, copy.origin = o

/-- A handler was called with the message and has resolved. -/
def Server.Succeeded (srv : Server Payload) (o : ℕ) : Prop := .succeeded ∈ srv.history o

/-- An ack for a delivery on another channel settles one of the message. -/
def Crosses (sys sys' : System Payload) (o : ℕ) : Prop :=
  ∃ y ∈ sys'.service.settlements.drop sys.service.settlements.length,
    y.kind = .ack ∧ y.channel ≠ y.handled.channel ∧
      ∃ d ∈ y.settled, ∃ x ∈ sys.server.taken, x.1 = o ∧ sameDelivery x.2 d = true

/-! ## What the server does with its copies -/

namespace Server
variable {srv : Server Payload} {o : ℕ} {d : Delivery Payload}

theorem holds_observe (srv : Server Payload) (d : Delivery Payload) (event : Event Payload) :
    (srv.observe d event).Holds o ↔ srv.Holds o := by
  unfold observe
  split <;> rfl

/-- A copy of the delivered message is kept, and of every other message as well. -/
theorem holds_schedule (queue : String) (message : Message Payload) (h : srv.Holds o) :
    (srv.schedule d queue message).Holds o := by
  unfold schedule
  split
  · exact h
  · rcases h with hready | htaken | ⟨copy, hmem, horigin⟩ | hdead
    · exact Or.inl hready
    · exact Or.inr (Or.inl htaken)
    · exact Or.inr (Or.inr (Or.inl ⟨copy, List.mem_append_left _ hmem, horigin⟩))
    · exact Or.inr (Or.inr (Or.inr hdead))

/-- Nothing but the settled delivery leaves, and a nack moves that to the dead letters. -/
theorem holds_settle (hdistinct : Distinct srv.taken) (kind : SettlementKind) (h : srv.Holds o) :
    (srv.settle kind d).Holds o ∨
      (kind = .ack ∧ ∃ x ∈ srv.taken, x.1 = o ∧ sameDelivery x.2 d = true) := by
  unfold settle
  cases horigin : srv.origin d with
  | none => exact Or.inl h
  | some o' =>
    rcases h with hready | ⟨x, hx, rfl⟩ | hretry | ⟨copy, hmem, hcopy⟩
    · exact Or.inl (by cases kind <;> exact Or.inl hready)
    · cases hsame : sameDelivery x.2 d with
      | false =>
        have hkept : x ∈ srv.taken.filter fun x => !sameDelivery x.2 d :=
          List.mem_filter.mpr ⟨hx, by rw [hsame]; rfl⟩
        exact Or.inl (by cases kind <;> exact Or.inr (Or.inl ⟨x, hkept, rfl⟩))
      | true =>
        cases kind with
        | ack => exact Or.inr ⟨rfl, x, hx, rfl, hsame⟩
        | nack =>
          have heq := origin_of_same hdistinct hx hsame
          rw [horigin, Option.some.injEq] at heq
          exact Or.inl (Or.inr (Or.inr (Or.inr ⟨_, List.mem_append_right _ (.head _), heq⟩)))
    · exact Or.inl (by cases kind <;> exact Or.inr (Or.inr (Or.inl hretry)))
    · refine Or.inl ?_
      cases kind with
      | ack => exact Or.inr (Or.inr (Or.inr ⟨copy, hmem, hcopy⟩))
      | nack => exact Or.inr (Or.inr (Or.inr ⟨copy, List.mem_append_left _ hmem, hcopy⟩))

theorem holds_foldl_settle (kind : SettlementKind) {ds : List (Delivery Payload)}
    (hdistinct : Distinct srv.taken) (h : srv.Holds o) :
    (ds.foldl (fun srv d => srv.settle kind d) srv).Holds o ∨
      (kind = .ack ∧ ∃ d ∈ ds, ∃ x ∈ srv.taken, x.1 = o ∧ sameDelivery x.2 d = true) := by
  induction ds generalizing srv with
  | nil => exact Or.inl h
  | cons d ds ih =>
    have hsub := settle_taken srv kind d
    rcases holds_settle (d := d) hdistinct kind h with hkept | ⟨hack, hgone⟩
    · rcases ih (hdistinct.sublist hsub) hkept with hheld | ⟨hack, d', hd', x, hx, hx'⟩
      · exact Or.inl hheld
      · exact Or.inr ⟨hack, d', List.mem_cons_of_mem d hd', x, hsub.subset hx, hx'⟩
    · exact Or.inr ⟨hack, d, .head _, hgone⟩

theorem holds_scheduleAll (copies : List (String × Message Payload)) (h : srv.Holds o) :
    (srv.scheduleAll d copies).Holds o := by
  induction copies generalizing srv with
  | nil => exact h
  | cons copy copies ih => exact ih (holds_schedule copy.1 copy.2 h)

theorem holds_observeAll (srv : Server Payload) (d : Delivery Payload)
    (events : List (Event Payload)) {o : ℕ} :
    (srv.observeAll d events).Holds o ↔ srv.Holds o := by
  induction events generalizing srv with
  | nil => rfl
  | cons event events ih => exact (ih _).trans (holds_observe srv d event)

theorem holds_take {i : ℕ} {copy : Copy Payload}
    (hi : srv.ready[i]? = some copy) (d : Delivery Payload) (h : srv.Holds o) :
    (srv.take i copy.origin d).Holds o := by
  rcases h with ⟨copy', hmem, horigin⟩ | ⟨x, hx, hx'⟩ | hretry | hdead
  · obtain ⟨l₁, l₂, hl, herase⟩ := eraseIdx_split hi
    rw [hl, List.mem_append, List.mem_cons] at hmem
    have hcases : copy' = copy ∨ copy' ∈ srv.ready.eraseIdx i := by
      rw [herase, List.mem_append]
      tauto
    rcases hcases with rfl | hstays
    · exact Or.inr (Or.inl ⟨_, List.mem_append_right _ (.head _), horigin⟩)
    · exact Or.inl ⟨copy', hstays, horigin⟩
  · exact Or.inr (Or.inl ⟨x, List.mem_append_left _ hx, hx'⟩)
  · exact Or.inr (Or.inr (Or.inl hretry))
  · exact Or.inr (Or.inr (Or.inr hdead))

theorem Succeeded.of_history {srv' : Server Payload} (h : srv.Succeeded o)
    (hgrows : srv.history o <+: srv'.history o) : srv'.Succeeded o :=
  hgrows.subset h

theorem observe_succeeded (h : srv.origin d = some o) : (srv.observe d .succeeded).Succeeded o := by
  rw [Succeeded, observe, h]
  simp [note]

theorem observeAll_succeeded {events : List (Event Payload)} (hevents : .succeeded ∈ events)
    (h : srv.origin d = some o) : (srv.observeAll d events).Succeeded o := by
  induction events generalizing srv with
  | nil => cases hevents
  | cons event events ih =>
    rcases List.mem_cons.mp hevents with rfl | hlater
    · exact (observe_succeeded h).of_history (observeAll_history _ d events)
    · refine ih hlater ?_
      rw [origin, observe_taken]
      exact h

end Server

/-! ## One step keeps every message -/

section Step
variable {srv : Server Payload} {d : Delivery Payload}
  {s s₁ : State Payload} {copies : List (String × Message Payload)} {sys sys' : System Payload}
  {o : ℕ}

/-- The message is kept, its own delivery is acked without a copy, or an ack crosses. -/
theorem holds_receive (kind : SettlementKind) (hdistinct : Distinct srv.taken)
    (hnumbered : ∀ c, ∀ d' ∈ (s₁.channels c).unsettled, d'.channel = c)
    (hretries : s₁.retries = s.retries ++ copies)
    (hsettlements : s₁.settlements = s.settlements) (h : srv.Holds o) :
    (srv.receive d s (s₁.settle kind d)).Holds o ∨
      kind = .ack ∧ (copies = [] ∧ srv.origin d = some o ∨
        ∃ y ∈ (s₁.settle kind d).settlements.drop s.settlements.length,
          y.kind = .ack ∧ y.channel ≠ y.handled.channel ∧
            ∃ d' ∈ y.settled, ∃ x ∈ srv.taken, x.1 = o ∧ sameDelivery x.2 d' = true) := by
  have hdistinct' : Distinct (srv.scheduleAll d copies).taken := by
    rw [Server.scheduleAll_taken]
    exact hdistinct
  rw [receive_settles hretries hsettlements]
  rcases Server.holds_foldl_settle kind hdistinct' (Server.holds_scheduleAll copies h) with
    hkept | ⟨hack, d', hd', hx⟩
  · exact Or.inl hkept
  cases hlive : s₁.liveChannel with
  | none =>
    rw [hlive] at hd'
    cases hd'
  | some c =>
    simp only [hlive, Option.elim_some] at hd'
    obtain ⟨x, hx, rfl, hsame⟩ := hx
    rw [Server.scheduleAll_taken] at hx
    by_cases hc : c = d.channel
    · obtain ⟨hmem, htag⟩ := List.mem_filter.mp hd'
      have hown : sameDelivery d' d = true := by
        rw [sameDelivery, hnumbered c d' hmem, hc]
        simpa using htag
      have horigin := Server.origin_of_same hdistinct hx (sameDelivery_trans hsame hown)
      by_cases hcopies : copies = []
      · exact Or.inr ⟨hack, Or.inl ⟨hcopies, horigin⟩⟩
      · obtain ⟨copy, hcopy, hheld⟩ := Server.exists_scheduled hcopies horigin
        refine Or.inl (Or.inr (Or.inr (Or.inl ⟨copy, ?_, hheld⟩)))
        rw [Server.foldl_settle_retry]
        exact hcopy
    · refine Or.inr ⟨hack, Or.inr ⟨⟨kind, d, c, _⟩, ?_, hack, hc, d', hd', x, hx, rfl, hsame⟩⟩
      rw [settle_settlements hlive, hsettlements, List.drop_left]
      exact .head _

theorem afterHandler_numbered {s : State Payload} (hs : Deliveries s) (e : ℕ)
    (copies : List (String × Message Payload)) (c : ℕ) :
    ∀ d ∈ ((afterHandler s e copies).channels c).unsettled, d.channel = c :=
  fun d hd => (hs.numbered c d hd).1

theorem step_holds {l : SystemLabel Payload} (hs : Tracked sys) (h : Does sys sys' l)
    (ho : sys.server.Holds o) :
    sys'.server.Holds o ∨ sys'.server.Succeeded o ∨ Crosses sys sys' o := by
  cases h with
  | quiet _ _ step hserver =>
    rw [hserver]
    exact Or.inl ho
  | starts copy d event taken queue message parsed isOpen tag hservice hserver =>
    rw [hserver]
    exact Or.inl (Server.holds_take taken d ho)
  | @refuses c consumer i copy d raw taken queue message malformed isOpen tag hservice hserver =>
    rw [hserver, hservice]
    have hnumbered := (numbered_deliveries hs.deliveries isOpen tag).1.numbered
    have hretries : (sys.service.numbered d).retries = sys.service.retries ++ [] :=
      (List.append_nil _).symm
    rcases holds_receive .nack (hs.take_distinct tag i copy.origin)
        (fun c d' hd' => (hnumbered c d' hd').1) hretries rfl (Server.holds_take taken d ho) with
      hheld | ⟨hack, _⟩
    · exact Or.inl hheld
    · cases hack
  | ends e d kind copies events handled ending label hservice hserver =>
    have hdistinct : Distinct (sys.server.observeAll d events).taken := by
      rw [Server.observeAll_taken]
      exact hs.distinct
    have hheld := (Server.holds_observeAll sys.server d events).mpr ho
    rcases holds_receive kind (d := d) hdistinct
        (afterHandler_numbered hs.deliveries e copies) rfl rfl hheld with
      hkept | ⟨hack, ⟨hnone, horigin⟩ | ⟨y, hy, hyack, hyc, d', hd', x, hx, hxo, hsame⟩⟩
    · rw [hserver, hservice]
      exact Or.inl hkept
    · refine Or.inr (Or.inl ?_)
      rw [Server.origin, Server.observeAll_taken] at horigin
      have hsucceeded := Server.observeAll_succeeded (ending.acked hack hnone) horigin
      rw [hserver]
      exact hsucceeded.of_history (Server.receive_history _ d _ _)
    · rw [Server.observeAll_taken] at hx
      refine Or.inr (Or.inr ⟨y, ?_, hyack, hyc, d', hd', x, hx, hxo, hsame⟩)
      rw [hservice]
      exact hy

end Step

/-! ## The fleet -/

def Fleet.Holds (f : Fleet Payload) (o : ℕ) : Prop := ∃ p, (f.system p).server.Holds o

def Fleet.Succeeded (f : Fleet Payload) (o : ℕ) : Prop := .succeeded ∈ f.history o

/-- The message is lost to an ack for another one. -/
def Loses (o : ℕ) (x : Move (Fleet Payload) (FleetLabel Payload)) : Prop :=
  ∃ p l, x.label = .run p l ∧ Crosses (x.source.system p) (x.target.system p) o

section Fleet
variable {f f' : Fleet Payload} {o : ℕ}

theorem Fleet.holds_iff : f.Holds o ↔ (∃ copy ∈ f.ready, copy.origin = o) ∨
    (∃ p, ∃ x ∈ f.taken p, x.1 = o) ∨ (∃ copy ∈ f.retry, copy.origin = o) ∨
      ∃ copy ∈ f.dead, copy.origin = o := by
  constructor
  · rintro ⟨p, hready | htaken | hretry | hdead⟩
    · exact Or.inl hready
    · exact Or.inr (Or.inl ⟨p, htaken⟩)
    · exact Or.inr (Or.inr (Or.inl hretry))
    · exact Or.inr (Or.inr (Or.inr hdead))
  · rintro (hready | ⟨p, htaken⟩ | hretry | hdead)
    · exact ⟨0, Or.inl hready⟩
    · exact ⟨p, Or.inr (Or.inl htaken)⟩
    · exact ⟨0, Or.inr (Or.inr (Or.inl hretry))⟩
    · exact ⟨0, Or.inr (Or.inr (Or.inr hdead))⟩

/-- A delivery that is not settled is out or ready again. -/
theorem Server.holds_requeue {srv : Server Payload} (s : State Payload) (h : srv.Holds o) :
    (srv.requeue s).Holds o := by
  rcases h with ⟨copy, hmem, horigin⟩ | ⟨x, hx, hx'⟩ | hretry | hdead
  · exact Or.inl ⟨copy, List.mem_append_left _ hmem, horigin⟩
  · cases hopen : (s.channels x.2.channel).isOpen with
    | true => exact Or.inr (Or.inl ⟨x, List.mem_filter.mpr ⟨hx, hopen⟩, hx'⟩)
    | false =>
      have hclosed : x ∈ srv.taken.filter fun x => !(s.channels x.2.channel).isOpen :=
        List.mem_filter.mpr ⟨hx, by rw [hopen]; rfl⟩
      exact Or.inl ⟨requeued x, List.mem_append_right _ (List.mem_map_of_mem hclosed), hx'⟩
  · exact Or.inr (Or.inr (Or.inl hretry))
  · exact Or.inr (Or.inr (Or.inr hdead))

/-- A step of process `p`, and the deliveries that are out with the others. -/
theorem run_step {p : ℕ} {l : SystemLabel Payload} (h : fleetStep f (.run p l) = some f') :
    ∃ sys, Does (f.system p) sys l ∧ f' = f.put p ⟨sys.service, sys.server.requeue sys.service⟩ := by
  simp only [fleetStep] at h
  split at h
  · next hcan =>
    obtain ⟨sys, hstep, rfl⟩ := Option.map_eq_some_iff.mp h
    exact ⟨sys, systemStep_does hcan.2 hstep, rfl⟩
  · cases h

theorem put_system (f : Fleet Payload) (p : ℕ) (sys : System Payload) :
    (f.put p sys).system p = sys := by
  simp only [Fleet.system, Fleet.put, Function.update_self]

theorem put_system_of_ne (f : Fleet Payload) {p p' : ℕ} (sys : System Payload) (h : p' ≠ p) :
    ((f.put p sys).system p').service = (f.system p').service ∧
      ((f.put p sys).system p').server.taken = (f.system p').server.taken := by
  simp [Fleet.system, Fleet.put, h]

/-- A process that does nothing has no deliveries. -/
theorem fleetStep_idle {p : ℕ} {l : FleetLabel Payload} (hl : ∀ l', l ≠ .run p l')
    (h : fleetStep f l = some f') (hp : f.taken p = []) : f'.taken p = [] := by
  cases l with
  | publish queue message =>
    simp only [fleetStep] at h
    split at h <;> cases h
    exact hp
  | expire i queue =>
    simp only [fleetStep] at h
    split at h
    · cases h
    · split at h <;> cases h
      exact hp
  | run p' l =>
    obtain ⟨sys, -, rfl⟩ := run_step h
    have hne : p ≠ p' := fun heq => hl l (by rw [heq])
    exact (put_system_of_ne f _ hne).2.trans hp
  | crash p' =>
    simp only [fleetStep] at h
    split at h <;> cases h
    simp only [Fleet.crash, Function.update_apply]
    split
    · rfl
    · exact hp

theorem Tracked.congr {sys sys' : System Payload} (hs : Tracked sys)
    (hservice : sys'.service = sys.service) (htaken : sys'.server.taken.Sublist sys.server.taken) :
    Tracked sys' where
  deliveries := hservice ▸ hs.deliveries
  distinct := hs.distinct.sublist htaken
  numbered := fun x hx => hservice ▸ hs.numbered x (htaken.subset hx)
  handled := fun e d he x hx => hs.handled e d (hservice ▸ he) x (htaken.subset hx)

/-- One step: every process stays tracked, and a message that was there is there still, or a handler
has succeeded with it, or the step loses it. -/
theorem fleetStep_tracked {l : FleetLabel Payload} (hs : ∀ p, Tracked (f.system p))
    (h : fleetStep f l = some f') : ∀ p, Tracked (f'.system p) := by
  intro p
  cases l with
  | publish queue message =>
    simp only [fleetStep] at h
    split at h <;> cases h
    exact (hs p).congr rfl (List.Sublist.refl _)
  | expire i queue =>
    simp only [fleetStep] at h
    split at h
    · cases h
    · split at h <;> cases h
      exact (hs p).congr rfl (List.Sublist.refl _)
  | run p' l =>
    obtain ⟨sys, hdoes, rfl⟩ := run_step h
    by_cases hp : p = p'
    · subst hp
      rw [put_system]
      exact (step_tracked (hs p) hdoes).congr rfl List.filter_sublist
    · obtain ⟨hservice, htaken⟩ := put_system_of_ne f
        ⟨sys.service, sys.server.requeue sys.service⟩ hp
      exact (hs p).congr hservice (htaken ▸ List.Sublist.refl _)
  | crash p' =>
    simp only [fleetStep] at h
    split at h <;> cases h
    refine (hs p).congr rfl ?_
    simp only [Fleet.system, Fleet.crash, Function.update_apply]
    split
    · exact List.nil_sublist _
    · exact List.Sublist.refl _

theorem fleetStep_holds {l : FleetLabel Payload} (hs : ∀ p, Tracked (f.system p))
    (h : fleetStep f l = some f') (ho : f.Holds o) :
    f'.Holds o ∨ f'.Succeeded o ∨ Loses o ⟨f, l, f'⟩ := by
  cases l with
  | publish queue message =>
    simp only [fleetStep] at h
    split at h <;> cases h
    obtain ⟨p, ⟨copy, hmem, horigin⟩ | hrest⟩ := ho
    · exact Or.inl ⟨p, Or.inl ⟨copy, List.mem_append_left _ hmem, horigin⟩⟩
    · exact Or.inl ⟨p, Or.inr hrest⟩
  | expire i queue =>
    simp only [fleetStep] at h
    split at h
    · cases h
    · next copy hi =>
      split at h <;> cases h
      refine Or.inl (Fleet.holds_iff.mpr ?_)
      rcases Fleet.holds_iff.mp ho with ⟨copy', hmem, horigin⟩ | htaken | ⟨copy', hmem, horigin⟩ | hdead
      · exact Or.inl ⟨copy', List.mem_append_left _ hmem, horigin⟩
      · exact Or.inr (Or.inl htaken)
      · obtain ⟨l₁, l₂, hl, herase⟩ := eraseIdx_split hi
        rw [hl, List.mem_append, List.mem_cons] at hmem
        have hcases : copy' = copy ∨ copy' ∈ f.retry.eraseIdx i := by
          rw [herase, List.mem_append]
          tauto
        rcases hcases with rfl | hstays
        · exact Or.inl ⟨_, List.mem_append_right _ (.head _), horigin⟩
        · exact Or.inr (Or.inr (Or.inl ⟨copy', hstays, horigin⟩))
      · exact Or.inr (Or.inr (Or.inr hdead))
  | run p l =>
    obtain ⟨sys, hdoes, rfl⟩ := run_step h
    have hsystem := put_system f p ⟨sys.service, sys.server.requeue sys.service⟩
    -- the copies that are out with another process stay where they are
    have hcases : (f.system p).server.Holds o ∨ ∃ p', p' ≠ p ∧ ∃ x ∈ f.taken p', x.1 = o := by
      rcases Fleet.holds_iff.mp ho with hready | ⟨p', htaken⟩ | hrest
      · exact Or.inl (Or.inl hready)
      · by_cases hp : p' = p
        · exact Or.inl (Or.inr (Or.inl (hp ▸ htaken)))
        · exact Or.inr ⟨p', hp, htaken⟩
      · exact Or.inl (Or.inr (Or.inr hrest))
    rcases hcases with hhere | ⟨p', hp, x, hx, hxo⟩
    · rcases step_holds (hs p) hdoes hhere with hheld | hsucceeded | hcrosses
      · refine Or.inl ⟨p, ?_⟩
        rw [hsystem]
        exact Server.holds_requeue _ hheld
      · exact Or.inr (Or.inl hsucceeded)
      · refine Or.inr (Or.inr ⟨p, l, rfl, ?_⟩)
        rw [hsystem]
        exact hcrosses
    · refine Or.inl ⟨p', Or.inr (Or.inl ⟨x, ?_, hxo⟩)⟩
      rw [(put_system_of_ne f _ hp).2]
      exact hx
  | crash p =>
    simp only [fleetStep] at h
    split at h <;> cases h
    refine Or.inl (Fleet.holds_iff.mpr ?_)
    rcases Fleet.holds_iff.mp ho with ⟨copy, hmem, horigin⟩ | ⟨p', x, hx, hxo⟩ | hrest
    · exact Or.inl ⟨copy, List.mem_append_left _ hmem, horigin⟩
    · by_cases hp : p' = p
      · subst hp
        exact Or.inl ⟨requeued x, List.mem_append_right _ (List.mem_map_of_mem hx), hxo⟩
      · refine Or.inr (Or.inl ⟨p', x, ?_, hxo⟩)
        simp only [Fleet.crash, Function.update_of_ne hp]
        exact hx
    · exact Or.inr (Or.inr hrest)

theorem fleetStep_history {l : FleetLabel Payload} (h : fleetStep f l = some f') (o : ℕ) :
    f.history o <+: f'.history o := by
  cases l with
  | publish queue message =>
    simp only [fleetStep] at h
    split at h <;> cases h
    exact List.prefix_refl _
  | expire i queue =>
    simp only [fleetStep] at h
    split at h
    · cases h
    · next copy hi =>
      split at h <;> cases h
      exact Server.note_history (f.system 0).server copy.origin .returned
  | run p l =>
    obtain ⟨sys, hdoes, rfl⟩ := run_step h
    exact step_history hdoes o
  | crash p =>
    simp only [fleetStep] at h
    split at h <;> cases h
    exact List.prefix_refl _

theorem fleetStep_published {l : FleetLabel Payload} (h : fleetStep f l = some f') :
    f'.published = f.published ∨
      ∃ queue message, l = .publish queue message ∧ f' = f.publish queue message := by
  cases l with
  | publish queue message =>
    simp only [fleetStep] at h
    split at h <;> cases h
    exact Or.inr ⟨queue, message, rfl, rfl⟩
  | expire i queue =>
    simp only [fleetStep] at h
    split at h
    · cases h
    · split at h <;> cases h
      exact Or.inl rfl
  | run p l =>
    obtain ⟨sys, hdoes, rfl⟩ := run_step h
    exact Or.inl (step_published hdoes)
  | crash p =>
    simp only [fleetStep] at h
    split at h <;> cases h
    exact Or.inl rfl

/-- A handler ends on the channel of its delivery, or while there is none. -/
def settlesHome (f : Fleet Payload) : FleetLabel Payload → Bool
  | .run p (.service (.run e _)) | .run p (.unschedulable e) =>
    match (f.services p).threads e with
    | .handle d => (f.services p).goneOrOn d.channel
    | _ => true
  | _ => true

theorem settlesHome_of_ends {p e : ℕ} {d : Delivery Payload} {l : SystemLabel Payload}
    {events : List (Event Payload)} (hd : (f.services p).threads e = .handle d)
    (hl : (l = .service (.run e .ok) ∧ events = [.succeeded]) ∨
      (l = .service (.run e .fails) ∨ l = .unschedulable e) ∧ .succeeded ∉ events)
    (h : settlesHome f (.run p l) = true) : (f.services p).goneOrOn d.channel = true := by
  rcases hl with ⟨rfl, -⟩ | ⟨rfl | rfl, -⟩ <;> simpa only [settlesHome, hd] using h

/-- The new entry of the log is for the delivery, on the channel that is current. -/
theorem settled_entry {s s₁ : State Payload} {kind : SettlementKind} {d : Delivery Payload}
    {y : Settlement Payload} (hy : y ∈ (s₁.settle kind d).settlements.drop s.settlements.length)
    (hsettlements : s₁.settlements = s.settlements) :
    y.kind = kind ∧ y.handled = d ∧ s₁.liveChannel = some y.channel := by
  cases hlive : s₁.liveChannel with
  | none =>
    rw [State.settle, hlive, hsettlements, List.drop_length] at hy
    cases hy
  | some c =>
    rw [settle_settlements hlive, hsettlements, List.drop_left, List.mem_singleton] at hy
    rw [hy]
    exact ⟨rfl, rfl, rfl⟩

/-- No ack crosses where handlers end at home. -/
theorem not_loses {l : FleetLabel Payload} (hhome : settlesHome f l = true)
    (h : fleetStep f l = some f') : ¬Loses o ⟨f, l, f'⟩ := by
  rintro ⟨p, l, rfl, y, hy, hack, hchannel, -⟩
  obtain ⟨sys, hdoes, rfl⟩ := run_step h
  rw [put_system] at hy
  cases hdoes with
  | quiet _ _ step server =>
    obtain ⟨l', hstep, hl'⟩ := step
    rw [(step_quiet hl' hstep).settlements, List.drop_length] at hy
    cases hy
  | starts copy d event taken queue message parsed isOpen tag service server =>
    have hsame : sys.service.settlements = (f.system p).service.settlements := by
      rw [service]
      rfl
    rw [hsame, List.drop_length] at hy
    cases hy
  | refuses copy d raw taken queue message malformed isOpen tag service server =>
    rw [service] at hy
    have hkind := (settled_entry hy rfl).1
    rw [hack] at hkind
    cases hkind
  | ends e d kind copies events handled ending label service server =>
    rw [service] at hy
    obtain ⟨-, hd, hlive⟩ := settled_entry hy rfl
    have hgone := settlesHome_of_ends handled label hhome
    have hlive' : (f.services p).liveChannel = some y.channel := hlive
    rw [State.goneOrOn, hlive', Option.all_some, decide_eq_true_eq] at hgone
    rw [hd] at hchannel
    exact hchannel hgone

theorem initial_tracked (p : ℕ) : Tracked ((Fleet.initial : Fleet Payload).system p) where
  deliveries := initial_deliveries
  distinct := List.Pairwise.nil
  numbered := List.forall_mem_nil _
  handled := fun _ _ _ => List.forall_mem_nil _

theorem reaches_tracked {tr : List (Move (Fleet Payload) (FleetLabel Payload))} (h : FleetRuns tr f) :
    ∀ p, Tracked (f.system p) :=
  Run.invariant (fun f => ∀ p, Tracked (f.system p)) (fun _ _ _ hs hstep => fleetStep_tracked hs hstep)
    h initial_tracked

/-- In every run of any number of processes, whatever is lost and crashes, a message that was put into
a queue has a copy on the server, or a handler has succeeded with it, or a step has lost it to an ack
that went out on another channel than that of its delivery. -/
theorem messages_conserved {tr : List (Move (Fleet Payload) (FleetLabel Payload))}
    (h : FleetRuns tr f) (ho : o < f.published.length) :
    f.Holds o ∨ f.Succeeded o ∨ ∃ x ∈ tr, Loses o x := by
  suffices hall : ∀ o < f.published.length, f.Holds o ∨ f.Succeeded o ∨ ∃ x ∈ tr, Loses o x from
    hall o ho
  refine Run.history (fun tr f => ∀ o < f.published.length,
    f.Holds o ∨ f.Succeeded o ∨ ∃ x ∈ tr, Loses o x) (fun o ho => absurd ho (Nat.not_lt_zero o)) ?_ h
  intro tr f l f' hreach hs hstep o ho
  have hkept : o < f.published.length →
      f'.Holds o ∨ f'.Succeeded o ∨ ∃ x ∈ tr ++ [⟨f, l, f'⟩], Loses o x := by
    intro hold
    rcases hs o hold with hheld | hsucceeded | ⟨x, hx, hloses⟩
    · refine (fleetStep_holds (reaches_tracked hreach) hstep hheld).imp_right (Or.imp_right ?_)
      exact fun hloses => ⟨_, List.mem_append_right _ (.head _), hloses⟩
    · exact Or.inr (Or.inl ((fleetStep_history hstep o).subset hsucceeded))
    · exact Or.inr (Or.inr ⟨x, List.mem_append_left _ hx, hloses⟩)
  rcases fleetStep_published hstep with hsame | ⟨queue, message, rfl, rfl⟩
  · exact hkept (hsame ▸ ho)
  · by_cases hold : o < f.published.length
    · exact hkept hold
    · have hnew : f.published.length = o := by
        simp only [Fleet.publish, List.length_append, List.length_singleton] at ho
        omega
      exact Or.inl ⟨0, Or.inl ⟨_, List.mem_append_right _ (.head _), hnew⟩⟩

end Fleet

/-- Process `p` connects and subscribes. -/
def FleetLabel.connects (p : ℕ) : List (FleetLabel Unit) :=
  List.replicate 4 (.run p (.service (.run 0 .ok))) ++
    .run p (.service (.subscribe ⟨"q", "PurchaseCompleted"⟩)) ::
    List.replicate 7 (.run p (.service (.run 1 .ok)))

/-- A process loses its channel with the message out, gets it again and crashes; another one handles
it. -/
theorem messages_conserved_requeued : ∃ tr f, FleetRuns tr f ∧ f.published.length = 1 ∧
    f.history 0 = [.delivered 0 (.json ()), .delivered 0 (.json ()), .delivered 0 (.json ()),
      .succeeded, .acked] ∧ (f.Holds 0 ∨ f.Succeeded 0 ∨ ∃ x ∈ tr, Loses 0 x) := by
  obtain ⟨tr, f, h, hp⟩ := exists_run_of_trace fleetStep (Fleet.initial : Fleet Unit)
    (FleetLabel.connects 0 ++ FleetLabel.connects 1 ++
      [.publish "q" ⟨.json (), "PurchaseCompleted", ⟨none, []⟩⟩, .run 0 (.deliver 0 0 0),
        .run 0 (.service (.channelLost 0)), .run 0 (.service .timer)] ++
      List.replicate 11 (.run 0 (.service (.run 3 .ok))) ++
      [.run 0 (.deliver 1 0 0), .crash 0, .run 1 (.deliver 0 0 0), .run 1 (.service (.run 2 .ok))])
    (fun r => decide (r.2.published.length = 1) &&
      decide (r.2.history 0 = [.delivered 0 (.json ()), .delivered 0 (.json ()),
        .delivered 0 (.json ()), .succeeded, .acked])) (by decide +kernel)
  simp only [Bool.and_eq_true, decide_eq_true_eq] at hp
  obtain ⟨hpublished, hhistory⟩ := hp
  exact ⟨tr, f, h, hpublished, hhistory, messages_conserved h (hpublished ▸ Nat.one_pos)⟩

end Bumpa.Broker.Redelivery
