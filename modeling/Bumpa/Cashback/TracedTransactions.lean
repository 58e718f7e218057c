import Bumpa.Cashback.HandledEvents

/-! # Correlation ids

A transaction takes the correlation id of the event it is created for. The event of a payment, which
is the one delivered or one that a retry builds from the row, and the event that announces its
outcome have it too. So whatever is said of the delivered events (`P`) holds of all of them.
-/
namespace Bumpa.Cashback
open Bumpa.Events Bumpa.Relational Bumpa.Transition
set_option autoImplicit false

def CashbackTransaction.Follows (P : String × String → ReadableId → Prop) (t : CashbackTransaction) :
    Prop :=
  ∃ correlationId, t.correlationId = some correlationId ∧ P t.badge correlationId

/-- The same of an event that unlocks a badge. -/
def Unlocks (P : String × String → ReadableId → Prop) (event : BadgeUnlockedEvent) : Prop :=
  P (badgeOf event) event.correlationId

/-- The same of an event about the outcome of a payment. -/
def Outcomes (P : String × String → ReadableId → Prop) (event : CashbackProcessedEvent) : Prop :=
  P (event.payload.userId, event.payload.badgeName) event.correlationId

/-- Only events of which `P` holds are delivered. -/
def delivers (P : String × String → ReadableId → Prop) (_ : State) : Label → Prop
  | .badgeUnlocked event => Unlocks P event
  | _ => True

structure Traced (P : String × String → ReadableId → Prop) (s : State) : Prop where
  rows : ∀ k row, s.world.row k = some row → row.Follows P
  copies : ∀ e t, (s.threads e).loaded = some t → t.Follows P
  jobs : ∀ j job, s.world.queue.jobs j = some job → Unlocks P job.event
  tasks : ∀ e k event, (s.threads e).task = some (k, event) → Unlocks P event
  delivered : ∀ e event, (s.threads e).delivered = some event → Unlocks P event
  listed : ∀ e, ∀ t ∈ (s.threads e).listed, t.Follows P
  outcomes : ∀ event ∈ s.world.db.outboxEvents, Outcomes P event

section Advance
variable {P : String × String → ReadableId → Prop} {cfg : Config} {w w' : World} {e : ℕ}
  {th th' : Thread} {o : Outcome}

theorem createTransaction_follows {event : BadgeUnlockedEvent} (h : Unlocks P event)
    (id : ReadableId) : (createTransaction cfg id event).Follows P :=
  ⟨event.correlationId, rfl, h⟩

theorem buildRetryEvent_unlocks {t : CashbackTransaction} (h : t.Follows P) (account : PayoutAccount)
    (fresh : ReadableId) : Unlocks P (buildRetryEvent t account fresh) := by
  obtain ⟨correlationId, hcorrelation, hP⟩ := h
  have hevent : (buildRetryEvent t account fresh).correlationId = t.correlationId.getD fresh := rfl
  rw [Unlocks, hevent, hcorrelation]
  exact hP

theorem mark_follows {t : CashbackTransaction} (h : t.Follows P) (hook : TransferWebhook) :
    (hook.mark t).Follows P := by
  unfold TransferWebhook.mark
  split <;> exact h

theorem RowWrite.follows {k : ReadableId} {v : CashbackTransaction} (hv : RowWrite cfg w e th k v)
    (hrows : ∀ k row, w.row k = some row → row.Follows P)
    (hcopy : ∀ t, th.loaded = some t → t.Follows P) : v.Follows P := by
  have hrow : ∀ {k row}, w.row k = some row → row.Follows P := fun {k row} => hrows k row
  cases hv with
  | commit held => exact hcopy v rfl
  | claim found pending => exact (hrow found :)
  | @store r t account result free => exact hcopy t rfl
  | reset found processing back => exact (hrow found :)
  | @failure r t error final free => exact hcopy t rfl
  | revive found failed => exact (hrow found :)
  | resetCount found => exact (hrow found :)
  | @webhook hook t free => exact mark_follows (hcopy t rfl) hook

theorem processPayment_follows {r : PaymentRun} {pc : PaymentPc}
    (h : processPayment cfg w e r pc o = some (w', th'))
    (hrows : ∀ k row, w.row k = some row → row.Follows P)
    (hcopy : ∀ t, (Thread.payment r pc).loaded = some t → t.Follows P) {t' : CashbackTransaction}
    (ht' : th'.loaded = some t') : t'.Follows P := by
  have hresult : ∀ (t row : CashbackTransaction) (result : CashbackPaymentResult),
      t.Follows P → (t.withResult row result).Follows P := fun _ _ _ ht => ht
  have hclaim : ∀ (t : CashbackTransaction) reference,
      t.Follows P → (t.claimed reference).Follows P := fun _ _ ht => ht
  have hfound : ∀ k row, w.db.transactions.row k = some row → row.Follows P := hrows
  cases pc
  all_goals
    simp only [processPayment, findTransaction, claim, findAccount, saveAccount, sendCashback,
      initiateTransfer, receive, store, publish, recover, publishFailure] at h
    grind [Thread.loaded, Thread.copy]

theorem advance_follows (h : advance cfg w e th o = some (w', th'))
    (hrows : ∀ k row, w.row k = some row → row.Follows P)
    (hcopy : ∀ t, th.loaded = some t → t.Follows P)
    (hdelivered : ∀ event, th.delivered = some event → Unlocks P event) {t' : CashbackTransaction}
    (ht' : th'.loaded = some t') : t'.Follows P := by
  cases th with
  | done => cases h
  | badge pc =>
    obtain ⟨event, hth'⟩ : ∃ event, th'.handled = some (event, t') := by
      rcases (handleBadgeUnlocked_frame h).2.2 with rfl | ⟨pc', rfl⟩
      · cases ht'
      · exact loaded_handled ht'
    rcases handleBadgeUnlocked_handled h hth' with ⟨hth, -⟩ | ⟨rfl, -, hrow | ⟨rfl, -⟩⟩
    · exact hcopy t' (handled_loaded hth)
    · exact hrows _ t' hrow
    · exact createTransaction_follows (hdelivered event rfl) _
  | payment r pc => exact processPayment_follows h hrows hcopy ht'
  | retry caller k event pc =>
    rcases (retryPayment_frame h).2.2 with rfl | ⟨pc', rfl⟩ | ⟨pc', rfl⟩ <;> cases ht'
  | manual pc =>
    rcases (retryFailedTransaction_frame h).2 with rfl | ⟨pc', rfl⟩ | ⟨k, event, rfl⟩ <;> cases ht'
  | scan pc =>
    rcases retryEligibleFailedTransactions_thread h with rfl | ⟨pc', rfl⟩ | ⟨_, _, _, rfl⟩ <;>
      cases ht'
  | webhook hook pc =>
    have hcopy' : th'.copy = some t' := by
      rcases (handleWebhook_frame h).2.2 with rfl | ⟨pc', rfl⟩
      · cases ht'
      · exact ht'
    exact hrows _ t' (handleWebhook_copy h hcopy')

/-- A retry's event is built from a row that was read. -/
theorem advance_unlocks (h : advance cfg w e th o = some (w', th'))
    (htask : ∀ k event, th.task = some (k, event) → Unlocks P event)
    (hlisted : ∀ t ∈ th.listed, t.Follows P) {k : ReadableId} {event : BadgeUnlockedEvent}
    (ht : th'.task = some (k, event)) : Unlocks P event := by
  have hevent : ∀ (t : CashbackTransaction) account fresh,
      t.Follows P → Unlocks P (buildRetryEvent t account fresh) :=
    fun _ account fresh ht => buildRetryEvent_unlocks ht account fresh
  cases th with
  | done => cases h
  | badge pc => rcases (handleBadgeUnlocked_frame h).2.2 with rfl | ⟨pc', rfl⟩ <;> cases ht
  | payment r pc =>
    rcases processPayment_thread h with rfl | ⟨pc', rfl⟩
    · cases ht
    · exact htask k event ht
  | retry caller k' event' pc =>
    rcases (retryPayment_frame h).2.2 with rfl | ⟨pc', rfl⟩ | ⟨pc', rfl⟩
    · cases ht
    · cases ht
    · exact htask k event ht
  | manual pc =>
    simp only [advance] at h
    unfold retryFailedTransaction at h
    grind [Thread.task, Thread.listed]
  | scan pc =>
    simp only [advance] at h
    unfold retryEligibleFailedTransactions at h
    grind [Thread.task, Thread.listed]
  | webhook hook pc => rcases (handleWebhook_frame h).2.2 with rfl | ⟨pc', rfl⟩ <;> cases ht

/-- The event about an outcome is built from the payment's event or from the saved copy. -/
theorem advance_outcomes (h : advance cfg w e th o = some (w', th'))
    (hcopy : ∀ t, th.loaded = some t → t.Follows P)
    (hpays : ∀ r pc t, th = .payment r pc → th.loaded = some t → P t.badge r.event.correlationId)
    {event : CashbackProcessedEvent} (hevent : event ∈ w'.db.outboxEvents) :
    event ∈ w.db.outboxEvents ∨ Outcomes P event := by
  have hadds : ∀ new, w'.db.outboxEvents = w.db.outboxEvents ++ [new] → Outcomes P new →
      event ∈ w.db.outboxEvents ∨ Outcomes P event := by
    intro new hnew hP
    rw [hnew] at hevent
    refine (List.mem_append.mp hevent).imp_right fun hmem => ?_
    rw [List.mem_singleton.mp hmem]
    exact hP
  cases hannounces : th.announces o with
  | none => exact Or.inl (advance_outbox h hannounces ▸ hevent)
  | some announced =>
    unfold Thread.announces at hannounces
    split at hannounces
    · next r t account result =>
      split_ifs at hannounces with hstores
      rw [Bool.and_eq_true, decide_eq_true_eq] at hstores
      have hw : w' = w.storeResult r t account result := by
        simp only [advance, processPayment, store] at h
        grind [Outcome.takesEffect]
      refine hadds (cashbackProcessedEvent (t.withResult (w.rowOf t) result) .successful
        r.event.correlationId w.nextId) ?_ (hpays r _ t rfl rfl)
      rw [hw]
      simp only [World.storeResult, hstores.2, if_true]
      split <;> rfl
    · next r t error =>
      split_ifs at hannounces with hrecords
      have hw : w'.db = (w.storeFailure cfg r t (classifyCashbackFailure error)).db := by
        simp only [advance, processPayment, recover] at h
        grind [Thread.recordsFailure, Outcome.takesEffect, failJob_db]
      exact hadds (cashbackProcessedEvent (t.withFailure (w.rowOf t) cfg w.now
        (classifyCashbackFailure error)) .failed r.event.correlationId w.nextId) (by rw [hw]; rfl)
        (hpays r _ t rfl rfl)
    · next hook t =>
      split_ifs at hannounces with heffect
      have hw : w' = w.storeWebhook hook t := by
        simp only [advance, handleWebhook] at h
        grind [Outcome.takesEffect]
      obtain ⟨correlationId, hcorrelation, hP⟩ := mark_follows (hcopy t rfl) hook
      have hsame : t.correlationId = some correlationId := by
        rw [← hcorrelation]
        unfold TransferWebhook.mark
        split <;> rfl
      refine hadds (cashbackProcessedEvent (hook.mark t) hook.event.outcome
        (t.correlationId.getD w.nextId) _) (by rw [hw]; rfl) ?_
      rw [hsame]
      exact hP
    · cases hannounces

end Advance

/-! ## Runs -/

section Run
variable {P : String × String → ReadableId → Prop} {cfg : Config} {s s' : State}
  {tr : List (Move State Label)} {l : Label}

/-- A payment's event is about the badge of the copy that is paid. -/
theorem payment_badge (h : Reaches cfg tr s) {e : ℕ} {r : PaymentRun} {pc : PaymentPc}
    {t : CashbackTransaction} (hth : s.threads e = .payment r pc)
    (ht : (s.threads e).loaded = some t) : t.badge = badgeOf r.event := by
  have hco := reaches_coherent h e
  have hagrees := (reaches_eventsAgree h).tasks e r.transactionId r.event (by rw [hth]; rfl)
  refine hagrees.2 t.badge (Or.inr ⟨e, t, ht, ?_, rfl⟩)
  rw [hth] at hco ht
  cases pc with
  | find => cases ht
  | publishFailure => cases ht
  | claim t₀ | publish t₀ | recover t₀ =>
    obtain rfl := Option.some.inj ht
    exact hco
  | findAccount t₀ | saveAccount t₀ | sendCashback t₀ | initiateTransfer t₀ | receive t₀
  | store t₀ =>
    obtain rfl := Option.some.inj ht
    exact hco.1

theorem step_traced (h : Reaches cfg tr s) (hs : Traced P s) (hl : delivers P s l)
    (hstep : step cfg s l = some s') : Traced P s' := by
  have hdelivered : ∀ e event, (s'.threads e).delivered = some event → Unlocks P event := by
    intro e event ht
    rcases step_delivered hstep ht with hold | rfl
    · exact hs.delivered e event hold
    · exact hl
  rcases step_cases hstep with ⟨e, o, th', rfl, hadv, -, hth⟩ | ⟨hw, hl, -⟩
  · refine ⟨fun k row hrow => ?_, fun e' t ht => ?_, fun j job hjob => ?_, fun e' k event ht => ?_,
      hdelivered, fun e' t ht => ?_, fun event hevent => ?_⟩
    · rcases advance_rows hadv with hsame | ⟨k₀, v, hv, hwritten⟩
      · exact hs.rows k row (hsame k ▸ hrow)
      · rw [hwritten] at hrow
        split at hrow
        · cases hrow
          exact hv.follows hs.rows (hs.copies e)
        · exact hs.rows k row hrow
    · rw [hth] at ht
      split at ht
      · exact advance_follows hadv hs.rows (hs.copies e) (hs.delivered e) ht
      · exact hs.copies e' t ht
    · rcases advance_jobsFrom hadv with hfrom | ⟨k, event, hqueue, hadds⟩
      · obtain ⟨j₀, job₀, hjob₀, -, hevent⟩ := hfrom j job hjob
        exact hevent ▸ hs.jobs j₀ job₀ hjob₀
      · rw [hqueue] at hjob
        simp only [World.addJob, Function.update_apply] at hjob
        split at hjob
        · obtain rfl := Option.some.inj hjob
          rcases hadds with htask | ⟨t, hhas, -⟩
          · exact hs.tasks e k event htask
          · exact hs.delivered e event (handled_delivered hhas)
        · exact hs.jobs j job hjob
    · rw [hth] at ht
      split at ht
      · exact advance_unlocks hadv (hs.tasks e) (hs.listed e) ht
      · exact hs.tasks e' k event ht
    · rw [hth] at ht
      split at ht
      · rcases advance_listed hadv ht with hold | hrow
        · exact hs.listed e t hold
        · exact hs.rows _ t hrow
      · exact hs.listed e' t ht
    · refine (advance_outcomes hadv (hs.copies e) (fun r pc t hpays ht => ?_) hevent).elim
        (hs.outcomes event) id
      rw [payment_badge h hpays ht]
      exact hs.tasks e r.transactionId r.event (by rw [hpays]; rfl)
  · have hfrom := step_jobsFrom hstep hl
    have hthreads := step_tasks hstep hl
    refine ⟨fun k row hrow => ?_, fun e t ht => ?_, fun j job hjob => ?_, fun e k event ht => ?_,
      hdelivered, fun e t ht => ?_, fun event hevent => ?_⟩
    · rw [World.row, hw.transactions] at hrow
      exact hs.rows k row hrow
    · have hthread := (loaded_ambient hstep hl ht).1
      exact hs.copies e t (by rwa [← hthread])
    · obtain ⟨j₀, job₀, hjob₀, -, hevent⟩ := hfrom j job hjob
      exact hevent ▸ hs.jobs j₀ job₀ hjob₀
    · rcases hthreads e with hsame | ⟨-, hnew⟩
      · exact hs.tasks e k event (by rwa [← hsame])
      · obtain ⟨j, job, hjob, rfl, rfl⟩ := hnew k event ht
        exact hs.jobs j job hjob
    · rcases hthreads e with hsame | ⟨hnone, -⟩
      · exact hs.listed e t (by rwa [← hsame])
      · rw [hnone] at ht
        cases ht
    · exact hs.outcomes event (hw.outboxEvents ▸ hevent)

theorem reaches_traced (h : Reaches cfg tr s) (hdelivers : Guarded (delivers P) tr) : Traced P s :=
  Run.guarded_history (fun _ s => Traced P s) ⟨(fun _ _ hrow => by cases hrow),
    (fun _ _ ht => by cases ht), (fun _ _ hjob => by cases hjob), (fun _ _ _ ht => by cases ht),
    (fun _ _ ht => by cases ht), (fun _ => List.forall_mem_nil _), List.forall_mem_nil _⟩
    (fun _ _ _ _ hreach hl hs hstep => step_traced hreach hs hl hstep) h hdelivers

end Run

end Bumpa.Cashback
