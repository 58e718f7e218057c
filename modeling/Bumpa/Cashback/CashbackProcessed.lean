import Bumpa.Cashback.BadgeRows

/-! # `CashbackProcessed` events and the changes they announce

Three saves write an event to the outbox: the success branch of `processPayment`, its catch block
and a webhook handler. Each announces the status that it saves, whatever the status was; the check
that a webhook's outcome is news is made when the row is read.

`events_match_iff`: for every transaction the events announce as many changes to SUCCESSFUL and to
FAILED as its row went through, each committed with its event, exactly if every announcing save
finds the row in another status and no handler puts a settled status back (`announcesChange`).
`webhook_announced_twice`: two identical webhooks look the row up at the same time.
-/
namespace Bumpa.Cashback
open Bumpa.Events Bumpa.Relational Bumpa.Transition
set_option autoImplicit false

/-- The event carries the row's data: its identity and status, its reference and failure fields. -/
structure Describes (event : CashbackProcessedEvent) (row : CashbackTransaction) : Prop where
  userId : event.payload.userId = row.userId
  badgeName : event.payload.badgeName = row.badgeName
  amountKobo : event.payload.amountKobo = row.amountKobo
  reference : event.payload.providerReference = row.providerReference
  status : row.status = .ofPayment event.payload.status
  code : event.payload.failureCode = row.failureCode
  reason : event.payload.failureReason = row.failureReason
  retryable : event.payload.retryable = row.retryable

/-- How many events in the outbox announce this status of the badge's transaction. -/
def World.announced (w : World) (badge : String × String) (status : PaymentStatus) : ℕ :=
  w.db.outboxEvents.countP fun event =>
    (event.payload.userId, event.payload.badgeName) = badge && event.payload.status = status

/-- The transition changes the row's status to this one from another. -/
def changesTo (k : ReadableId) (status : PaymentStatus) (x : Move State Label) : Bool :=
  (x.source.world.statusOf k).any (· ≠ .ofPayment status) &&
    x.target.world.statusOf k = some (.ofPayment status)

/-- As many events as changes, for every transaction and both settled statuses. -/
def EventsMatch (tr : List (Move State Label)) (s : State) : Prop :=
  ∀ k row status, s.world.row k = some row → status ≠ .pending →
    s.world.announced row.badge status = tr.countP (changesTo k status)

/-- An event is committed with the change that it announces, and describes the row after it. -/
def Paired (x : Move State Label) : Prop :=
  x.target.world.db.outboxEvents = x.source.world.db.outboxEvents ∨
    ∃ event k row, x.target.world.db.outboxEvents = x.source.world.db.outboxEvents ++ [event] ∧
      x.target.world.row k = some row ∧ Describes event row ∧
      changesTo k event.payload.status x = true

/-- The transaction and the status that the step announces. -/
def Thread.announces : Thread → Outcome → Option (ReadableId × PaymentStatus)
  | .payment _ (.store t _ result), o =>
    if o.takesEffect && result.status = .successful then some (t.id, .successful) else none
  | .payment r (.recover t error), o =>
    if (Thread.payment r (.recover t error)).recordsFailure o then some (t.id, .failed) else none
  | .webhook hook (.save t), o => if o.takesEffect then some (t.id, hook.event.outcome) else none
  | _, _ => none

/-- The handler puts a settled status back that its row no longer has. -/
def Thread.resettles (w : World) (e : ℕ) : Thread → Outcome → Bool
  | .badge (.commit _ t), o =>
    o.takesEffect && w.holdsRow e t && (t.status = .successful || t.status = .failed) &&
      (w.row t.id).any (·.status ≠ t.status)
  | _, _ => false

/-- What the step announces is news, and no handler puts a settled status back. -/
def announcesChange (s : State) : Label → Bool
  | .run e o =>
    ((s.threads e).announces o).all (fun a => s.world.statusOf a.1 ≠ some (.ofPayment a.2)) &&
      !(s.threads e).resettles s.world e o
  | _ => true

/-! ## The announcing saves -/

/-- Between `w` and `w'` the thread saves its copy of `k` as `v`, and the event about it. -/
structure Announcement (w w' : World) (th : Thread) (k : ReadableId) (status : PaymentStatus)
    (v : CashbackTransaction) (event : CashbackProcessedEvent) : Prop where
  copy : ∃ t, th.loaded = some t ∧ t.id = k ∧ t.badge = v.badge ∧ t.amountKobo = v.amountKobo
  settled : status ≠ .pending
  announced : event.payload.status = status
  describes : Describes event v
  outbox : w'.db.outboxEvents = w.db.outboxEvents ++ [event]
  rows : ∀ k', w'.row k' = if k' = k then some v else w.row k'

theorem cashbackProcessedEvent_describes {v : CashbackTransaction} {status : PaymentStatus}
    {correlationId eventId : ReadableId} (hstatus : v.status = .ofPayment status)
    (hclear : status ≠ .failed →
      v.failureCode = none ∧ v.failureReason = none ∧ v.retryable = none) :
    Describes (cashbackProcessedEvent v status correlationId eventId) v := by
  have hfields : (cashbackProcessedEvent v status correlationId eventId).payload.failureCode =
      v.failureCode ∧ (cashbackProcessedEvent v status correlationId eventId).payload.failureReason =
      v.failureReason ∧ (cashbackProcessedEvent v status correlationId eventId).payload.retryable =
      v.retryable := by
    by_cases hfailed : status = .failed
    · simp [cashbackProcessedEvent, createDomainEvent, hfailed]
    · obtain ⟨hcode, hreason, hretryable⟩ := hclear hfailed
      simp [cashbackProcessedEvent, createDomainEvent, hfailed, hcode, hreason, hretryable]
  exact ⟨rfl, rfl, rfl, rfl, hstatus, hfields.1, hfields.2.1, hfields.2.2⟩

theorem storeResult_announces {w : World} {r : PaymentRun} {t : CashbackTransaction}
    {account : PayoutAccount} {result : CashbackPaymentResult}
    (h : result.status = .successful) :
    ∃ event, Announcement w (w.storeResult r t account result) (.payment r (.store t account result))
      t.id .successful (t.withResult (w.rowOf t) result) event := by
  have hstatus : (t.withResult (w.rowOf t) result).status = .ofPayment .successful := by
    simp only [CashbackTransaction.withResult, h]
  refine ⟨cashbackProcessedEvent (t.withResult (w.rowOf t) result) .successful
      r.event.correlationId w.nextId, ⟨t, rfl, rfl, rfl, rfl⟩, by simp, rfl,
    cashbackProcessedEvent_describes hstatus fun _ => ⟨rfl, rfl, rfl⟩, ?_,
    storeResult_row w r t account result⟩
  unfold World.storeResult
  split <;> rfl

theorem storeFailure_announces (cfg : Config) (w : World) (r : PaymentRun) (t : CashbackTransaction)
    (error : Thrown) : ∃ event, Announcement w
      (w.storeFailure cfg r t (classifyCashbackFailure error)) (.payment r (.recover t error))
      t.id .failed (t.withFailure (w.rowOf t) cfg w.now (classifyCashbackFailure error)) event :=
  ⟨_, ⟨t, rfl, rfl, rfl, rfl⟩, by simp, rfl, cashbackProcessedEvent_describes rfl (absurd rfl), rfl,
    storeFailure_row w cfg r t _⟩

theorem storeWebhook_announces {w : World} {hook : TransferWebhook} {t : CashbackTransaction} :
    ∃ event, Announcement w (w.storeWebhook hook t) (.webhook hook (.save t))
      t.id hook.event.outcome (hook.mark t) event := by
  have hsettled : hook.event.outcome ≠ .pending := by
    rcases outcome_cases hook.event with ho | ho <;> simp [ho]
  have hclear : hook.event.outcome ≠ .failed → (hook.mark t).failureCode = none ∧
      (hook.mark t).failureReason = none ∧ (hook.mark t).retryable = none := by
    intro hne
    have hsuccess := (outcome_cases hook.event).resolve_right hne
    rw [TransferWebhook.mark, hsuccess]
    exact ⟨rfl, rfl, rfl⟩
  have hbadge : t.badge = (hook.mark t).badge ∧ t.amountKobo = (hook.mark t).amountKobo := by
    unfold TransferWebhook.mark
    split <;> exact ⟨rfl, rfl⟩
  refine ⟨_, ⟨t, rfl, rfl, hbadge⟩, hsettled, rfl,
    cashbackProcessedEvent_describes (mark_status hook t) hclear, rfl, fun k => ?_⟩
  rw [World.row, storeWebhook_transactions, saveTransaction_row, mark_id]

/-- An announcing step saves its copy and the event about it. -/
theorem advance_announces {cfg : Config} {w w' : World} {e : ℕ} {th th' : Thread} {o : Outcome}
    {k : ReadableId} {status : PaymentStatus}
    (h : advance cfg w e th o = some (w', th')) (ha : th.announces o = some (k, status)) :
    ∃ v event, Announcement w w' th k status v event := by
  unfold Thread.announces at ha
  split at ha
  · next r t account result =>
    split_ifs at ha with hstores
    rw [Bool.and_eq_true, decide_eq_true_eq] at hstores
    obtain ⟨rfl, rfl⟩ := Prod.mk.inj (Option.some.inj ha)
    have hw : w' = w.storeResult r t account result := by
      simp only [advance, processPayment, store] at h
      grind [Outcome.takesEffect]
    rw [hw]
    exact ⟨_, storeResult_announces hstores.2⟩
  · next r t error =>
    split_ifs at ha with hrecords
    obtain ⟨rfl, rfl⟩ := Prod.mk.inj (Option.some.inj ha)
    obtain ⟨event, hevent⟩ := storeFailure_announces cfg w r t error
    have hw : w'.db = (w.storeFailure cfg r t (classifyCashbackFailure error)).db := by
      simp only [advance, processPayment, recover] at h
      grind [Thread.recordsFailure, Outcome.takesEffect, failJob_db]
    exact ⟨_, event, hevent.copy, hevent.settled, hevent.announced, hevent.describes,
      by rw [hw, hevent.outbox], fun k => by rw [World.row, hw, ← World.row, hevent.rows]⟩
  · next hook t =>
    split_ifs at ha with heffect
    obtain ⟨rfl, rfl⟩ := Prod.mk.inj (Option.some.inj ha)
    have hw : w' = w.storeWebhook hook t := by
      simp only [advance, handleWebhook] at h
      grind [Outcome.takesEffect]
    rw [hw]
    exact ⟨_, storeWebhook_announces⟩
  · cases ha

/-- No other step writes an event. -/
theorem advance_outbox {cfg : Config} {w w' : World} {e : ℕ} {th th' : Thread} {o : Outcome}
    (h : advance cfg w e th o = some (w', th')) (ha : th.announces o = none) :
    w'.db.outboxEvents = w.db.outboxEvents := by
  cases th with
  | done => cases h
  | badge pc =>
    have hcommit : ∀ event t, (w.commitBadge e event t).db.outboxEvents = w.db.outboxEvents := by
      intro event t
      unfold World.commitBadge
      split <;> split <;> rfl
    have hunlock : ∀ v : World, (v.unlock e).db.outboxEvents = v.db.outboxEvents := fun _ => rfl
    have hlock : ∀ key, (w.lock e key).db.outboxEvents = w.db.outboxEvents := fun _ => rfl
    simp only [advance] at h
    unfold handleBadgeUnlocked at h
    grind [drawIds_db, addJob_db]
  | payment r pc =>
    have hclaim : ∀ k reference, ((w.drawIds 1).claimTransaction k reference).db.outboxEvents =
        w.db.outboxEvents := fun _ _ => rfl
    have hreset : (w.resetTransaction r.transactionId).db.outboxEvents = w.db.outboxEvents := rfl
    have hsave : ∀ account, (w.saveAccount account).db.outboxEvents = w.db.outboxEvents :=
      fun _ => rfl
    have hstore : ∀ t account result, result.status ≠ .successful →
        (w.storeResult r t account result).db.outboxEvents = w.db.outboxEvents := by
      intro t account result hne
      unfold World.storeResult
      simp only [hne, if_false]
      split <;> rfl
    cases pc
    all_goals
      simp only [advance, processPayment, findTransaction, claim, findAccount, saveAccount,
        sendCashback, initiateTransfer, receive, store, publish, recover, publishFailure] at h
      grind [Thread.announces, Thread.recordsFailure, Outcome.takesEffect, failJob_db,
        completeJob_db, drawIds_db, createRecipient_db, acceptTransfer_db]
  | retry caller k event pc =>
    have hrevive : (w.reviveTransaction k).db.outboxEvents = w.db.outboxEvents := rfl
    simp only [advance] at h
    unfold retryPayment at h
    grind [addJob_db]
  | manual pc =>
    have hsave : ∀ account, (w.saveAccount account).db.outboxEvents = w.db.outboxEvents :=
      fun _ => rfl
    have hreset : ∀ k, (w.resetRetryCount k).db.outboxEvents = w.db.outboxEvents := fun _ => rfl
    simp only [advance] at h
    unfold retryFailedTransaction at h
    grind [drawIds_db]
  | scan pc => rw [(retryEligibleFailedTransactions_world h).1]
  | webhook hook pc =>
    simp only [advance] at h
    unfold handleWebhook at h
    grind [Thread.announces, Outcome.takesEffect, notifyTransfer_db]

/-! ## The changes -/

theorem CashbackTransactionStatus.ofPayment_inj {a b : PaymentStatus} :
    CashbackTransactionStatus.ofPayment a = .ofPayment b ↔ a = b := by
  cases a <;> cases b <;> simp [ofPayment]

theorem changesTo_iff {s s' : State} {l : Label} {k : ReadableId} {status : PaymentStatus} :
    changesTo k status ⟨s, l, s'⟩ = true ↔
      ∃ row row', s.world.row k = some row ∧ s'.world.row k = some row' ∧
        row.status ≠ .ofPayment status ∧ row'.status = .ofPayment status := by
  simp only [changesTo, Bool.and_eq_true, Option.any_eq_true, decide_eq_true_eq]
  constructor
  · rintro ⟨⟨before, hbefore, hne⟩, hafter⟩
    obtain ⟨row, hrow, rfl⟩ := Option.map_eq_some_iff.mp hbefore
    obtain ⟨row', hrow', hstatus⟩ := Option.map_eq_some_iff.mp hafter
    exact ⟨row, row', hrow, hrow', hne, hstatus⟩
  · rintro ⟨row, row', hrow, hrow', hne, hstatus⟩
    exact ⟨⟨row.status, statusOf_eq hrow, hne⟩, by rw [statusOf_eq hrow', hstatus]⟩

/-- A row that the step leaves alone does not change its status. -/
theorem changesTo_same {s s' : State} {l : Label} {k : ReadableId} {status : PaymentStatus}
    (h : s'.world.row k = s.world.row k) : changesTo k status ⟨s, l, s'⟩ = false := by
  rw [← Bool.not_eq_true, changesTo_iff]
  rintro ⟨row, row', hrow, hrow', hne, hstatus⟩
  rw [h, hrow, Option.some.injEq] at hrow'
  rw [hrow'] at hne
  exact hne hstatus

/-- What a handler's commit changes. -/
theorem changesTo_commit {cfg : Config} {s s' : State} {e : ℕ} {o : Outcome} {th' : Thread}
    {event : BadgeUnlockedEvent} {t : CashbackTransaction}
    (hadv : handleBadgeUnlocked cfg s.world e (.commit event t) o = some (s'.world, th'))
    {k : ReadableId} {status : PaymentStatus} :
    changesTo k status ⟨s, .run e o, s'⟩ = true ↔
      (o.takesEffect && s.world.holdsRow e t) = true ∧ k = t.id ∧
        t.status = .ofPayment status ∧
        (s.world.row t.id).any (·.status ≠ t.status) = true := by
  rw [changesTo_iff, commit_rows hadv]
  constructor
  · rintro ⟨row, row', hrow, hrow', hne, hstatus⟩
    split at hrow'
    · next hsaved =>
      rw [Option.some.injEq] at hrow'
      rw [← hrow'] at hstatus
      refine ⟨hsaved.1, hsaved.2, hstatus, ?_⟩
      rw [← hsaved.2, hrow, Option.any_some, hstatus]
      exact decide_eq_true hne
    · rw [hrow, Option.some.injEq] at hrow'
      rw [hrow'] at hne
      exact absurd hstatus hne
  · rintro ⟨hb, rfl, hstatus, hany⟩
    obtain ⟨row, hrow, hne⟩ := (Option.any_eq_true _ _).mp hany
    rw [hstatus, decide_eq_true_eq] at hne
    exact ⟨row, t, hrow, if_pos ⟨hb, rfl⟩, hne, hstatus⟩

/-- Without an announcement only a handler settles a row. -/
theorem commits_of_changesTo {cfg : Config} {s s' : State} {e : ℕ} {o : Outcome} {th' : Thread}
    (hadv : advance cfg s.world e (s.threads e) o = some (s'.world, th'))
    (hco : (s.threads e).Coherent) (ha : (s.threads e).announces o = none) {k : ReadableId}
    {status : PaymentStatus} (hsettled : status ≠ .pending)
    (hchange : changesTo k status ⟨s, .run e o, s'⟩ = true) :
    ∃ event t, s.threads e = .badge (.commit event t) := by
  obtain ⟨row, row', hrow, hrow', hne, hstatus⟩ := changesTo_iff.mp hchange
  rcases advance_writes hadv with hsame | ⟨heffect, k', v, hv, hwritten⟩
  · rw [changesTo_same (hsame k)] at hchange
    cases hchange
  · have hk : k = k' := by
      by_contra hother
      rw [changesTo_same ((hwritten k).trans (if_neg hother))] at hchange
      cases hchange
    subst hk
    rw [hwritten, if_pos rfl, Option.some.injEq] at hrow'
    subst hrow'
    generalize s.threads e = th at hv ha hco
    cases hv with
    | commit => exact ⟨_, _, rfl⟩
    | @store r t account result free =>
      have hresult := CashbackTransactionStatus.ofPayment_inj.mp hstatus
      have hnot : result.status ≠ .successful := by
        simpa [Thread.announces, heffect] using ha
      cases hpaid : result.status with
      | pending => exact absurd (hresult.symm.trans hpaid) hsettled
      | successful => exact absurd hpaid hnot
      | failed => exact absurd hpaid hco.2.2
    | @failure r t error final free =>
      simp [Thread.announces, Thread.recordsFailure, heffect, final] at ha
    | @webhook hook t free => simp [Thread.announces, heffect] at ha
    | resetCount found =>
      rw [found, Option.some.injEq] at hrow
      rw [← hrow] at hne
      exact absurd hstatus hne
    | _ => cases status <;> first | exact absurd rfl hsettled | cases hstatus

theorem changesTo_unannounced {cfg : Config} {s s' : State} {e : ℕ} {o : Outcome} {th' : Thread}
    (hadv : advance cfg s.world e (s.threads e) o = some (s'.world, th'))
    (hco : (s.threads e).Coherent) (ha : (s.threads e).announces o = none) :
    (∀ k status, status ≠ .pending → changesTo k status ⟨s, .run e o, s'⟩ = false) ↔
      (s.threads e).resettles s.world e o = false := by
  rw [← Bool.not_eq_true]
  constructor
  · intro hquiet hresettles
    cases hth : s.threads e with
    | badge pc =>
      cases pc with
      | commit event t =>
        rw [hth] at hadv hresettles
        simp only [Thread.resettles, Bool.and_eq_true, Bool.or_eq_true, decide_eq_true_eq]
          at hresettles
        obtain ⟨⟨⟨heffect, hheld⟩, hsettled⟩, hany⟩ := hresettles
        have hchange : ∀ status, t.status = .ofPayment status →
            changesTo t.id status ⟨s, .run e o, s'⟩ = true := fun status hstatus =>
          (changesTo_commit hadv).mpr ⟨by simp [heffect, hheld], rfl, hstatus, hany⟩
        rcases hsettled with hstatus | hstatus
        · have hnone := hquiet t.id .successful (by simp)
          rw [hchange .successful hstatus] at hnone
          cases hnone
        · have hnone := hquiet t.id .failed (by simp)
          rw [hchange .failed hstatus] at hnone
          cases hnone
      | _ => rw [hth] at hresettles; cases hresettles
    | _ => rw [hth] at hresettles; cases hresettles
  · intro hresettles k status hsettled
    rw [← Bool.not_eq_true]
    intro hchange
    obtain ⟨event, t, hth⟩ := commits_of_changesTo hadv hco ha hsettled hchange
    rw [hth] at hadv hresettles
    obtain ⟨hb, _, hstatus, hany⟩ := (changesTo_commit hadv).mp hchange
    refine hresettles ?_
    rw [Bool.and_eq_true] at hb
    have hfinal : t.status = .successful ∨ t.status = .failed := by
      cases status with
      | pending => exact absurd rfl hsettled
      | successful => exact Or.inl hstatus
      | failed => exact Or.inr hstatus
    simp only [Thread.resettles, Bool.and_eq_true, Bool.or_eq_true, decide_eq_true_eq]
    exact ⟨⟨hb, hfinal⟩, hany⟩

/-! ## Rows, events and the moves so far -/

/-- Who announces is no handler: it inserts no row and puts no status back. -/
theorem announces_saves {w : World} {e : ℕ} {th : Thread} {o : Outcome}
    {a : ReadableId × PaymentStatus} (ha : th.announces o = some a) :
    ¬ th.Holds w e ∧ th.resettles w e o = false := by
  unfold Thread.announces at ha
  split at ha
  · exact ⟨id, rfl⟩
  · exact ⟨id, rfl⟩
  · exact ⟨id, rfl⟩
  · cases ha

/-- The row is there already, under the badge it is saved with. -/
theorem BadgeRows.announced {s : State} (hs : BadgeRows s) {w' : World} {e : ℕ} {o : Outcome}
    {k : ReadableId} {status : PaymentStatus} {v : CashbackTransaction}
    {event : CashbackProcessedEvent} (ha : (s.threads e).announces o = some (k, status))
    (h : Announcement s.world w' (s.threads e) k status v event) :
    ∃ row, s.world.row k = some row ∧ row.badge = v.badge := by
  obtain ⟨t, ht, rfl, hbadge, _⟩ := h.copy
  rcases hs.backed e t ht with hrow | hholds
  · obtain ⟨row, hrow⟩ := Option.isSome_iff_exists.mp hrow
    have hnamed := hs.named t.id row.badge t.badge (Or.inl (badgeOf_of_row hrow))
      (Or.inr ⟨e, t, ht, rfl, rfl⟩)
    exact ⟨row, hrow, hnamed.trans hbadge⟩
  · exact absurd hholds (announces_saves ha).1

theorem Ambient.outboxEvents {w w' : World} (h : Ambient w w') :
    w'.db.outboxEvents = w.db.outboxEvents := by cases h <;> rfl

/-- Every event is about a row, and the rows of earlier states are still there. -/
structure Recorded (tr : List (Move State Label)) (s : State) : Prop where
  described : ∀ event ∈ s.world.db.outboxEvents,
    ∃ k, s.world.badgeOf k = some (event.payload.userId, event.payload.badgeName)
  earlier : ∀ x ∈ tr, ∀ k, (x.source.world.row k).isSome → (s.world.row k).isSome

theorem recorded_run {cfg : Config} {tr : List (Move State Label)} {s s' : State} {e : ℕ}
    {o : Outcome} {th' : Thread} (hs : BadgeRows s) (hrec : Recorded tr s)
    (hadv : advance cfg s.world e (s.threads e) o = some (s'.world, th')) :
    Recorded (tr ++ [⟨s, .run e o, s'⟩]) s' := by
  have hold : ∀ event ∈ s.world.db.outboxEvents, ∃ k,
      s'.world.badgeOf k = some (event.payload.userId, event.payload.badgeName) := fun event h =>
    (hrec.described event h).imp fun k hk => hs.badge_stays hadv hk
  refine ⟨fun event hevent => ?_, fun x hx k hk => ?_⟩
  · cases ha : (s.threads e).announces o with
    | none =>
      rw [advance_outbox hadv ha] at hevent
      exact hold event hevent
    | some a =>
      obtain ⟨v, event', hann⟩ := advance_announces hadv ha
      rw [hann.outbox, List.mem_append, List.mem_singleton] at hevent
      rcases hevent with hevent | rfl
      · exact hold event hevent
      · refine ⟨a.1, ?_⟩
        rw [badgeOf_of_row ((hann.rows a.1).trans (if_pos rfl)), hann.describes.userId,
          hann.describes.badgeName]
        rfl
  · rcases List.mem_append.mp hx with hx | hx
    · exact hs.row_stays hadv (hrec.earlier x hx k hk)
    · rw [List.mem_singleton.mp hx] at hk
      exact hs.row_stays hadv hk

theorem reaches_recorded {cfg : Config} {tr : List (Move State Label)} {s : State}
    (h : Reaches cfg tr s) : Recorded tr s := by
  refine Run.history Recorded ⟨List.forall_mem_nil _, List.forall_mem_nil _⟩ ?_ h
  intro tr s l s' hreach hrec hstep
  rcases step_cases hstep with ⟨e, o, th', rfl, hadv, _, _⟩ | ⟨hw, hl, _⟩
  · exact recorded_run (reaches_badgeRows hreach) hrec hadv
  · refine ⟨fun event hevent => ?_, fun x hx k hk => ?_⟩
    · rw [hw.outboxEvents] at hevent
      obtain ⟨k, hk⟩ := hrec.described event hevent
      exact ⟨k, by rw [badgeOf_ambient hstep hl, hk]⟩
    · rw [World.row, hw.transactions]
      rcases List.mem_append.mp hx with hx | hx
      · exact hrec.earlier x hx k hk
      · rw [List.mem_singleton.mp hx] at hk
        exact hk

/-- A transaction without a row has gone through no change. -/
theorem Recorded.unchanged {tr : List (Move State Label)} {s : State} (h : Recorded tr s)
    {k : ReadableId} (hk : s.world.row k = none) (status : PaymentStatus) :
    tr.countP (changesTo k status) = 0 := by
  refine List.countP_eq_zero.mpr fun x hx hchange => ?_
  obtain ⟨row, _, hrow, _⟩ := changesTo_iff.mp hchange
  have hsome := h.earlier x hx k (by rw [hrow]; rfl)
  rw [hk] at hsome
  cases hsome

/-- A badge without a row has no event. -/
theorem Recorded.unannounced {tr : List (Move State Label)} {s : State} (h : Recorded tr s)
    {badge : String × String} (hbadge : ∀ k, s.world.badgeOf k ≠ some badge)
    (status : PaymentStatus) : s.world.announced badge status = 0 := by
  refine List.countP_eq_zero.mpr fun event hevent hmatch => ?_
  rw [Bool.and_eq_true, decide_eq_true_eq] at hmatch
  obtain ⟨k, hk⟩ := h.described event hevent
  exact hbadge k (by rw [hk, hmatch.1])

/-! ## One step -/

/-- Without an event the numbers still agree exactly if no row changes to a settled status. -/
theorem eventsMatch_quiet {tr : List (Move State Label)} {s s' : State} {l : Label}
    (hs' : BadgeRows s') (hrec : Recorded tr s) (hmatch : EventsMatch tr s)
    (houtbox : s'.world.db.outboxEvents = s.world.db.outboxEvents)
    (hstays : ∀ k badge, s.world.badgeOf k = some badge → s'.world.badgeOf k = some badge) :
    EventsMatch (tr ++ [⟨s, l, s'⟩]) s' ↔
      ∀ k status, status ≠ .pending → changesTo k status ⟨s, l, s'⟩ = false := by
  have hannounced : ∀ badge status,
      s'.world.announced badge status = s.world.announced badge status := fun badge status => by
    rw [World.announced, houtbox, World.announced]
  -- both numbers before the step
  have hbefore : ∀ k row' status, s'.world.row k = some row' → status ≠ .pending →
      s.world.announced row'.badge status = tr.countP (changesTo k status) := by
    intro k row' status hrow' hsettled
    cases hrow : s.world.row k with
    | some row =>
      have hbadge := hstays k row.badge (badgeOf_of_row hrow)
      rw [badgeOf_of_row hrow', Option.some.injEq] at hbadge
      rw [hbadge, hmatch k row status hrow hsettled]
    | none =>
      rw [hrec.unchanged hrow, hrec.unannounced]
      intro k₂ hk₂
      have hsame := hs'.unique k k₂ row'.badge (badgeOf_of_row hrow') (hstays k₂ _ hk₂)
      rw [← hsame, World.badgeOf, hrow] at hk₂
      cases hk₂
  constructor
  · intro hafter k status hsettled
    by_contra hchange
    rw [Bool.not_eq_false] at hchange
    obtain ⟨_, row', _, hrow', _⟩ := changesTo_iff.mp hchange
    have hcounts := hafter k row' status hrow' hsettled
    rw [hannounced, hbefore k row' status hrow' hsettled, countP_snoc, hchange] at hcounts
    exact absurd hcounts (Nat.ne_of_lt (Nat.lt_succ_self _))
  · intro hquiet k row' status hrow' hsettled
    rw [hannounced, hbefore k row' status hrow' hsettled, countP_snoc, hquiet k status hsettled]
    rfl

/-- An announcing save is paired with a change exactly if the row had another status. -/
theorem eventsMatch_announced {cfg : Config} {tr : List (Move State Label)} {s s' : State} {e : ℕ}
    {o : Outcome} {th' : Thread} {k : ReadableId} {status : PaymentStatus} (hs : BadgeRows s)
    (hmatch : EventsMatch tr s)
    (hadv : advance cfg s.world e (s.threads e) o = some (s'.world, th'))
    (ha : (s.threads e).announces o = some (k, status)) :
    (EventsMatch (tr ++ [⟨s, .run e o, s'⟩]) s' ∧ Paired ⟨s, .run e o, s'⟩) ↔
      s.world.statusOf k ≠ some (.ofPayment status) := by
  obtain ⟨v, event, hann⟩ := advance_announces hadv ha
  obtain ⟨row, hrow, hbadge⟩ := hs.announced ha hann
  have hv : s'.world.row k = some v := (hann.rows k).trans (if_pos rfl)
  have hstatus : v.status = .ofPayment status := by rw [hann.describes.status, hann.announced]
  have hchange : ∀ k' status', changesTo k' status' ⟨s, .run e o, s'⟩ = true ↔
      k' = k ∧ status' = status ∧ row.status ≠ .ofPayment status := by
    intro k' status'
    by_cases hk : k' = k
    · subst hk
      rw [changesTo_iff]
      constructor
      · rintro ⟨row₁, row₂, hrow₁, hrow₂, hne, hafter⟩
        rw [hrow, Option.some.injEq] at hrow₁
        rw [hv, Option.some.injEq] at hrow₂
        rw [← hrow₂, hstatus, CashbackTransactionStatus.ofPayment_inj] at hafter
        subst hafter
        exact ⟨rfl, rfl, by rwa [hrow₁]⟩
      · rintro ⟨_, rfl, hne⟩
        exact ⟨row, v, hrow, hv, hne, hstatus⟩
    · rw [changesTo_same ((hann.rows k').trans (if_neg hk))]
      simp [hk]
  have hannounced : ∀ badge status', s'.world.announced badge status' =
      s.world.announced badge status' + (decide (v.badge = badge) && status = status').toNat := by
    intro badge status'
    rw [World.announced, hann.outbox, countP_snoc, World.announced, hann.announced,
      hann.describes.userId, hann.describes.badgeName]
    rfl
  rw [statusOf_eq hrow, Ne, Option.some.injEq]
  constructor
  · rintro ⟨hafter, _⟩ hsame
    have hcounts := hafter k v status hv hann.settled
    have hnot : changesTo k status ⟨s, .run e o, s'⟩ = false :=
      Bool.eq_false_iff.mpr fun h => ((hchange k status).mp h).2.2 hsame
    rw [hannounced, countP_snoc, hnot, ← hbadge, hmatch k row status hrow hann.settled] at hcounts
    simp at hcounts
  · intro hne
    refine ⟨fun k' row' status' hrow' hsettled => ?_, Or.inr ⟨event, k, v, hann.outbox, hv,
      hann.describes, (hchange k _).mpr ⟨rfl, hann.announced, hne⟩⟩⟩
    rw [hannounced, countP_snoc]
    by_cases hk : k' = k
    · subst hk
      rw [hv, Option.some.injEq] at hrow'
      have hmoved : changesTo k' status' ⟨s, .run e o, s'⟩ = decide (status = status') := by
        rw [Bool.eq_iff_iff, hchange, decide_eq_true_eq]
        exact ⟨fun h => h.2.1.symm, fun h => ⟨rfl, h.symm, hne⟩⟩
      rw [← hrow', ← hbadge, hmatch k' row status' hrow hsettled, hmoved]
      simp
    · have hkept : s.world.row k' = some row' := by rwa [hann.rows, if_neg hk] at hrow'
      have hother : v.badge ≠ row'.badge := fun heq =>
        hk (hs.unique k' k row'.badge (badgeOf_of_row hkept)
          (by rw [badgeOf_of_row hrow, hbadge, heq]))
      have hstill : changesTo k' status' ⟨s, .run e o, s'⟩ = false :=
        Bool.eq_false_iff.mpr fun h => hk ((hchange k' status').mp h).1
      rw [hmatch k' row' status' hkept hsettled, hstill]
      simp [hother]

theorem eventsMatch_step {cfg : Config} {tr : List (Move State Label)} {s s' : State} {l : Label}
    (hreach : Reaches cfg tr s) (hmatch : EventsMatch tr s) (h : step cfg s l = some s') :
    (EventsMatch (tr ++ [⟨s, l, s'⟩]) s' ∧ Paired ⟨s, l, s'⟩) ↔ announcesChange s l = true := by
  have hs := reaches_badgeRows hreach
  have hs' := reaches_badgeRows (Run.snoc hreach h)
  have hrec := reaches_recorded hreach
  rcases step_cases h with ⟨e, o, th', rfl, hadv, _, _⟩ | ⟨hw, hl, _⟩
  · cases ha : (s.threads e).announces o with
    | some a =>
      rw [eventsMatch_announced hs hmatch hadv ha]
      simp [announcesChange, ha, (announces_saves ha).2]
    | none =>
      have houtbox := advance_outbox hadv ha
      have hpaired : Paired ⟨s, .run e o, s'⟩ := Or.inl houtbox
      have hquiet := eventsMatch_quiet (l := .run e o) hs' hrec hmatch houtbox
        fun k badge hk => hs.badge_stays hadv hk
      rw [and_iff_left hpaired, hquiet,
        changesTo_unannounced hadv (reaches_coherent hreach e) ha]
      simp [announcesChange, ha]
  · refine iff_of_true ⟨?_, Or.inl hw.outboxEvents⟩ ?_
    · refine (eventsMatch_quiet hs' hrec hmatch hw.outboxEvents fun k badge hk => ?_).mpr
        fun k status _ => changesTo_same (by rw [World.row, hw.transactions])
      rw [badgeOf_ambient h hl, hk]
    · cases l with
      | run e o => exact absurd rfl (hl e o)
      | _ => rfl

/-! ## Every run -/

/-- All along a run the events and the changes agree, and each event is committed with its change,
exactly if every announcement is news and no handler puts a settled status back. -/
theorem events_match_iff {cfg : Config} {tr : List (Move State Label)} {s : State}
    (h : Reaches cfg tr s) :
    (∀ tr' s', Reaches cfg tr' s' → tr' <+: tr → EventsMatch tr' s' ∧ ∀ x ∈ tr', Paired x) ↔
      Guarded (fun s l => announcesChange s l = true) tr := by
  refine Run.prefix_iff (fun tr s => EventsMatch tr s ∧ ∀ x ∈ tr, Paired x)
    ⟨(fun k row status hrow _ => by cases hrow), List.forall_mem_nil _⟩ ?_ h
  rintro tr s l s' hreach ⟨hmatch, hpaired⟩ hstep
  rw [← eventsMatch_step hreach hmatch hstep]
  refine and_congr_right fun _ => ⟨fun hall => ?_, fun hlast x hx => ?_⟩
  · exact hall _ (List.mem_append_right _ (List.mem_singleton_self _))
  · rcases List.mem_append.mp hx with hx | hx
    · exact hpaired x hx
    · rw [List.mem_singleton.mp hx]
      exact hlast

/-! ## Schedules -/

/-- A payment, and the webhook about it. -/
theorem events_match_paid : ∃ tr s, Reaches paystackConfig tr s ∧
    s.world.announced ("usr_1", "Bronze") .successful = 1 ∧ EventsMatch tr s := by
  obtain ⟨tr, s, h, hp⟩ := exists_run_of_trace (step paystackConfig) initial
    (deliver 0 (badgeEvent 0 "Bronze" "0123456789") ++ payNewRecipient 1 0 "RCP_1" ++
      Label.oks 1 3 ++ .webhook (firstWebhook .success) :: Label.oks 2 3)
    (fun r => (r.1.all fun x => announcesChange x.source x.label) &&
      decide (r.2.world.announced ("usr_1", "Bronze") .successful = 1)) (by decide +kernel)
  rw [Bool.and_eq_true, decide_eq_true_eq] at hp
  exact ⟨tr, s, h, hp.2,
    ((events_match_iff h).mpr (guarded_of_all hp.1) tr s h (List.prefix_refl tr)).1⟩

/-- The webhook is delivered twice at once, and both handlers find the row before either saves. -/
theorem webhook_announced_twice : ¬ ∀ (cfg : Config) (tr : List (Move State Label)) (s : State),
    Reaches cfg tr s → EventsMatch tr s := by
  intro hall
  obtain ⟨tr, s, h, hp⟩ := exists_run_of_trace (step paystackConfig) initial
    (deliver 0 (badgeEvent 0 "Bronze" "0123456789") ++ payNewRecipient 1 0 "RCP_1" ++
      Label.oks 1 3 ++ [.webhook (firstWebhook .success), .webhook (firstWebhook .success),
        .run 2 .ok, .run 3 .ok, .run 2 .ok, .run 3 .ok])
    (fun r => decide (r.1.countP (changesTo 0 .successful) = 1) &&
      decide (r.2.world.announced ("usr_1", "Bronze") .successful = 2) &&
      (r.2.world.row 0).any fun row => row.badge = ("usr_1", "Bronze")) (by decide +kernel)
  simp only [Bool.and_eq_true, Option.any_eq_true, decide_eq_true_eq] at hp
  obtain ⟨⟨hchanges, hevents⟩, row, hrow, hbadge⟩ := hp
  have hmatch := hall _ tr s h 0 row .successful hrow (by simp)
  rw [hbadge, hchanges, hevents] at hmatch
  cases hmatch

end Bumpa.Cashback
