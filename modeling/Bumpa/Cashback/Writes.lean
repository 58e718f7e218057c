import Bumpa.Cashback.System

/-! # What one step of a thread writes

`RowWrite` lists the statements that write a row of `cashback_transactions`, with the row each of
them leaves; `advance_rows` says that a step of a thread is one of them on one key, or leaves every
row alone. Every invariant about rows goes through these two.

The rest is about what the operations other than `processPayment` leave alone: none of them calls
Paystack, only `retryFailedTransaction` writes an account, and none becomes an attempt.
-/
namespace Bumpa.Cashback
open Bumpa.Events Bumpa.Relational Bumpa.Transition
set_option autoImplicit false

abbrev World.row (w : World) (k : ReadableId) : Option CashbackTransaction :=
  w.db.transactions.row k

abbrev World.account (w : World) (userId : String) : Option PayoutAccount :=
  w.db.payoutAccounts.row userId

/-! ## Rows -/

theorem statusOf_eq {w : World} {k : ReadableId} {row : CashbackTransaction}
    (h : w.row k = some row) : w.statusOf k = some row.status := by
  rw [World.statusOf, ← World.row, h, Option.map_some]

theorem updateTransaction_row {w : World} {k : ReadableId} (p : CashbackTransaction → Bool)
    {f : CashbackTransaction → CashbackTransaction} (hf : ∀ t, (f t).id = t.id)
    {row : CashbackTransaction} (h : w.row k = some row) :
    (w.updateTransaction k p f).row k = some (if p row then f row else row) := by
  have hupdate : (w.updateTransaction k p f).row k =
      if k = k then (w.row k).map (fun v => if p v then f v else v) else w.row k :=
    Table.updateWhere_row hf k
  rw [hupdate, if_pos rfl, h, Option.map_some]

/-- A conditional UPDATE leaves a row as it is, or the row is the one it matched. -/
theorem updateTransaction_rows {f : CashbackTransaction → CashbackTransaction}
    (hf : ∀ t, (f t).id = t.id) (p : CashbackTransaction → Bool) (w : World) (k k' : ReadableId) :
    (w.updateTransaction k p f).row k' = w.row k' ∨
      ∃ row, k' = k ∧ w.row k = some row ∧ p row = true ∧
        (w.updateTransaction k p f).row k' = some (f row) := by
  by_cases hk : k' = k
  · subst hk
    cases hrow : w.row k' with
    | none =>
      refine Or.inl ((Table.updateWhere_row hf k').trans ?_)
      rw [if_pos rfl, ← World.row, hrow]
      rfl
    | some row =>
      have hupdate := updateTransaction_row p hf hrow
      split at hupdate
      · next hp => exact Or.inr ⟨row, rfl, rfl, hp, hupdate⟩
      · exact Or.inl hupdate
  · exact Or.inl (Table.updateWhere_row_of_ne hf hk)

theorem some_pair_inj {w w' : World} {th th' : Thread} (h : some (w, th) = some (w', th')) :
    w' = w ∧ th' = th := by
  rw [Option.some.injEq, Prod.mk.injEq] at h
  exact ⟨h.1.symm, h.2.symm⟩

/-- Thread `e` writes the given row under the given key. -/
inductive RowWrite (cfg : Config) (w : World) (e : ℕ) :
    Thread → ReadableId → CashbackTransaction → Prop
  | commit {event : BadgeUnlockedEvent} {t : CashbackTransaction}
      (held : w.db.locks (.badge t.userId t.badgeName) = some e ∨
        w.db.locks (.row t.id) = some e) :
      RowWrite cfg w e (.badge (.commit event t)) t.id t
  | claim {r : PaymentRun} {t row : CashbackTransaction}
      (found : w.row r.transactionId = some row) (pending : row.status = .pending) :
      RowWrite cfg w e (.payment r (.claim t)) r.transactionId
        (row.claimed ⟨getProvider cfg, w.nextId⟩)
  | store {r : PaymentRun} {t : CashbackTransaction} {account : PayoutAccount}
      {result : CashbackPaymentResult} (free : w.rowFree t.id = true) :
      RowWrite cfg w e (.payment r (.store t account result)) t.id
        (t.withResult (w.rowOf t) result)
  | reset {r : PaymentRun} {t row : CashbackTransaction} {error : Thrown}
      (found : w.row r.transactionId = some row) (processing : row.status = .processing)
      (back : handsBack r (classifyCashbackFailure error) = true) :
      RowWrite cfg w e (.payment r (.recover t error)) r.transactionId
        { row with status := .pending }
  | failure {r : PaymentRun} {t : CashbackTransaction} {error : Thrown}
      (final : handsBack r (classifyCashbackFailure error) = false)
      (free : w.rowFree t.id = true) :
      RowWrite cfg w e (.payment r (.recover t error)) t.id
        (t.withFailure (w.rowOf t) cfg w.now (classifyCashbackFailure error))
  | revive {caller : RetryCaller} {k : ReadableId} {event : BadgeUnlockedEvent}
      {row : CashbackTransaction} (found : w.row k = some row) (failed : row.status = .failed) :
      RowWrite cfg w e (.retry caller k event .flip) k row.revived
  | resetCount {t row : CashbackTransaction} {account : PayoutAccount}
      (found : w.row t.id = some row) :
      RowWrite cfg w e (.manual (.resetCount t account)) t.id { row with retryCount := 0 }
  | webhook {hook : TransferWebhook} {t : CashbackTransaction} (free : w.rowFree t.id = true) :
      RowWrite cfg w e (.webhook hook (.save t)) t.id (hook.mark t)

/-- Between `w` and `w'` thread `e` at `th` wrote at most one row. -/
def RowEffect (cfg : Config) (w w' : World) (e : ℕ) (th : Thread) : Prop :=
  (∀ k, w'.row k = w.row k) ∨
    ∃ k t, RowWrite cfg w e th k t ∧ ∀ k', w'.row k' = if k' = k then some t else w.row k'

theorem RowEffect.of_eq {cfg : Config} {w w' : World} {e : ℕ} {th : Thread}
    (h : w'.db.transactions = w.db.transactions) : RowEffect cfg w w' e th :=
  Or.inl fun k => by rw [World.row, h]

theorem RowEffect.of_save {cfg : Config} {w w' : World} {e : ℕ} {th : Thread}
    {t : CashbackTransaction}
    (h : w'.db.transactions = (w.saveTransaction t).db.transactions)
    (ht : RowWrite cfg w e th t.id t) : RowEffect cfg w w' e th :=
  Or.inr ⟨t.id, t, ht, fun k => by rw [World.row, h, saveTransaction_row]⟩

/-- A conditional UPDATE writes the row it matches, or none. -/
theorem RowEffect.of_update {cfg : Config} {w w' : World} {e : ℕ} {th : Thread}
    {k : ReadableId} {p : CashbackTransaction → Bool}
    {f : CashbackTransaction → CashbackTransaction}
    (h : w'.db.transactions = (w.updateTransaction k p f).db.transactions)
    (hid : ∀ t, (f t).id = t.id)
    (hw : ∀ row, w.row k = some row → p row = true → RowWrite cfg w e th k (f row)) :
    RowEffect cfg w w' e th := by
  have hrow : ∀ k', w'.row k' =
      if k' = k then (w.row k).map (fun v => if p v then f v else v) else w.row k' := by
    intro k'
    rw [World.row, h]
    exact Table.updateWhere_row hid k'
  cases hk : w.row k with
  | none =>
    refine Or.inl fun k' => ?_
    rw [hrow, hk]
    split
    · next heq => rw [heq, hk]; rfl
    · rfl
  | some row =>
    by_cases hp : p row = true
    · refine Or.inr ⟨k, f row, hw row hk hp, fun k' => ?_⟩
      rw [hrow, hk, Option.map_some, if_pos hp]
    · refine Or.inl fun k' => ?_
      rw [hrow, hk, Option.map_some, if_neg hp]
      split
      · next heq => rw [heq, hk]
      · rfl

theorem handleBadgeUnlocked_rows {cfg : Config} {w w' : World} {e : ℕ} {pc : BadgePc}
    {o : Outcome} {th' : Thread} (h : handleBadgeUnlocked cfg w e pc o = some (w', th')) :
    RowEffect cfg w w' e (.badge pc) := by
  have hcommit : ∀ event t, RowEffect cfg w (w.commitBadge e event t) e
      (.badge (.commit event t)) := by
    intro event t
    by_cases hk : w.db.locks (.badge t.userId t.badgeName) = some e ∨
        w.db.locks (.row t.id) = some e
    · refine RowEffect.of_save ?_ (RowWrite.commit hk)
      simp only [World.commitBadge, if_pos hk, unlock_transactions]
      split <;> rfl
    · refine RowEffect.of_eq ?_
      simp only [World.commitBadge, if_neg hk, unlock_transactions]
      split <;> rfl
  unfold handleBadgeUnlocked at h
  split at h
  all_goals
    repeat' split at h
    all_goals
      first
        | (simp only [Option.some.injEq, Prod.mk.injEq] at h
           obtain ⟨rfl, _⟩ := h
           first
             | exact hcommit _ _
             | exact RowEffect.of_eq rfl)
        | cases h

theorem storeResult_transactions (w : World) (r : PaymentRun) (t : CashbackTransaction)
    (account : PayoutAccount) (result : CashbackPaymentResult) :
    (w.storeResult r t account result).db.transactions =
      (w.saveTransaction (t.withResult (w.rowOf t) result)).db.transactions := by
  unfold World.storeResult
  split <;> split <;> rfl

theorem processPayment_rows {cfg : Config} {w w' : World} {e : ℕ} {r : PaymentRun}
    {pc : PaymentPc} {o : Outcome} {th' : Thread}
    (h : processPayment cfg w e r pc o = some (w', th')) :
    RowEffect cfg w w' e (.payment r pc) := by
  cases pc with
  | find =>
    refine RowEffect.of_eq ?_
    simp only [processPayment, findTransaction] at h
    grind [failJob_db, completeJob_db]
  | claim t =>
    have hclaim : ∀ w', w'.db.transactions =
        (w.claimTransaction r.transactionId ⟨getProvider cfg, w.nextId⟩).db.transactions →
        RowEffect cfg w w' e (.payment r (.claim t)) := fun w' hw' =>
      RowEffect.of_update hw' (fun _ => rfl) fun row hrow hp =>
        RowWrite.claim hrow (of_decide_eq_true hp)
    cases o with
    | ok =>
      simp only [processPayment, claim] at h
      split_ifs at h
      · obtain ⟨rfl, _⟩ := some_pair_inj h
        exact hclaim _ rfl
      · obtain ⟨rfl, _⟩ := some_pair_inj h
        exact RowEffect.of_eq (by simp)
    | fails error written =>
      cases written with
      | false =>
        obtain ⟨rfl, _⟩ := some_pair_inj h
        exact RowEffect.of_eq (by simp)
      | true =>
        simp only [processPayment, claim] at h
        split_ifs at h
        obtain ⟨rfl, _⟩ := some_pair_inj h
        exact hclaim _ (by rw [failJob_db]; rfl)
    | recipient code => cases h
  | findAccount t reference =>
    refine RowEffect.of_eq ?_
    simp only [processPayment, findAccount] at h
    grind [drawIds_db]
  | saveAccount t reference account isNew =>
    refine RowEffect.of_eq ?_
    simp only [processPayment, saveAccount] at h
    grind [saveAccount_transactions]
  | sendCashback t account request =>
    refine RowEffect.of_eq ?_
    simp only [processPayment, sendCashback] at h
    grind [createRecipient_db]
  | initiateTransfer t account request recipientCode =>
    refine RowEffect.of_eq ?_
    simp only [processPayment, initiateTransfer] at h
    grind [acceptTransfer_db]
  | receive t account result =>
    refine RowEffect.of_eq ?_
    simp only [processPayment, receive] at h
    grind
  | store t account result =>
    cases o with
    | ok =>
      simp only [processPayment, store] at h
      split_ifs at h
      all_goals
        obtain ⟨rfl, _⟩ := some_pair_inj h
        exact RowEffect.of_save (storeResult_transactions ..) (RowWrite.store ‹_›)
    | fails error written =>
      cases written with
      | false =>
        obtain ⟨rfl, _⟩ := some_pair_inj h
        exact RowEffect.of_eq rfl
      | true =>
        simp only [processPayment, store] at h
        split_ifs at h
        obtain ⟨rfl, _⟩ := some_pair_inj h
        exact RowEffect.of_save (storeResult_transactions ..) (RowWrite.store ‹_›)
    | recipient code => cases h
  | publish t eventIds =>
    refine RowEffect.of_eq ?_
    simp only [processPayment, publish] at h
    grind [completeJob_db]
  | recover t error =>
    have hreset : handsBack r (classifyCashbackFailure error) = true → ∀ w', w'.db.transactions =
        (w.resetTransaction r.transactionId).db.transactions →
        RowEffect cfg w w' e (.payment r (.recover t error)) := fun hback w' hw' =>
      RowEffect.of_update hw' (fun _ => rfl) fun row hrow hp =>
        RowWrite.reset hrow (of_decide_eq_true hp) hback
    have hfail : handsBack r (classifyCashbackFailure error) ≠ true → w.rowFree t.id = true →
        ∀ w', w'.db.transactions =
          (w.storeFailure cfg r t (classifyCashbackFailure error)).db.transactions →
        RowEffect cfg w w' e (.payment r (.recover t error)) := fun hback hfree w' hw' =>
      RowEffect.of_save hw' (RowWrite.failure (Bool.eq_false_iff.mpr hback) hfree)
    cases o with
    | ok =>
      simp only [processPayment, recover] at h
      split_ifs at h with hfree hback
      · obtain ⟨rfl, _⟩ := some_pair_inj h
        exact hreset hback _ (by rw [failJob_db])
      · obtain ⟨rfl, _⟩ := some_pair_inj h
        exact hfail hback hfree _ rfl
    | fails error' written =>
      cases written with
      | false =>
        obtain ⟨rfl, _⟩ := some_pair_inj h
        exact RowEffect.of_eq (by simp)
      | true =>
        simp only [processPayment, recover] at h
        split_ifs at h with hfree hback
        · obtain ⟨rfl, _⟩ := some_pair_inj h
          exact hreset hback _ (by rw [failJob_db])
        · obtain ⟨rfl, _⟩ := some_pair_inj h
          exact hfail hback hfree _ (by rw [failJob_db])
    | recipient code => cases h
  | publishFailure eventId =>
    refine RowEffect.of_eq ?_
    simp only [processPayment, publishFailure] at h
    grind [completeJob_db, failJob_db]

theorem retryPayment_rows {cfg : Config} {w w' : World} {e : ℕ} {caller : RetryCaller}
    {k : ReadableId} {event : BadgeUnlockedEvent} {pc : RetryPc} {o : Outcome} {th' : Thread}
    (h : retryPayment w caller k event pc o = some (w', th')) :
    RowEffect cfg w w' e (.retry caller k event pc) := by
  have hrevive : ∀ w', w'.db.transactions = (w.reviveTransaction k).db.transactions →
      RowEffect cfg w w' e (.retry caller k event .flip) := fun w' hw' =>
    RowEffect.of_update hw' (fun _ => rfl) fun row hrow hp =>
      RowWrite.revive hrow (of_decide_eq_true hp)
  unfold retryPayment at h
  split at h
  all_goals
    repeat' split at h
    all_goals
      first
        | (simp only [Option.some.injEq, Prod.mk.injEq] at h
           obtain ⟨rfl, _⟩ := h
           first
             | exact RowEffect.of_eq rfl
             | exact hrevive _ rfl)
        | cases h

theorem retryFailedTransaction_rows {cfg : Config} {w w' : World} {e : ℕ} {pc : ManualPc}
    {o : Outcome} {th' : Thread} (h : retryFailedTransaction cfg w pc o = some (w', th')) :
    RowEffect cfg w w' e (.manual pc) := by
  have hreset : ∀ t account w', w'.db.transactions =
      (w.resetRetryCount t.id).db.transactions →
      RowEffect cfg w w' e (.manual (.resetCount t account)) := fun t account w' hw' =>
    RowEffect.of_update hw' (fun _ => rfl) fun row hrow _ => RowWrite.resetCount hrow
  cases pc with
  | find transactionId override =>
    refine RowEffect.of_eq ?_
    unfold retryFailedTransaction at h
    grind
  | findAccount t override =>
    refine RowEffect.of_eq ?_
    unfold retryFailedTransaction at h
    grind [drawIds_db]
  | saveAccount t account isNew =>
    refine RowEffect.of_eq ?_
    unfold retryFailedTransaction at h
    grind [saveAccount_transactions]
  | resetCount t account =>
    cases o with
    | ok =>
      simp only [retryFailedTransaction] at h
      split_ifs at h
      obtain ⟨rfl, _⟩ := some_pair_inj h
      exact hreset t account _ rfl
    | fails error written =>
      cases written with
      | false =>
        obtain ⟨rfl, _⟩ := some_pair_inj h
        exact RowEffect.of_eq rfl
      | true =>
        simp only [retryFailedTransaction] at h
        split_ifs at h
        obtain ⟨rfl, _⟩ := some_pair_inj h
        exact hreset t account _ rfl
    | recipient code => cases h

theorem retryEligibleFailedTransactions_world {cfg : Config} {w w' : World} {pc : ScanPc}
    {o : Outcome} {th' : Thread}
    (h : retryEligibleFailedTransactions cfg w pc o = some (w', th')) :
    w'.db = w.db ∧ w'.queue = w.queue ∧ w'.paystack = w.paystack := by
  unfold retryEligibleFailedTransactions at h
  split at h
  all_goals
    repeat' split at h
    all_goals
      first
        | (simp only [Option.some.injEq, Prod.mk.injEq] at h
           obtain ⟨rfl, _⟩ := h
           exact ⟨rfl, rfl, rfl⟩)
        | cases h

theorem storeWebhook_transactions (w : World) (hook : TransferWebhook) (t : CashbackTransaction) :
    (w.storeWebhook hook t).db.transactions = (w.saveTransaction (hook.mark t)).db.transactions :=
  rfl

theorem mark_id (hook : TransferWebhook) (t : CashbackTransaction) : (hook.mark t).id = t.id := by
  unfold TransferWebhook.mark
  split <;> rfl

theorem outcome_cases (event : TransferEvent) :
    event.outcome = .successful ∨ event.outcome = .failed := by
  cases event with
  | success => exact Or.inl rfl
  | failed => exact Or.inr rfl
  | reversed => exact Or.inr rfl

theorem mark_status (hook : TransferWebhook) (t : CashbackTransaction) :
    (hook.mark t).status = .ofPayment hook.event.outcome := by
  unfold TransferWebhook.mark
  rcases outcome_cases hook.event with heq | heq <;> rw [heq] <;> rfl

theorem mark_reference (hook : TransferWebhook) (t : CashbackTransaction) :
    (hook.mark t).providerReference = t.providerReference := by
  unfold TransferWebhook.mark
  split <;> rfl

theorem handleWebhook_rows {cfg : Config} {w w' : World} {e : ℕ} {hook : TransferWebhook}
    {pc : WebhookPc} {o : Outcome} {th' : Thread}
    (h : handleWebhook w hook pc o = some (w', th')) :
    RowEffect cfg w w' e (.webhook hook pc) := by
  have hsave : ∀ t, w.rowFree t.id = true →
      RowEffect cfg w (w.storeWebhook hook t) e (.webhook hook (.save t)) := by
    intro t hfree
    have hwrite : RowWrite cfg w e (.webhook hook (.save t)) (hook.mark t).id (hook.mark t) := by
      rw [mark_id]
      exact RowWrite.webhook hfree
    exact RowEffect.of_save (storeWebhook_transactions w hook t) hwrite
  unfold handleWebhook at h
  split at h
  all_goals
    repeat' split at h
    all_goals
      first
        | (simp only [Option.some.injEq, Prod.mk.injEq] at h
           obtain ⟨rfl, _⟩ := h
           first
             | exact RowEffect.of_eq rfl
             | exact hsave _ ‹_›)
        | cases h

/-- A step of a thread is one of the statements of `RowWrite` on one key, or writes no row. -/
theorem advance_rows {cfg : Config} {w w' : World} {e : ℕ} {th th' : Thread} {o : Outcome}
    (h : advance cfg w e th o = some (w', th')) : RowEffect cfg w w' e th := by
  cases th with
  | done => cases h
  | badge pc => exact handleBadgeUnlocked_rows h
  | payment r pc => exact processPayment_rows h
  | retry caller k event pc => exact retryPayment_rows h
  | manual pc => exact retryFailedTransaction_rows h
  | scan pc => exact RowEffect.of_eq (by rw [(retryEligibleFailedTransactions_world h).1])
  | webhook hook pc => exact handleWebhook_rows h

/-! ## Which steps commit a copy

A step writes when its call goes through, and when it is rejected after it took effect. -/

def Outcome.takesEffect : Outcome → Bool
  | .ok => true
  | .fails _ written => written
  | .recipient _ => false

/-- A step that does not take effect writes no row. -/
theorem advance_rows_of_fails {cfg : Config} {w w' : World} {e : ℕ} {th th' : Thread} {o : Outcome}
    (h : advance cfg w e th o = some (w', th')) (ho : o.takesEffect = false) :
    w'.db.transactions = w.db.transactions := by
  have hadd : ∀ k event, (w.addJob k event).db = w.db := fun _ _ => rfl
  cases th with
  | done => cases h
  | badge pc =>
    simp only [advance] at h
    unfold handleBadgeUnlocked at h
    grind [Outcome.takesEffect, unlock_transactions]
  | payment r pc =>
    cases pc
    all_goals
      simp only [advance, processPayment, findTransaction, claim, findAccount, saveAccount,
        sendCashback, initiateTransfer, receive, store, publish, recover, publishFailure] at h
      grind [Outcome.takesEffect, failJob_db, completeJob_db, drawIds_db, saveAccount_transactions,
        createRecipient_db]
  | retry caller k event pc =>
    simp only [advance] at h
    unfold retryPayment at h
    grind [Outcome.takesEffect]
  | manual pc =>
    simp only [advance] at h
    unfold retryFailedTransaction at h
    grind [Outcome.takesEffect]
  | scan pc => rw [(retryEligibleFailedTransactions_world h).1]
  | webhook hook pc =>
    simp only [advance] at h
    unfold handleWebhook at h
    grind [Outcome.takesEffect]

/-- `advance_rows`, with the outcome. -/
theorem advance_writes {cfg : Config} {w w' : World} {e : ℕ} {th th' : Thread} {o : Outcome}
    (h : advance cfg w e th o = some (w', th')) :
    (∀ k, w'.row k = w.row k) ∨ o.takesEffect = true ∧
      ∃ k t, RowWrite cfg w e th k t ∧ ∀ k', w'.row k' = if k' = k then some t else w.row k' := by
  cases ho : o.takesEffect with
  | false => exact Or.inl fun k => by rw [World.row, advance_rows_of_fails h ho]
  | true =>
    rcases advance_rows h with hsame | hwritten
    · exact Or.inl hsame
    · exact Or.inr ⟨rfl, hwritten⟩

/-- The success branch of `processPayment` commits its copy. -/
def Thread.storesResult : Thread → Outcome → Bool
  | .payment _ (.store _ _ _), o => o.takesEffect
  | _, _ => false

/-- The catch block commits its copy as FAILED. -/
def Thread.recordsFailure : Thread → Outcome → Bool
  | .payment r (.recover _ error), o => o.takesEffect && !handsBack r (classifyCashbackFailure error)
  | _, _ => false

/-- A webhook handler commits its copy. -/
def Thread.savesWebhook : Thread → Outcome → Bool
  | .webhook _ (.save _), o => o.takesEffect
  | _, _ => false

/-- The transition is a step of thread `e` of the given kind. -/
def stepOf (e : ℕ) (kind : Thread → Outcome → Bool) (x : Move State Label) : Bool :=
  match x.label with
  | .run e' o => e' = e && kind (x.source.threads e) o
  | _ => false

/-- The transaction of `handleBadgeUnlocked` has changed or inserted the row of its copy. -/
def World.holdsRow (w : World) (e : ℕ) (t : CashbackTransaction) : Bool :=
  w.db.locks (.badge t.userId t.badgeName) = some e || w.db.locks (.row t.id) = some e

/-! What each of the four whole-entity saves leaves in the table, exactly. -/

theorem commitBadge_row (w : World) (e : ℕ) (event : BadgeUnlockedEvent) (t : CashbackTransaction)
    (k : ReadableId) : (w.commitBadge e event t).row k =
      if w.holdsRow e t = true ∧ k = t.id then some t else w.row k := by
  by_cases hheld : w.db.locks (.badge t.userId t.badgeName) = some e ∨
      w.db.locks (.row t.id) = some e
  · have hbool : w.holdsRow e t = true := by simpa [World.holdsRow] using hheld
    have hsaved : (w.commitBadge e event t).db.transactions =
        (w.saveTransaction t).db.transactions := by
      simp only [World.commitBadge, if_pos hheld, unlock_transactions]
      split <;> rfl
    rw [World.row, hsaved, saveTransaction_row]
    simp only [hbool, true_and]
  · have hbool : w.holdsRow e t = false := by simpa [World.holdsRow] using hheld
    have hsame : (w.commitBadge e event t).db.transactions = w.db.transactions := by
      simp only [World.commitBadge, if_neg hheld, unlock_transactions]
      split <;> rfl
    rw [World.row, hsame, hbool]
    simp

theorem commit_rows {cfg : Config} {w w' : World} {e : ℕ} {event : BadgeUnlockedEvent}
    {t : CashbackTransaction} {o : Outcome} {th' : Thread}
    (h : handleBadgeUnlocked cfg w e (.commit event t) o = some (w', th')) (k : ReadableId) :
    w'.row k = if (o.takesEffect && w.holdsRow e t) = true ∧ k = t.id then some t else w.row k := by
  cases o with
  | ok =>
    obtain ⟨rfl, _⟩ := some_pair_inj h
    simp only [commitBadge_row, Outcome.takesEffect, Bool.true_and]
  | fails error written =>
    obtain ⟨rfl, _⟩ := some_pair_inj h
    cases written with
    | false => simp [Outcome.takesEffect, World.row]
    | true => simp only [commitBadge_row, Outcome.takesEffect, Bool.true_and, if_true]
  | recipient code => cases h

theorem storeResult_row (w : World) (r : PaymentRun) (t : CashbackTransaction)
    (account : PayoutAccount) (result : CashbackPaymentResult) (k : ReadableId) :
    (w.storeResult r t account result).row k =
      if k = t.id then some (t.withResult (w.rowOf t) result) else w.row k := by
  rw [World.row, storeResult_transactions, saveTransaction_row]
  rfl

theorem store_rows {w w' : World} {r : PaymentRun} {t : CashbackTransaction}
    {account : PayoutAccount} {result : CashbackPaymentResult} {o : Outcome} {th' : Thread}
    (h : store w r t account result o = some (w', th')) (k : ReadableId) :
    w'.row k = if o.takesEffect = true ∧ k = t.id then some (t.withResult (w.rowOf t) result)
      else w.row k := by
  unfold store at h
  grind [storeResult_row, Outcome.takesEffect]

theorem storeFailure_row (w : World) (cfg : Config) (r : PaymentRun) (t : CashbackTransaction)
    (failure : CashbackPaymentError) (k : ReadableId) :
    (w.storeFailure cfg r t failure).row k =
      if k = t.id then some (t.withFailure (w.rowOf t) cfg w.now failure) else w.row k :=
  saveTransaction_row w (t.withFailure (w.rowOf t) cfg w.now failure) k

theorem resetTransaction_row {w : World} {k : ReadableId} {row : CashbackTransaction}
    (h : w.row k = some row) :
    (w.resetTransaction k).row k =
      some (if row.status = .processing then { row with status := .pending } else row) := by
  have hid : ∀ t : CashbackTransaction,
      ({ t with status := .pending } : CashbackTransaction).id = t.id := fun _ => rfl
  refine (updateTransaction_row _ hid h).trans ?_
  simp only [decide_eq_true_eq]

theorem resetTransaction_rows (w : World) (k k' : ReadableId) :
    (w.resetTransaction k).row k' = w.row k' ∨
      ∃ row, k' = k ∧ w.row k = some row ∧ row.status = .processing ∧
        (w.resetTransaction k).row k' = some { row with status := .pending } := by
  have hid : ∀ t : CashbackTransaction,
      ({ t with status := .pending } : CashbackTransaction).id = t.id := fun _ => rfl
  rcases updateTransaction_rows hid (·.status = .processing) w k k' with hsame | hwritten
  · exact Or.inl hsame
  · obtain ⟨row, hk, hrow, hp, hreset⟩ := hwritten
    exact Or.inr ⟨row, hk, hrow, of_decide_eq_true hp, hreset⟩

theorem recover_rows {cfg : Config} {w w' : World} {e : ℕ} {r : PaymentRun}
    {t : CashbackTransaction} {error : Thrown} {o : Outcome} {th' : Thread}
    (h : recover cfg w e r t error o = some (w', th')) (k : ReadableId) :
    if (Thread.payment r (.recover t error)).recordsFailure o then
      w'.row k = if k = t.id then
        some (t.withFailure (w.rowOf t) cfg w.now (classifyCashbackFailure error)) else w.row k
    else
      w'.row k = w.row k ∨
        ∃ row, k = r.transactionId ∧ w.row k = some row ∧ row.status = .processing ∧
          w'.row k = some { row with status := .pending } := by
  have hreset := resetTransaction_rows w r.transactionId k
  have hfailed : ∀ (v : World) j, (v.failJob e j).row k = v.row k := fun v j => by
    rw [World.row, failJob_db]
  unfold recover at h
  grind [storeFailure_row, Thread.recordsFailure, Outcome.takesEffect]

theorem webhookSave_rows {w w' : World} {hook : TransferWebhook} {t : CashbackTransaction}
    {o : Outcome} {th' : Thread} (h : handleWebhook w hook (.save t) o = some (w', th'))
    (k : ReadableId) :
    w'.row k = if o.takesEffect = true ∧ k = t.id then some (hook.mark t) else w.row k := by
  have hsaved : (w.storeWebhook hook t).row k =
      if k = t.id then some (hook.mark t) else w.row k := by
    rw [World.row, storeWebhook_transactions, saveTransaction_row, mark_id]
  unfold handleWebhook at h
  grind [Outcome.takesEffect]

/-! ## Accounts, jobs and Paystack -/

theorem storeResult_paystack (w : World) (r : PaymentRun) (t : CashbackTransaction)
    (account : PayoutAccount) (result : CashbackPaymentResult) :
    (w.storeResult r t account result).paystack = w.paystack := by
  unfold World.storeResult
  split <;> split <;> rfl

theorem storeResult_queue (w : World) (r : PaymentRun) (t : CashbackTransaction)
    (account : PayoutAccount) (result : CashbackPaymentResult) :
    (w.storeResult r t account result).queue = w.queue := by
  unfold World.storeResult
  split <;> split <;> rfl

theorem commitBadge_paystack (w : World) (e : ℕ) (event : BadgeUnlockedEvent)
    (t : CashbackTransaction) : (w.commitBadge e event t).paystack = w.paystack := by
  unfold World.commitBadge
  split <;> split <;> rfl

theorem commitBadge_payoutAccounts (w : World) (e : ℕ) (event : BadgeUnlockedEvent)
    (t : CashbackTransaction) :
    (w.commitBadge e event t).db.payoutAccounts = w.db.payoutAccounts := by
  unfold World.commitBadge
  split <;> split <;> rfl

theorem handleBadgeUnlocked_frame {cfg : Config} {w w' : World} {e : ℕ} {pc : BadgePc}
    {o : Outcome} {th' : Thread} (h : handleBadgeUnlocked cfg w e pc o = some (w', th')) :
    w'.paystack = w.paystack ∧ w'.db.payoutAccounts = w.db.payoutAccounts ∧
      (th' = .done ∨ ∃ pc', th' = .badge pc') := by
  unfold handleBadgeUnlocked at h
  grind [unlock_paystack, lock_paystack, drawIds_paystack, addJob_paystack, commitBadge_paystack,
    unlock_payoutAccounts, lock_payoutAccounts, drawIds_db, addJob_db, commitBadge_payoutAccounts]

theorem RetryCaller.resume_cases (caller : RetryCaller) :
    caller.resume = .done ∨ ∃ pc, caller.resume = .scan pc := by
  cases caller with
  | manual => exact Or.inl rfl
  | scanner remaining => exact Or.inr ⟨_, rfl⟩

theorem retryPayment_frame {w w' : World} {caller : RetryCaller} {k : ReadableId}
    {event : BadgeUnlockedEvent} {pc : RetryPc} {o : Outcome} {th' : Thread}
    (h : retryPayment w caller k event pc o = some (w', th')) :
    w'.paystack = w.paystack ∧ w'.db.payoutAccounts = w.db.payoutAccounts ∧
      (th' = .done ∨ (∃ pc', th' = .scan pc') ∨ ∃ pc', th' = .retry caller k event pc') := by
  have hresume := caller.resume_cases
  have hcatch : caller.catch = caller.resume := rfl
  have hpaystack : (w.reviveTransaction k).paystack = w.paystack := rfl
  have haccounts : (w.reviveTransaction k).db.payoutAccounts = w.db.payoutAccounts := rfl
  unfold retryPayment at h
  grind [addJob_paystack, addJob_db]

theorem retryFailedTransaction_frame {cfg : Config} {w w' : World} {pc : ManualPc} {o : Outcome}
    {th' : Thread} (h : retryFailedTransaction cfg w pc o = some (w', th')) :
    w'.paystack = w.paystack ∧
      (th' = .done ∨ (∃ pc', th' = .manual pc') ∨
        ∃ k event, th' = .retry .manual k event .find) := by
  have hreset : ∀ k, (w.resetRetryCount k).paystack = w.paystack := fun k => rfl
  unfold retryFailedTransaction at h
  grind [drawIds_paystack, saveAccount_paystack]

theorem retryEligibleFailedTransactions_thread {cfg : Config} {w w' : World} {pc : ScanPc}
    {o : Outcome} {th' : Thread}
    (h : retryEligibleFailedTransactions cfg w pc o = some (w', th')) :
    th' = .done ∨ (∃ pc', th' = .scan pc') ∨
      ∃ remaining k event, th' = .retry (.scanner remaining) k event .find := by
  unfold retryEligibleFailedTransactions at h
  grind

theorem handleWebhook_frame {w w' : World} {hook : TransferWebhook} {pc : WebhookPc}
    {o : Outcome} {th' : Thread} (h : handleWebhook w hook pc o = some (w', th')) :
    (w'.paystack = w.paystack ∨ w'.paystack = (w.notifyTransfer hook.reference).paystack) ∧
      w'.db.payoutAccounts = w.db.payoutAccounts ∧
      (th' = .done ∨ ∃ pc', th' = .webhook hook pc') := by
  have hpaystack : ∀ t, (w.storeWebhook hook t).paystack =
      (w.notifyTransfer hook.reference).paystack := fun t => rfl
  have haccounts : ∀ t, (w.storeWebhook hook t).db.payoutAccounts = w.db.payoutAccounts :=
    fun t => rfl
  unfold handleWebhook at h
  grind [notifyTransfer_db]

theorem processPayment_thread {cfg : Config} {w w' : World} {e : ℕ} {r : PaymentRun}
    {pc : PaymentPc} {o : Outcome} {th' : Thread}
    (h : processPayment cfg w e r pc o = some (w', th')) :
    th' = .done ∨ ∃ pc', th' = .payment r pc' := by
  cases pc
  all_goals
    simp only [processPayment, findTransaction, claim, findAccount, saveAccount, sendCashback,
      initiateTransfer, receive, store, publish, recover, publishFailure] at h
    grind

/-- Only an attempt goes on as an attempt, with the same arguments. -/
theorem advance_payment {cfg : Config} {w w' : World} {e : ℕ} {th : Thread} {o : Outcome}
    {r : PaymentRun} {pc' : PaymentPc} (h : advance cfg w e th o = some (w', .payment r pc')) :
    ∃ pc, th = .payment r pc ∧ processPayment cfg w e r pc o = some (w', .payment r pc') := by
  cases th with
  | done => cases h
  | badge pc => simpa using (handleBadgeUnlocked_frame h).2.2
  | payment r₀ pc =>
    rcases processPayment_thread h with hth | ⟨pc', hth⟩
    · cases hth
    · obtain ⟨rfl, rfl⟩ := Thread.payment.inj hth
      exact ⟨pc, rfl, h⟩
  | retry caller k event pc => simpa using (retryPayment_frame h).2.2
  | manual pc => simpa using (retryFailedTransaction_frame h).2
  | scan pc => simpa using retryEligibleFailedTransactions_thread h
  | webhook hook pc => simpa using (handleWebhook_frame h).2.2

/-- Only a webhook handler goes on as a webhook handler, with the same webhook. -/
theorem advance_webhook {cfg : Config} {w w' : World} {e : ℕ} {th : Thread} {o : Outcome}
    {hook : TransferWebhook} {pc' : WebhookPc}
    (h : advance cfg w e th o = some (w', .webhook hook pc')) :
    ∃ pc, th = .webhook hook pc ∧ handleWebhook w hook pc o = some (w', .webhook hook pc') := by
  cases th with
  | done => cases h
  | badge pc => simpa using (handleBadgeUnlocked_frame h).2.2
  | payment r pc => simpa using processPayment_thread h
  | retry caller k event pc => simpa using (retryPayment_frame h).2.2
  | manual pc => simpa using (retryFailedTransaction_frame h).2
  | scan pc => simpa using retryEligibleFailedTransactions_thread h
  | webhook hook₀ pc =>
    rcases (handleWebhook_frame h).2.2 with hth | ⟨pc', hth⟩
    · cases hth
    · obtain ⟨rfl, rfl⟩ := Thread.webhook.inj hth
      exact ⟨pc, rfl, h⟩

end Bumpa.Cashback
