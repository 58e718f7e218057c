import Bumpa.Cashback.Writes

/-! # What threads carry in every reachable state

* `Thread.Coherent`: an attempt works on the row of its own transaction under the reference of its
  own claim, a webhook handler on a row with the webhook's reference.
* `Thread.Accepted`: an attempt that waits for Paystack's answer, or stores a PENDING one, has an
  accepted transfer under its reference.
* `UniqueReferences`: a reference belongs to one transaction, in the table and in every copy of a
  row that some thread may still write back.
-/
namespace Bumpa.Cashback
open Bumpa.Events Bumpa.Relational Bumpa.Transition
set_option autoImplicit false

/-! ## An attempt and its transaction -/

def PaymentPc.Coherent (r : PaymentRun) : PaymentPc → Prop
  | .find => True
  | .claim t => t.id = r.transactionId
  | .findAccount t reference => t.id = r.transactionId ∧ t.providerReference = some reference
  | .saveAccount t reference _ _ => t.id = r.transactionId ∧ t.providerReference = some reference
  | .sendCashback t _ request =>
    t.id = r.transactionId ∧ t.providerReference = some request.reference
  | .initiateTransfer t _ request _ =>
    t.id = r.transactionId ∧ t.providerReference = some request.reference
  | .receive t _ result =>
    t.id = r.transactionId ∧ t.providerReference = some result.reference ∧ result.status = .pending
  | .store t _ result =>
    t.id = r.transactionId ∧ t.providerReference = some result.reference ∧ result.status ≠ .failed
  | .publish t _ => t.id = r.transactionId
  | .recover t _ => t.id = r.transactionId
  | .publishFailure _ => True

def Thread.Coherent : Thread → Prop
  | .payment r pc => pc.Coherent r
  | .webhook hook (.save t) => t.providerReference = some hook.reference
  | _ => True

/-- An attempt that Paystack has answered, or will answer, with PENDING has an accepted transfer. -/
def Thread.Accepted (w : World) : Thread → Prop
  | .payment _ (.receive _ _ result) =>
    ∃ tr ∈ w.paystack.transfers, tr.request.reference = result.reference
  | .payment _ (.store _ _ result) =>
    result.status = .pending →
      ∃ tr ∈ w.paystack.transfers, tr.request.reference = result.reference
  | _ => True

theorem processPayment_coherent {cfg : Config} {w w' : World} {e : ℕ} {r : PaymentRun}
    {pc : PaymentPc} {o : Outcome} {th' : Thread}
    (h : processPayment cfg w e r pc o = some (w', th')) (hpc : pc.Coherent r) :
    th'.Coherent := by
  have hkey : ∀ t, w.db.transactions.row r.transactionId = some t → t.id = r.transactionId :=
    fun t ht => w.db.transactions.key_eq ht
  have hresult : ∀ (t row : CashbackTransaction) (result : CashbackPaymentResult),
      (t.withResult row result).id = t.id := fun _ _ _ => rfl
  cases pc
  all_goals
    simp only [PaymentPc.Coherent] at hpc
    simp only [processPayment, findTransaction, claim, findAccount, saveAccount, sendCashback,
      initiateTransfer, receive, store, publish, recover, publishFailure] at h
    grind [Thread.Coherent, PaymentPc.Coherent, CashbackTransaction.claimed,
      cashbackPaymentRequest]

theorem handleWebhook_coherent {w w' : World} {hook : TransferWebhook} {pc : WebhookPc}
    {o : Outcome} {th' : Thread} (h : handleWebhook w hook pc o = some (w', th')) :
    th'.Coherent := by
  have hfound : ∀ t, w.findByReference hook.reference = some t →
      t.providerReference = some hook.reference := fun t ht =>
    of_decide_eq_true (Table.find?_eq_some ht).2
  unfold handleWebhook at h
  grind [Thread.Coherent]

theorem advance_coherent {cfg : Config} {w w' : World} {e : ℕ} {th th' : Thread} {o : Outcome}
    (h : advance cfg w e th o = some (w', th')) (hth : th.Coherent) : th'.Coherent := by
  cases th with
  | done => cases h
  | badge pc => rcases (handleBadgeUnlocked_frame h).2.2 with rfl | ⟨pc', rfl⟩ <;> exact trivial
  | payment r pc => exact processPayment_coherent h hth
  | retry caller k event pc =>
    rcases (retryPayment_frame h).2.2 with rfl | ⟨pc', rfl⟩ | ⟨pc', rfl⟩ <;> exact trivial
  | manual pc =>
    rcases (retryFailedTransaction_frame h).2 with rfl | ⟨pc', rfl⟩ | ⟨k, event, rfl⟩ <;>
      exact trivial
  | scan pc =>
    rcases retryEligibleFailedTransactions_thread h with rfl | ⟨pc', rfl⟩ | ⟨_, _, _, rfl⟩ <;>
      exact trivial
  | webhook hook pc => exact handleWebhook_coherent h

theorem reaches_coherent {cfg : Config} {tr : List (Move State Label)} {s : State}
    (h : Reaches cfg tr s) (e : ℕ) : (s.threads e).Coherent := by
  have hstart : ∀ (_ : World) (th : Thread), Started th → th.Coherent := by
    rintro _ th ⟨⟩ <;> exact trivial
  exact (threads_invariant (fun _ => True) (fun _ th => th.Coherent) trivial (fun _ => trivial)
    hstart (fun _ _ _ => ⟨id, fun _ => id⟩)
    (fun s e o w' th' _ _ hth hadv => ⟨trivial, advance_coherent hadv hth, fun _ => id⟩) h
    (guarded_true tr)).2 e

/-! ## Accepted transfers -/

/-- The transfers of `w` are still there in `w'`. -/
def Remembers (w w' : World) : Prop :=
  ∀ tr ∈ w.paystack.transfers, ∃ tr' ∈ w'.paystack.transfers, tr'.request = tr.request

theorem Remembers.of_eq {w w' : World} (h : w'.paystack.transfers = w.paystack.transfers) :
    Remembers w w' := by
  intro tr htr
  rw [h]
  exact ⟨tr, htr, rfl⟩

theorem notifyTransfer_remembers (w : World) (reference : Reference) :
    Remembers w (w.notifyTransfer reference) := by
  intro tr htr
  refine ⟨_, List.mem_map_of_mem htr, ?_⟩
  split <;> rfl

theorem reportTransfer_remembers (w : World) (reference : Reference) :
    Remembers w (w.reportTransfer reference) := by
  intro tr htr
  refine ⟨_, List.mem_map_of_mem htr, ?_⟩
  split <;> rfl

theorem acceptTransfer_remembers (w : World) (transfer : Transfer) :
    Remembers w (w.acceptTransfer transfer) :=
  fun tr htr => ⟨tr, List.mem_append_left _ htr, rfl⟩

theorem Remembers.thread {w w' : World} (h : Remembers w w') {th : Thread}
    (hth : th.Accepted w) : th.Accepted w' := by
  have hmono : ∀ reference, (∃ tr ∈ w.paystack.transfers, tr.request.reference = reference) →
      ∃ tr ∈ w'.paystack.transfers, tr.request.reference = reference := by
    rintro reference ⟨tr, htr, heq⟩
    obtain ⟨tr', htr', hreq⟩ := h tr htr
    exact ⟨tr', htr', by rw [hreq, heq]⟩
  unfold Thread.Accepted at hth ⊢
  split at hth
  · exact hmono _ hth
  · exact fun hpending => hmono _ (hth hpending)
  · exact trivial

theorem processPayment_accepted {cfg : Config} {w w' : World} {e : ℕ} {r : PaymentRun}
    {pc : PaymentPc} {o : Outcome} {th' : Thread}
    (h : processPayment cfg w e r pc o = some (w', th')) (hpc : (Thread.payment r pc).Accepted w) :
    Remembers w w' ∧ th'.Accepted w' := by
  have hquiet : w'.paystack.transfers = w.paystack.transfers → th'.Accepted w' →
      Remembers w w' ∧ th'.Accepted w' := fun hp ht => ⟨Remembers.of_eq hp, ht⟩
  cases pc with
  | find =>
    simp only [processPayment, findTransaction] at h
    grind [failJob_paystack, completeJob_paystack, Thread.Accepted]
  | claim t =>
    have hclaim : ∀ j reference,
        ((w.drawIds 1).claimTransaction j reference).paystack = w.paystack := fun _ _ => rfl
    simp only [processPayment, claim] at h
    grind [failJob_paystack, completeJob_paystack, drawIds_paystack, Thread.Accepted]
  | findAccount t reference =>
    simp only [processPayment, findAccount] at h
    grind [drawIds_paystack, Thread.Accepted]
  | saveAccount t reference account isNew =>
    simp only [processPayment, saveAccount] at h
    grind [saveAccount_paystack, Thread.Accepted]
  | sendCashback t account request =>
    simp only [processPayment, sendCashback] at h
    grind [createRecipient_transfers, Thread.Accepted]
  | initiateTransfer t account request recipientCode =>
    simp only [processPayment, initiateTransfer] at h
    cases o with
    | ok =>
      obtain ⟨rfl, rfl⟩ := some_pair_inj h
      exact ⟨acceptTransfer_remembers w _,
        _, List.mem_append_right _ (List.mem_singleton_self _), rfl⟩
    | fails error written =>
      obtain ⟨rfl, rfl⟩ := some_pair_inj h
      exact hquiet rfl trivial
    | recipient code => cases h
  | receive t account result =>
    simp only [processPayment, receive] at h
    grind [Thread.Accepted]
  | store t account result =>
    simp only [processPayment, store] at h
    grind [storeResult_paystack, Thread.Accepted]
  | publish t eventIds =>
    simp only [processPayment, publish] at h
    grind [completeJob_paystack, Thread.Accepted]
  | recover t error =>
    have hreset : (w.resetTransaction r.transactionId).paystack = w.paystack := rfl
    have hfail : ∀ failure, (w.storeFailure cfg r t failure).paystack = w.paystack := fun _ => rfl
    simp only [processPayment, recover] at h
    grind [failJob_paystack, Thread.Accepted]
  | publishFailure eventId =>
    simp only [processPayment, publishFailure] at h
    grind [completeJob_paystack, failJob_paystack, Thread.Accepted]

theorem advance_accepted {cfg : Config} {w w' : World} {e : ℕ} {th th' : Thread} {o : Outcome}
    (h : advance cfg w e th o = some (w', th')) (hth : th.Accepted w) :
    Remembers w w' ∧ th'.Accepted w' := by
  cases th with
  | done => cases h
  | badge pc =>
    obtain ⟨hpaystack, _, hth'⟩ := handleBadgeUnlocked_frame h
    refine ⟨Remembers.of_eq (by rw [hpaystack]), ?_⟩
    rcases hth' with rfl | ⟨pc', rfl⟩ <;> exact trivial
  | payment r pc => exact processPayment_accepted h hth
  | retry caller k event pc =>
    obtain ⟨hpaystack, _, hth'⟩ := retryPayment_frame h
    refine ⟨Remembers.of_eq (by rw [hpaystack]), ?_⟩
    rcases hth' with rfl | ⟨pc', rfl⟩ | ⟨pc', rfl⟩ <;> exact trivial
  | manual pc =>
    obtain ⟨hpaystack, hth'⟩ := retryFailedTransaction_frame h
    refine ⟨Remembers.of_eq (by rw [hpaystack]), ?_⟩
    rcases hth' with rfl | ⟨pc', rfl⟩ | ⟨k, event, rfl⟩ <;> exact trivial
  | scan pc =>
    refine ⟨Remembers.of_eq (by rw [(retryEligibleFailedTransactions_world h).2.2]), ?_⟩
    rcases retryEligibleFailedTransactions_thread h with rfl | ⟨pc', rfl⟩ | ⟨_, _, _, rfl⟩ <;>
      exact trivial
  | webhook hook pc =>
    obtain ⟨hpaystack, _, hth'⟩ := handleWebhook_frame h
    refine ⟨?_, ?_⟩
    · rcases hpaystack with heq | heq
      · exact Remembers.of_eq (by rw [heq])
      · intro tr htr
        rw [heq]
        exact notifyTransfer_remembers w hook.reference tr htr
    · rcases hth' with rfl | ⟨pc', rfl⟩ <;> exact trivial

theorem Ambient.remembers {w w' : World} (h : Ambient w w') : Remembers w w' := by
  cases h with
  | report reference => exact reportTransfer_remembers w reference
  | _ => exact Remembers.of_eq rfl

theorem reaches_accepted {cfg : Config} {tr : List (Move State Label)} {s : State}
    (h : Reaches cfg tr s) (e : ℕ) : (s.threads e).Accepted s.world := by
  have hstart : ∀ (w : World) (th : Thread), Started th → th.Accepted w := by
    rintro w th ⟨⟩ <;> exact trivial
  exact (threads_invariant (fun _ => True) (fun w th => th.Accepted w) trivial (fun _ => trivial)
    hstart (fun _ _ hw => ⟨id, fun _ => hw.remembers.thread⟩)
    (fun s e o w' th' _ _ hth hadv =>
      have ⟨hremembers, hown⟩ := advance_accepted hadv hth
      ⟨trivial, hown, fun _ => hremembers.thread⟩) h (guarded_true tr)).2 e

/-! ## References -/

/-- The copy of a row that the thread may write back. -/
def Thread.copy : Thread → Option CashbackTransaction
  | .badge (.save _ t _) => some t
  | .badge (.findMarker _ t) => some t
  | .badge (.insertMarker _ t) => some t
  | .badge (.enqueue _ t) => some t
  | .badge (.commit _ t) => some t
  | .payment _ (.findAccount t _) => some t
  | .payment _ (.saveAccount t _ _ _) => some t
  | .payment _ (.sendCashback t _ _) => some t
  | .payment _ (.initiateTransfer t _ _ _) => some t
  | .payment _ (.receive t _ _) => some t
  | .payment _ (.store t _ _) => some t
  | .payment _ (.publish t _) => some t
  | .payment _ (.recover t _) => some t
  | .webhook _ (.save t) => some t
  | _ => none

def CashbackTransaction.Carries (t : CashbackTransaction) (k : ReadableId)
    (reference : Reference) : Prop :=
  t.id = k ∧ t.providerReference = some reference

/-- The row of `k`, or the copy of it, carries the reference. -/
def Owned (w : World) (th : Thread) (k : ReadableId) (reference : Reference) : Prop :=
  (∃ row, w.row k = some row ∧ row.Carries k reference) ∨
    ∃ t, th.copy = some t ∧ t.Carries k reference

/-- A copy in a thread is a copy of a row, or one it had, or that row under a fresh reference. -/
theorem handleBadgeUnlocked_copy {cfg : Config} {w w' : World} {e : ℕ} {pc : BadgePc}
    {o : Outcome} {th' : Thread} (h : handleBadgeUnlocked cfg w e pc o = some (w', th'))
    {t' : CashbackTransaction} (ht' : th'.copy = some t') :
    w.row t'.id = some t' ∨ t'.providerReference = none ∨ (Thread.badge pc).copy = some t' := by
  have hfound : ∀ userId badgeName t, w.findByBadge userId badgeName = some t →
      w.row t.id = some t := fun userId badgeName t ht => (Table.find?_eq_some ht).1
  have hnew : ∀ id event, (createTransaction cfg id event).providerReference = none :=
    fun _ _ => rfl
  unfold handleBadgeUnlocked at h
  grind [Thread.copy]

theorem handleWebhook_copy {w w' : World} {hook : TransferWebhook} {pc : WebhookPc} {o : Outcome}
    {th' : Thread} (h : handleWebhook w hook pc o = some (w', th')) {t' : CashbackTransaction}
    (ht' : th'.copy = some t') : w.row t'.id = some t' := by
  have hfound : ∀ t, w.findByReference hook.reference = some t → w.row t.id = some t :=
    fun t ht => (Table.find?_eq_some ht).1
  unfold handleWebhook at h
  grind [Thread.copy]

theorem processPayment_copy {cfg : Config} {w w' : World} {e : ℕ} {r : PaymentRun}
    {pc : PaymentPc} {o : Outcome} {th' : Thread}
    (h : processPayment cfg w e r pc o = some (w', th')) (hpc : pc.Coherent r)
    {t' : CashbackTransaction} (ht' : th'.copy = some t') :
    (∃ t, (Thread.payment r pc).copy = some t ∧ t'.id = t.id ∧
        t'.providerReference = t.providerReference) ∨
      ∃ t, pc = .claim t ∧ w'.nextId = w.nextId + 1 ∧
        t'.Carries r.transactionId ⟨getProvider cfg, w.nextId⟩ := by
  have hresult : ∀ (t row : CashbackTransaction) (result : CashbackPaymentResult),
      (t.withResult row result).id = t.id ∧
        (t.withResult row result).providerReference = some result.reference :=
    fun _ _ _ => ⟨rfl, rfl⟩
  have hclaim : ∀ (t : CashbackTransaction) reference, t.id = r.transactionId →
      (t.claimed reference).Carries r.transactionId reference := fun t _ ht => ⟨ht, rfl⟩
  have hnext : ∀ k reference,
      ((w.drawIds 1).claimTransaction k reference).nextId = w.nextId + 1 := fun _ _ => rfl
  cases pc
  all_goals
    simp only [PaymentPc.Coherent] at hpc
    simp only [processPayment, findTransaction, claim, findAccount, saveAccount, sendCashback,
      initiateTransfer, receive, store, publish, recover, publishFailure] at h
    grind [Thread.copy]

/-- A copy in a thread is a copy of a row, or one it had, or that row under a fresh reference. -/
theorem advance_copy {cfg : Config} {w w' : World} {e : ℕ} {th th' : Thread} {o : Outcome}
    (h : advance cfg w e th o = some (w', th')) (hth : th.Coherent) {t' : CashbackTransaction}
    (ht' : th'.copy = some t') :
    w.row t'.id = some t' ∨ t'.providerReference = none ∨
      (∃ t, th.copy = some t ∧ t'.id = t.id ∧ t'.providerReference = t.providerReference) ∨
      ∃ r t, th = .payment r (.claim t) ∧ w'.nextId = w.nextId + 1 ∧
        t'.Carries r.transactionId ⟨getProvider cfg, w.nextId⟩ := by
  cases th with
  | done => cases h
  | badge pc =>
    rcases handleBadgeUnlocked_copy h ht' with hrow | hnone | hcopy
    · exact Or.inl hrow
    · exact Or.inr (Or.inl hnone)
    · exact Or.inr (Or.inr (Or.inl ⟨t', hcopy, rfl, rfl⟩))
  | payment r pc =>
    rcases processPayment_copy h hth ht' with hcopy | ⟨t, rfl, hnext, hcarries⟩
    · exact Or.inr (Or.inr (Or.inl hcopy))
    · exact Or.inr (Or.inr (Or.inr ⟨r, t, rfl, hnext, hcarries⟩))
  | retry caller k event pc =>
    rcases (retryPayment_frame h).2.2 with rfl | ⟨pc', rfl⟩ | ⟨pc', rfl⟩ <;> cases ht'
  | manual pc =>
    rcases (retryFailedTransaction_frame h).2 with rfl | ⟨pc', rfl⟩ | ⟨k, event, rfl⟩ <;> cases ht'
  | scan pc =>
    rcases retryEligibleFailedTransactions_thread h with rfl | ⟨pc', rfl⟩ | ⟨_, _, _, rfl⟩ <;>
      cases ht'
  | webhook hook pc => exact Or.inl (handleWebhook_copy h ht')

theorem failJob_nextId (w : World) (e j : ℕ) : (w.failJob e j).nextId = w.nextId := by
  unfold World.failJob
  split
  · split <;> rfl
  · rfl

theorem completeJob_nextId (w : World) (e j : ℕ) : (w.completeJob e j).nextId = w.nextId := by
  unfold World.completeJob
  split
  · split <;> rfl
  · rfl

theorem storeResult_nextId (w : World) (r : PaymentRun) (t : CashbackTransaction)
    (account : PayoutAccount) (result : CashbackPaymentResult) :
    w.nextId ≤ (w.storeResult r t account result).nextId := by
  unfold World.storeResult
  split <;> split <;> first | exact Nat.le_refl _ | exact Nat.le_succ _

theorem processPayment_nextId {cfg : Config} {w w' : World} {e : ℕ} {r : PaymentRun}
    {pc : PaymentPc} {o : Outcome} {th' : Thread}
    (h : processPayment cfg w e r pc o = some (w', th')) : w.nextId ≤ w'.nextId := by
  have hdraw : w.nextId ≤ (w.drawIds 1).nextId := Nat.le_succ _
  have hclaim : ∀ k reference, w.nextId ≤ ((w.drawIds 1).claimTransaction k reference).nextId :=
    fun _ _ => Nat.le_succ _
  have hreset : (w.resetTransaction r.transactionId).nextId = w.nextId := rfl
  have hfailure : ∀ t failure, w.nextId ≤ (w.storeFailure cfg r t failure).nextId :=
    fun _ _ => Nat.le_succ _
  have hsave : ∀ account, (w.saveAccount account).nextId = w.nextId := fun _ => rfl
  have hcreate : ∀ code number bank, (w.createRecipient code number bank).nextId = w.nextId :=
    fun _ _ _ => rfl
  have haccept : ∀ transfer, (w.acceptTransfer transfer).nextId = w.nextId := fun _ => rfl
  cases pc
  all_goals
    simp only [processPayment, findTransaction, claim, findAccount, saveAccount, sendCashback,
      initiateTransfer, receive, store, publish, recover, publishFailure] at h
    grind [failJob_nextId, completeJob_nextId, storeResult_nextId]

theorem handleBadgeUnlocked_nextId {cfg : Config} {w w' : World} {e : ℕ} {pc : BadgePc}
    {o : Outcome} {th' : Thread} (h : handleBadgeUnlocked cfg w e pc o = some (w', th')) :
    w.nextId ≤ w'.nextId := by
  have hdraw : w.nextId ≤ (w.drawIds 1).nextId := Nat.le_succ _
  have hunlock : (w.unlock e).nextId = w.nextId := rfl
  have hlock : ∀ key, (w.lock e key).nextId = w.nextId := fun _ => rfl
  have hadd : ∀ k event, (w.addJob k event).nextId = w.nextId := fun _ _ => rfl
  have hunlock' : ∀ k event, ((w.addJob k event).unlock e).nextId = w.nextId := fun _ _ => rfl
  have hcommit : ∀ event t, (w.commitBadge e event t).nextId = w.nextId := by
    intro event t
    unfold World.commitBadge
    split <;> split <;> rfl
  unfold handleBadgeUnlocked at h
  grind

theorem advance_nextId {cfg : Config} {w w' : World} {e : ℕ} {th th' : Thread} {o : Outcome}
    (h : advance cfg w e th o = some (w', th')) : w.nextId ≤ w'.nextId := by
  have hdraw : w.nextId ≤ (w.drawIds 1).nextId := Nat.le_succ _
  have hdraw₂ : w.nextId ≤ (w.drawIds 2).nextId := Nat.le_add_right _ _
  have hadd : ∀ k event, (w.addJob k event).nextId = w.nextId := fun _ _ => rfl
  cases th with
  | done => cases h
  | badge pc => exact handleBadgeUnlocked_nextId h
  | payment r pc => exact processPayment_nextId h
  | retry caller k event pc =>
    have hrevive : (w.reviveTransaction k).nextId = w.nextId := rfl
    simp only [advance] at h
    unfold retryPayment at h
    grind
  | manual pc =>
    have hsave : ∀ account, (w.saveAccount account).nextId = w.nextId := fun _ => rfl
    have hreset : ∀ k, (w.resetRetryCount k).nextId = w.nextId := fun _ => rfl
    have hreset₂ : ∀ k, w.nextId ≤ ((w.resetRetryCount k).drawIds 2).nextId :=
      fun _ => Nat.le_add_right _ _
    simp only [advance] at h
    unfold retryFailedTransaction at h
    grind
  | scan pc =>
    simp only [advance] at h
    unfold retryEligibleFailedTransactions at h
    grind
  | webhook hook pc =>
    have hnotify : ∀ reference, (w.notifyTransfer reference).nextId = w.nextId := fun _ => rfl
    have hstore : ∀ t, w.nextId ≤ (w.storeWebhook hook t).nextId := fun _ => Nat.le_add_right _ _
    simp only [advance] at h
    unfold handleWebhook at h
    grind

theorem claim_nextId {cfg : Config} {w w' : World} {e : ℕ} {r : PaymentRun}
    {t : CashbackTransaction} {o : Outcome} {th' : Thread}
    (h : processPayment cfg w e r (.claim t) o = some (w', th')) : w'.nextId = w.nextId + 1 := by
  have hdraw : (w.drawIds 1).nextId = w.nextId + 1 := rfl
  have hclaim : ∀ k reference,
      ((w.drawIds 1).claimTransaction k reference).nextId = w.nextId + 1 := fun _ _ => rfl
  simp only [processPayment, claim] at h
  grind [failJob_nextId, completeJob_nextId]

/-- A reference in a written row was in the row or in the writer's copy of it, or is fresh. -/
theorem RowWrite.carries {cfg : Config} {w w' : World} {e : ℕ} {th th' : Thread} {o : Outcome}
    {k : ReadableId} {v : CashbackTransaction} (hv : RowWrite cfg w e th k v)
    (h : advance cfg w e th o = some (w', th')) (hth : th.Coherent) {reference : Reference}
    (href : v.providerReference = some reference) :
    Owned w th k reference ∨
      ∃ r t, th = .payment r (.claim t) ∧ k = r.transactionId ∧ w'.nextId = w.nextId + 1 ∧
        reference = ⟨getProvider cfg, w.nextId⟩ := by
  cases hv with
  | commit held => exact Or.inl (Or.inr ⟨v, rfl, rfl, href⟩)
  | @claim r t row found pending =>
    exact Or.inr ⟨r, t, rfl, rfl, claim_nextId h, (Option.some.inj href).symm⟩
  | @store r t account result free =>
    refine Or.inl (Or.inr ⟨t, rfl, rfl, ?_⟩)
    rw [hth.2.1]
    exact href
  | @reset r t row error found processing back =>
    exact Or.inl (Or.inl ⟨row, found, w.db.transactions.key_eq found, href⟩)
  | @failure r t error final free => exact Or.inl (Or.inr ⟨t, rfl, rfl, href⟩)
  | @revive caller k event row found failed =>
    exact Or.inl (Or.inl ⟨row, found, w.db.transactions.key_eq found, href⟩)
  | @resetCount t row account found =>
    exact Or.inl (Or.inl ⟨row, found, w.db.transactions.key_eq found, href⟩)
  | @webhook hook t free =>
    refine Or.inl (Or.inr ⟨t, rfl, rfl, ?_⟩)
    rw [← href]
    unfold TransferWebhook.mark
    split <;> rfl

/-- Who owns a reference after a step owned it before, unless the step drew it. -/
theorem advance_owned {cfg : Config} {w w' : World} {e : ℕ} {th th' : Thread} {o : Outcome}
    (h : advance cfg w e th o = some (w', th')) (hth : th.Coherent) {k : ReadableId}
    {reference : Reference} (hown : Owned w' th' k reference) :
    Owned w th k reference ∨
      ∃ r t, th = .payment r (.claim t) ∧ k = r.transactionId ∧ w'.nextId = w.nextId + 1 ∧
        reference = ⟨getProvider cfg, w.nextId⟩ := by
  rcases hown with ⟨row, hrow, hid, href⟩ | ⟨t', ht', hid, href⟩
  · rcases advance_rows h with hsame | ⟨k₀, v, hv, hwritten⟩
    · rw [hsame] at hrow
      exact Or.inl (Or.inl ⟨row, hrow, hid, href⟩)
    · rw [hwritten] at hrow
      split at hrow
      · next heq =>
        subst heq
        rw [Option.some.injEq] at hrow
        subst hrow
        exact hv.carries h hth href
      · exact Or.inl (Or.inl ⟨row, hrow, hid, href⟩)
  · rcases advance_copy h hth ht' with hrow | hnone | ⟨t, ht, hid', href'⟩ | ⟨r, t, hpc, hnext, hc⟩
    · subst hid
      exact Or.inl (Or.inl ⟨t', hrow, rfl, href⟩)
    · rw [hnone] at href
      cases href
    · exact Or.inl (Or.inr ⟨t, ht, by rw [← hid', hid], by rw [← href', href]⟩)
    · refine Or.inr ⟨r, t, hpc, ?_, hnext, ?_⟩
      · rw [← hid, hc.1]
      · rw [← Option.some.injEq, ← href, hc.2]

/-- A reference belongs to one transaction, and references to come are fresh. -/
structure UniqueReferences (s : State) : Prop where
  fresh : ∀ e k reference, Owned s.world (s.threads e) k reference → reference.id < s.world.nextId
  unique : ∀ e e' k k' reference, Owned s.world (s.threads e) k reference →
    Owned s.world (s.threads e') k' reference → k = k'

theorem Owned.of_thread {w w' : World} {th : Thread} {k : ReadableId} {reference : Reference}
    (hrows : w'.db.transactions = w.db.transactions) (h : Owned w' th k reference) :
    Owned w th k reference := by
  simpa only [Owned, World.row, hrows] using h

/-- Every owner after the step is an owner before it. -/
theorem UniqueReferences.mono {s s' : State} (hs : UniqueReferences s)
    (hnext : s.world.nextId ≤ s'.world.nextId)
    (howned : ∀ e k reference, Owned s'.world (s'.threads e) k reference →
      ∃ e', Owned s.world (s.threads e') k reference) : UniqueReferences s' where
  fresh := by
    intro e k reference h
    obtain ⟨e', h'⟩ := howned e k reference h
    exact Nat.lt_of_lt_of_le (hs.fresh e' k reference h') hnext
  unique := by
    intro e₁ e₂ k₁ k₂ reference h₁ h₂
    obtain ⟨e₁', h₁'⟩ := howned e₁ k₁ reference h₁
    obtain ⟨e₂', h₂'⟩ := howned e₂ k₂ reference h₂
    exact hs.unique e₁' e₂' k₁ k₂ reference h₁' h₂'

theorem uniqueReferences_run {cfg : Config} {s s' : State} {e : ℕ} {o : Outcome} {th' : Thread}
    (hs : UniqueReferences s) (hco : ∀ e, (s.threads e).Coherent)
    (hadv : advance cfg s.world e (s.threads e) o = some (s'.world, th'))
    (hth : ∀ e', s'.threads e' = if e' = e then th' else s.threads e') : UniqueReferences s' := by
  -- an owner after the step owned before it, or has the one reference this step drew
  have hback : ∀ e' k reference, Owned s'.world (s'.threads e') k reference →
      (∃ e₀, Owned s.world (s.threads e₀) k reference) ∨
        ∃ r t, s.threads e = .payment r (.claim t) ∧ k = r.transactionId ∧
          s'.world.nextId = s.world.nextId + 1 ∧
          reference = ⟨getProvider cfg, s.world.nextId⟩ := by
    intro e' k reference h
    have hown : Owned s'.world th' k reference ∨ Owned s.world (s.threads e') k reference := by
      rcases h with hrow | hcopy
      · exact Or.inl (Or.inl hrow)
      · rw [hth] at hcopy
        split at hcopy
        · exact Or.inl (Or.inr hcopy)
        · exact Or.inr (Or.inr hcopy)
    rcases hown with h | h
    · rcases advance_owned hadv (hco e) h with h₀ | hfresh
      · exact Or.inl ⟨e, h₀⟩
      · exact Or.inr hfresh
    · exact Or.inl ⟨e', h⟩
  refine ⟨fun e' k reference h => ?_, fun e₁ e₂ k₁ k₂ reference h₁ h₂ => ?_⟩
  · rcases hback e' k reference h with ⟨e₀, h₀⟩ | ⟨r, t, _, _, hnext, rfl⟩
    · exact Nat.lt_of_lt_of_le (hs.fresh e₀ k reference h₀) (advance_nextId hadv)
    · rw [hnext]
      exact Nat.lt_succ_self _
  · rcases hback e₁ k₁ reference h₁ with ⟨e₁', h₁'⟩ | ⟨r₁, t₁, hpc₁, hk₁, _, hr₁⟩
    · rcases hback e₂ k₂ reference h₂ with ⟨e₂', h₂'⟩ | ⟨r₂, t₂, _, _, _, hr₂⟩
      · exact hs.unique e₁' e₂' k₁ k₂ reference h₁' h₂'
      · have hlt := hs.fresh e₁' k₁ reference h₁'
        rw [hr₂] at hlt
        exact absurd hlt (Nat.lt_irrefl _)
    · rcases hback e₂ k₂ reference h₂ with ⟨e₂', h₂'⟩ | ⟨r₂, t₂, hpc₂, hk₂, _, _⟩
      · have hlt := hs.fresh e₂' k₂ reference h₂'
        rw [hr₁] at hlt
        exact absurd hlt (Nat.lt_irrefl _)
      · rw [hpc₁, Thread.payment.injEq] at hpc₂
        rw [hk₁, hk₂, hpc₂.1]

theorem reaches_uniqueReferences {cfg : Config} {tr : List (Move State Label)} {s : State}
    (h : Reaches cfg tr s) : UniqueReferences s := by
  have hinit : (∀ e, (initial.threads e).Coherent) ∧ UniqueReferences initial := by
    have hnone : ∀ e k reference, ¬ Owned initial.world (initial.threads e) k reference := by
      rintro e k reference (⟨row, hrow, _⟩ | ⟨t, ht, _⟩)
      · cases hrow
      · cases ht
    exact ⟨fun _ => trivial, fun e k reference h => absurd h (hnone e k reference),
      fun e e' k k' reference h => absurd h (hnone e k reference)⟩
  refine (Run.invariant (fun s => (∀ e, (s.threads e).Coherent) ∧ UniqueReferences s) ?_ h
    hinit).2
  rintro s l s' ⟨hco, hs⟩ hstep
  rcases step_cases hstep with ⟨e, o, th', rfl, hadv, _, hth⟩ | ⟨hw, _, hrest⟩
  · refine ⟨fun e' => ?_, uniqueReferences_run hs hco hadv hth⟩
    rw [hth]
    split
    · exact advance_coherent hadv (hco e)
    · exact hco e'
  · have hthreads : ∀ e, s'.threads e = s.threads e ∨
        (s'.threads e).copy = none ∧ (s'.threads e).Coherent := by
      intro e
      rcases hrest with ⟨th, hstarted, _, hth⟩ | ⟨_, hth⟩
      · rw [hth]
        split
        · exact Or.inr (by cases hstarted <;> exact ⟨rfl, trivial⟩)
        · exact Or.inl rfl
      · rcases hth e with heq | heq
        · exact Or.inl heq
        · exact Or.inr (by rw [heq]; exact ⟨rfl, trivial⟩)
    refine ⟨fun e => ?_, hs.mono hw.nextId.ge fun e k reference hown => ⟨e, ?_⟩⟩
    · rcases hthreads e with heq | ⟨_, hcoherent⟩
      · rw [heq]
        exact hco e
      · exact hcoherent
    · have hown' := hown.of_thread hw.transactions
      rcases hthreads e with heq | ⟨hnone, _⟩
      · rw [heq] at hown'
        exact hown'
      · rcases hown' with hrow | ⟨t, ht, _⟩
        · exact Or.inl hrow
        · rw [hnone] at ht
          cases ht

end Bumpa.Cashback
