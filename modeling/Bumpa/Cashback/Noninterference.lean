import Bumpa.Cashback.Attempts

/-! # Two payments side by side

Attempts on different transactions share the payout account of the user. `upsertPayoutAccount`
looks it up and inserts it later, so one of two attempts may run into the unique index, which the
catch block takes for a rejection by the provider; and an attempt that finds the recipient code
another one has stored in between sends another request.

`payments_independent`: with a provider that answers by the request alone each row comes out as if
its attempt had run alone, if neither happens (`undisturbed`). `payment_rejected_by_index` is two
badges of a new user.

`expectedVerdict` is what an attempt comes to, computed from the state that it starts in;
`OnCourse` is the invariant that leads there.
-/
namespace Bumpa.Cashback
open Bumpa.Events Bumpa.Relational Bumpa.Transition
set_option autoImplicit false

/-! ## The provider -/

/-- Paystack's reaction to a transfer; the answer to an accepted one may be lost. -/
inductive TransferReply where
  | accepted
  | lost (error : Thrown)
  | rejected (error : Thrown)

/-- A provider whose answers depend on the request alone, and not on the fresh reference in it. -/
structure Provider where
  recipient : CashbackPaymentRequest → Except Thrown String
  transfer : CashbackPaymentRequest → String → TransferReply
  recipient_fresh : ∀ request reference,
    recipient { request with reference := reference } = recipient request
  transfer_fresh : ∀ request reference code,
    transfer { request with reference := reference } code = transfer request code

/-- How the awaited call at the program point ends. -/
def Provider.outcome (provider : Provider) (cfg : Config) (r : PaymentRun) : PaymentPc → Outcome
  | .sendCashback _ _ request =>
    if callsTransferRecipient cfg request then
      match provider.recipient request with
      | .ok code => .recipient code
      | .error error => .fails error false
    else .ok
  | .initiateTransfer _ _ request code =>
    match provider.transfer request code with
    | .rejected error => .fails error false
    | _ => .ok
  | .receive t account result =>
    match provider.transfer (cashbackPaymentRequest r.event t account result.reference)
      (result.providerRecipientCode.getD "") with
    | .lost error => .fails error false
    | _ => .ok
  | _ => .ok

/-- Thread `e`, an attempt, runs to its next call, and the provider answers it. -/
def Provider.Runs (provider : Provider) (cfg : Config) (e : ℕ) (x : Move State Label) : Prop :=
  ∃ r pc, x.source.threads e = .payment r pc ∧ x.label = .run e (provider.outcome cfg r pc)

/-- The attempts `es` run to their ends, in some order, and nobody else runs. -/
structure Completes (provider : Provider) (cfg : Config) (s₀ : State) (es : List ℕ)
    (tr : List (Move State Label)) (s : State) : Prop where
  run : Run (step cfg) s₀ tr s
  moves : ∀ x ∈ tr, ∃ e ∈ es, provider.Runs cfg e x
  through : ∀ e ∈ es, s.threads e = .done

/-! ## What an attempt comes to -/

/-- What the claim is about: how the payment of a transaction stands. -/
structure Verdict where
  status : CashbackTransactionStatus
  failureCode : Option CashbackFailureCode
  retryable : Option Bool
  deriving DecidableEq

def CashbackTransaction.verdict (t : CashbackTransaction) : Verdict :=
  ⟨t.status, t.failureCode, t.retryable⟩

def World.verdict (w : World) (k : ReadableId) : Option Verdict :=
  (w.row k).map CashbackTransaction.verdict

def World.recipientCodeOf (w : World) (userId : String) : Option String :=
  (w.account userId).bind PayoutAccount.providerRecipientCode

def PaymentPc.undisturbed (w₀ w : World) (r : PaymentRun) : PaymentPc → Bool
  | .findAccount _ _ =>
    w.recipientCodeOf r.event.payload.user.id = w₀.recipientCodeOf r.event.payload.user.id
  | .saveAccount _ _ account isNew => !w.accountConflicts account isNew
  | _ => true

/-- An attempt finds the recipient code on its account that was there at the start, and its insert
of an account meets none. -/
def undisturbed (w₀ : World) (s : State) : Label → Bool
  | .run e _ =>
    match s.threads e with
    | .payment r pc => pc.undisturbed w₀ s.world r
    | _ => true
  | _ => true

/-- The transfer of a request, to a recipient. -/
def Provider.pays (provider : Provider) (request : CashbackPaymentRequest) (code : String) :
    Except Thrown PaymentStatus :=
  match provider.transfer request code with
  | .accepted => .ok .pending
  | .lost error => .error error
  | .rejected error => .error error

/-- What `sendCashback` resolves or rejects with. -/
def Provider.sends (provider : Provider) (cfg : Config) (request : CashbackPaymentRequest) :
    Except Thrown PaymentStatus :=
  if dryRuns cfg then .ok .successful
  else if request.bankAccountNumber = "" || request.bankCode = "" then
    .error (.payment (missingBankDetailsError
      "Bank account number and bank code are required for Paystack cashback"))
  else
    match request.providerRecipientCode with
    | some code => provider.pays request code
    | none =>
      match provider.recipient request with
      | .ok code => provider.pays request code
      | .error error => .error error

/-- The request of an attempt that finds the recipient code of the start, up to its reference. -/
def requestOf (cfg : Config) (w₀ : World) (r : PaymentRun) (row : CashbackTransaction) :
    CashbackPaymentRequest where
  userId := r.event.payload.user.id
  userName := r.event.payload.user.name
  badgeName := r.event.payload.badgeName
  amountKobo := row.amountKobo
  bankAccountNumber := r.event.payload.user.bankAccountNumber.getD ""
  bankCode := r.event.payload.user.bankCode.getD ""
  providerRecipientCode := w₀.recipientCodeOf r.event.payload.user.id
  reference := ⟨getProvider cfg, 0⟩

/-- What the `try` block of an attempt resolves or rejects with. -/
def Provider.attempt (provider : Provider) (cfg : Config) (w₀ : World) (r : PaymentRun)
    (row : CashbackTransaction) : Except Thrown PaymentStatus :=
  if truthy r.event.payload.user.bankAccountNumber && truthy r.event.payload.user.bankCode then
    provider.sends cfg (requestOf cfg w₀ r row)
  else
    .error (.payment (missingBankDetailsError
      "User payout account is required before cashback can be processed"))

/-- What is recorded of it. -/
def attemptVerdict (r : PaymentRun) (row : CashbackTransaction) :
    Except Thrown PaymentStatus → Verdict
  | .ok status => ⟨.ofPayment status, none, none⟩
  | .error error =>
    let failure := classifyCashbackFailure error
    if handsBack r failure then ⟨.pending, row.failureCode, row.retryable⟩
    else ⟨.failed, some failure.code, some failure.retryable⟩

def Provider.expectedVerdict (provider : Provider) (cfg : Config) (w₀ : World) (r : PaymentRun) :
    Option Verdict :=
  (w₀.row r.transactionId).map fun row =>
    if row.status = .pending then attemptVerdict r row (provider.attempt cfg w₀ r row)
    else row.verdict

theorem sends_fresh (provider : Provider) (cfg : Config) (request : CashbackPaymentRequest)
    (reference : Reference) :
    provider.sends cfg { request with reference := reference } = provider.sends cfg request := by
  simp only [Provider.sends, Provider.pays, provider.recipient_fresh, provider.transfer_fresh]

/-! ## An attempt on its course -/

/-- The claim of `row₀` has gone through, and no more has been written. -/
def Claimed (row₀ : CashbackTransaction) (row : Option CashbackTransaction) : Prop :=
  ∃ t, row = some t ∧ t.status = .processing ∧ t.failureCode = row₀.failureCode ∧
    t.retryable = row₀.retryable

/-- An attempt on `row₀` whose `try` block ends in `reply`, between its claim and its last save. -/
inductive InProgress (provider : Provider) (cfg : Config) (r : PaymentRun)
    (row₀ : CashbackTransaction) (reply : Except Thrown PaymentStatus) : PaymentPc → Prop
  | findAccount {t : CashbackTransaction} {reference : Reference}
      (amount : t.amountKobo = row₀.amountKobo) :
      InProgress provider cfg r row₀ reply (.findAccount t reference)
  | saveAccount {t : CashbackTransaction} {reference : Reference} {account : PayoutAccount}
      {isNew : Bool}
      (sends : provider.sends cfg (cashbackPaymentRequest r.event t account reference) = reply) :
      InProgress provider cfg r row₀ reply (.saveAccount t reference account isNew)
  | sendCashback {t : CashbackTransaction} {account : PayoutAccount} {reference : Reference}
      (sends : provider.sends cfg (cashbackPaymentRequest r.event t account reference) = reply) :
      InProgress provider cfg r row₀ reply
        (.sendCashback t account (cashbackPaymentRequest r.event t account reference))
  | initiateTransfer {t : CashbackTransaction} {account : PayoutAccount} {reference : Reference}
      {code : String}
      (pays : provider.pays (cashbackPaymentRequest r.event t account reference) code = reply) :
      InProgress provider cfg r row₀ reply
        (.initiateTransfer t account (cashbackPaymentRequest r.event t account reference) code)
  | receive {t : CashbackTransaction} {account : PayoutAccount} {reference : Reference}
      {code : String}
      (pays : provider.pays (cashbackPaymentRequest r.event t account reference) code = reply)
      (taken : ∀ error, provider.transfer (cashbackPaymentRequest r.event t account reference)
        code ≠ .rejected error) :
      InProgress provider cfg r row₀ reply
        (.receive t account ⟨.paystack, reference, .pending, some code⟩)
  | store {t : CashbackTransaction} {account : PayoutAccount} {result : CashbackPaymentResult}
      (resolved : reply = .ok result.status) :
      InProgress provider cfg r row₀ reply (.store t account result)
  | recover {t : CashbackTransaction} {error : Thrown} (rejected : reply = .error error) :
      InProgress provider cfg r row₀ reply (.recover t error)

/-- Nothing is left to write. -/
def Thread.Over (r : PaymentRun) : Thread → Prop
  | .done => True
  | .payment r' (.publish _ _) => r' = r
  | .payment r' (.publishFailure _) => r' = r
  | _ => False

/-- The attempt of run `r` leads to the expected verdict; `row` is its transaction's row. -/
inductive OnCourse (provider : Provider) (cfg : Config) (w₀ : World) (r : PaymentRun) :
    Option CashbackTransaction → Thread → Prop
  | find : OnCourse provider cfg w₀ r (w₀.row r.transactionId) (.payment r .find)
  | claim {row₀ : CashbackTransaction} (found : w₀.row r.transactionId = some row₀)
      (pending : row₀.status = .pending) :
      OnCourse provider cfg w₀ r (some row₀) (.payment r (.claim row₀))
  | inProgress {row₀ : CashbackTransaction} {row : Option CashbackTransaction} {pc : PaymentPc}
      (found : w₀.row r.transactionId = some row₀) (pending : row₀.status = .pending)
      (claimed : Claimed row₀ row)
      (progress : InProgress provider cfg r row₀ (provider.attempt cfg w₀ r row₀) pc) :
      OnCourse provider cfg w₀ r row (.payment r pc)
  | ended {row : Option CashbackTransaction} {th : Thread} (ended : th.Over r)
      (verdict : row.map CashbackTransaction.verdict = provider.expectedVerdict cfg w₀ r) :
      OnCourse provider cfg w₀ r row th

/-! ## One step of the attempt -/

section Step
variable {provider : Provider} {cfg : Config} {w₀ w w' : World} {e : ℕ} {r : PaymentRun}
  {row₀ : CashbackTransaction} {reply : Except Thrown PaymentStatus} {th' : Thread}

theorem expectedVerdict_of_pending (found : w₀.row r.transactionId = some row₀)
    (pending : row₀.status = .pending) : provider.expectedVerdict cfg w₀ r =
      some (attemptVerdict r row₀ (provider.attempt cfg w₀ r row₀)) := by
  rw [Provider.expectedVerdict, found, Option.map_some, if_pos pending]

theorem onCourse_find (hrow : w.row r.transactionId = w₀.row r.transactionId)
    (h : findTransaction w e r .ok = some (w', th')) :
    OnCourse provider cfg w₀ r (w'.row r.transactionId) th' := by
  simp only [findTransaction] at h
  split at h
  · next hnone =>
    obtain ⟨rfl, rfl⟩ := some_pair_inj h
    have hfound : w₀.row r.transactionId = none := by rw [← hrow]; exact hnone
    refine .ended trivial ?_
    rw [World.row, failJob_db, hnone, Provider.expectedVerdict, hfound]
    rfl
  · next t ht =>
    have hfound : w₀.row r.transactionId = some t := by rw [← hrow]; exact ht
    split_ifs at h with hpending
    · obtain ⟨rfl, rfl⟩ := some_pair_inj h
      rw [World.row, ht]
      exact .claim hfound hpending
    · obtain ⟨rfl, rfl⟩ := some_pair_inj h
      refine .ended trivial ?_
      rw [World.row, completeJob_db, ht, Provider.expectedVerdict, hfound, Option.map_some,
        Option.map_some, if_neg hpending]

theorem onCourse_claim (found : w₀.row r.transactionId = some row₀)
    (pending : row₀.status = .pending) (hrow : w.row r.transactionId = some row₀)
    (h : claim cfg w e r row₀ .ok = some (w', th')) :
    OnCourse provider cfg w₀ r (w'.row r.transactionId) th' := by
  simp only [claim, statusOf_eq hrow, pending, if_true] at h
  split_ifs at h
  obtain ⟨rfl, rfl⟩ := some_pair_inj h
  refine .inProgress found pending ?_ (.findAccount rfl)
  refine ⟨row₀.claimed ⟨getProvider cfg, w.nextId⟩, ?_, rfl, rfl, rfl⟩
  have hclaimed := updateTransaction_row (w := w.drawIds 1) (·.status = .pending)
    (f := (·.claimed ⟨getProvider cfg, w.nextId⟩)) (fun _ => rfl) hrow
  rwa [decide_eq_true pending, if_pos rfl] at hclaimed

/-- The account that the attempt works with has the recipient code of the start. -/
theorem attempt_eq_sends {t : CashbackTransaction} {reference : Reference} {account : PayoutAccount}
    (hdetails : (truthy r.event.payload.user.bankAccountNumber &&
      truthy r.event.payload.user.bankCode) = true)
    (hnumber : account.bankAccountNumber = r.event.payload.user.bankAccountNumber.getD "")
    (hbank : account.bankCode = r.event.payload.user.bankCode.getD "")
    (hcode : account.providerRecipientCode = w₀.recipientCodeOf r.event.payload.user.id)
    (hamount : t.amountKobo = row₀.amountKobo) :
    provider.sends cfg (cashbackPaymentRequest r.event t account reference) =
      provider.attempt cfg w₀ r row₀ := by
  simp only [Provider.attempt, hdetails, if_true, cashbackPaymentRequest, hnumber, hbank, hcode,
    hamount]
  exact sends_fresh provider cfg (requestOf cfg w₀ r row₀) reference

theorem onCourse_findAccount {t : CashbackTransaction} {reference : Reference}
    {row : Option CashbackTransaction} (found : w₀.row r.transactionId = some row₀)
    (pending : row₀.status = .pending) (claimed : Claimed row₀ row)
    (hrow : w.row r.transactionId = row) (amount : t.amountKobo = row₀.amountKobo)
    (hcode : w.recipientCodeOf r.event.payload.user.id =
      w₀.recipientCodeOf r.event.payload.user.id)
    (h : findAccount cfg w r t reference .ok = some (w', th')) :
    OnCourse provider cfg w₀ r (w'.row r.transactionId) th' := by
  rw [← hrow] at claimed
  simp only [findAccount] at h
  split at h
  · next hdetails =>
    split at h
    · next existing hexisting =>
      obtain ⟨rfl, rfl⟩ := some_pair_inj h
      refine .inProgress found pending claimed (.saveAccount (attempt_eq_sends hdetails rfl rfl ?_
        amount))
      rw [← hcode, World.recipientCodeOf, World.account, hexisting, Option.bind_some]
    · next hnone =>
      obtain ⟨rfl, rfl⟩ := some_pair_inj h
      refine .inProgress found pending claimed (.saveAccount (attempt_eq_sends hdetails rfl rfl ?_
        amount))
      rw [← hcode, World.recipientCodeOf, World.account, hnone, Option.bind_none]
  · next hdetails =>
    obtain ⟨rfl, rfl⟩ := some_pair_inj h
    refine .inProgress found pending claimed (.recover ?_)
    rw [Provider.attempt, if_neg hdetails]

theorem onCourse_sendCashback {t : CashbackTransaction} {reference : Reference}
    {account : PayoutAccount} {request : CashbackPaymentRequest}
    (hrequest : request = cashbackPaymentRequest r.event t account reference)
    (found : w₀.row r.transactionId = some row₀) (pending : row₀.status = .pending)
    (claimed : Claimed row₀ (w.row r.transactionId))
    (sends : provider.sends cfg request = provider.attempt cfg w₀ r row₀)
    (h : processPayment cfg w e r (.sendCashback t account request)
      (provider.outcome cfg r (.sendCashback t account request)) = some (w', th')) :
    OnCourse provider cfg w₀ r (w'.row r.transactionId) th' := by
  have htransfer : ∀ code, provider.pays request code = provider.attempt cfg w₀ r row₀ →
      OnCourse provider cfg w₀ r (w.row r.transactionId)
        (.payment r (.initiateTransfer t account request code)) := by
    intro code pays
    rw [hrequest] at pays ⊢
    exact .inProgress found pending claimed (.initiateTransfer pays)
  unfold Provider.sends at sends
  by_cases hdry : dryRuns cfg = true
  · have hcalls : callsTransferRecipient cfg request = false := by
      simp [callsTransferRecipient, hdry]
    rw [if_pos hdry] at sends
    simp only [processPayment, Provider.outcome, hcalls, Bool.false_eq_true, if_false, sendCashback,
      hdry, if_true] at h
    obtain ⟨rfl, rfl⟩ := some_pair_inj h
    exact .inProgress found pending claimed (.store sends.symm)
  · rw [if_neg hdry] at sends
    by_cases hdetails : (request.bankAccountNumber = "" || request.bankCode = "") = true
    · have hcalls : callsTransferRecipient cfg request = false := by
        simp only [Bool.or_eq_true, decide_eq_true_eq] at hdetails
        rcases hdetails with hempty | hempty <;> simp [callsTransferRecipient, hempty]
      rw [if_pos hdetails] at sends
      simp only [processPayment, Provider.outcome, hcalls, Bool.false_eq_true, if_false,
        sendCashback, hdry, hdetails, if_true] at h
      obtain ⟨rfl, rfl⟩ := some_pair_inj h
      exact .inProgress found pending claimed (.recover sends.symm)
    · rw [if_neg hdetails] at sends
      cases hcode : request.providerRecipientCode with
      | some code =>
        have hcalls : callsTransferRecipient cfg request = false := by
          simp [callsTransferRecipient, hcode]
        rw [hcode] at sends
        simp only [processPayment, Provider.outcome, hcalls, Bool.false_eq_true, if_false,
          sendCashback, hdry, hdetails, hcode] at h
        obtain ⟨rfl, rfl⟩ := some_pair_inj h
        exact htransfer code sends
      | none =>
        have hcalls : callsTransferRecipient cfg request = true := by
          simp only [Bool.or_eq_true, decide_eq_true_eq, not_or] at hdetails
          simp [callsTransferRecipient, hdry, hdetails.1, hdetails.2, hcode]
        rw [hcode] at sends
        simp only [processPayment, Provider.outcome, hcalls, if_true] at h
        cases hreply : provider.recipient request with
        | ok code =>
          simp only [hreply] at sends h
          simp only [sendCashback, hcalls, Bool.true_and] at h
          split_ifs at h
          obtain ⟨rfl, rfl⟩ := some_pair_inj h
          exact htransfer code sends
        | error error =>
          simp only [hreply] at sends h
          simp only [sendCashback, hcalls, if_true] at h
          obtain ⟨rfl, rfl⟩ := some_pair_inj h
          exact .inProgress found pending claimed (.recover sends.symm)

theorem onCourse_initiateTransfer {t : CashbackTransaction} {reference : Reference}
    {account : PayoutAccount} {code : String} (found : w₀.row r.transactionId = some row₀)
    (pending : row₀.status = .pending) (claimed : Claimed row₀ (w.row r.transactionId))
    (pays : provider.pays (cashbackPaymentRequest r.event t account reference) code =
      provider.attempt cfg w₀ r row₀)
    (h : processPayment cfg w e r
      (.initiateTransfer t account (cashbackPaymentRequest r.event t account reference) code)
      (provider.outcome cfg r (.initiateTransfer t account
        (cashbackPaymentRequest r.event t account reference) code)) = some (w', th')) :
    OnCourse provider cfg w₀ r (w'.row r.transactionId) th' := by
  have hreceive : (∀ error, provider.transfer (cashbackPaymentRequest r.event t account reference)
      code ≠ .rejected error) → ∀ row, row = w.row r.transactionId →
      OnCourse provider cfg w₀ r row
        (.payment r (.receive t account ⟨.paystack, reference, .pending, some code⟩)) := by
    rintro taken _ rfl
    exact .inProgress found pending claimed (.receive pays taken)
  simp only [processPayment, Provider.outcome] at h
  cases hreply : provider.transfer (cashbackPaymentRequest r.event t account reference) code with
  | accepted =>
    simp only [hreply, initiateTransfer] at h
    obtain ⟨rfl, rfl⟩ := some_pair_inj h
    exact hreceive (by simp [hreply]) _ rfl
  | lost error =>
    simp only [hreply, initiateTransfer] at h
    obtain ⟨rfl, rfl⟩ := some_pair_inj h
    exact hreceive (by simp [hreply]) _ rfl
  | rejected error =>
    simp only [hreply, initiateTransfer] at h
    obtain ⟨rfl, rfl⟩ := some_pair_inj h
    refine .inProgress found pending claimed (.recover ?_)
    rw [← pays, Provider.pays, hreply]

theorem onCourse_receive {t : CashbackTransaction} {reference : Reference}
    {account : PayoutAccount} {code : String} (found : w₀.row r.transactionId = some row₀)
    (pending : row₀.status = .pending) (claimed : Claimed row₀ (w.row r.transactionId))
    (pays : provider.pays (cashbackPaymentRequest r.event t account reference) code =
      provider.attempt cfg w₀ r row₀)
    (taken : ∀ error, provider.transfer (cashbackPaymentRequest r.event t account reference)
      code ≠ .rejected error)
    (h : processPayment cfg w e r (.receive t account ⟨.paystack, reference, .pending, some code⟩)
      (provider.outcome cfg r (.receive t account ⟨.paystack, reference, .pending, some code⟩)) =
      some (w', th')) :
    OnCourse provider cfg w₀ r (w'.row r.transactionId) th' := by
  simp only [processPayment, Provider.outcome, Option.getD_some] at h
  cases hreply : provider.transfer (cashbackPaymentRequest r.event t account reference) code with
  | accepted =>
    simp only [hreply, receive] at h
    obtain ⟨rfl, rfl⟩ := some_pair_inj h
    refine .inProgress found pending claimed (.store ?_)
    rw [← pays, Provider.pays, hreply]
  | lost error =>
    simp only [hreply, receive] at h
    obtain ⟨rfl, rfl⟩ := some_pair_inj h
    refine .inProgress found pending claimed (.recover ?_)
    rw [← pays, Provider.pays, hreply]
  | rejected error => exact absurd hreply (taken error)

theorem onCourse_store {t : CashbackTransaction} {account : PayoutAccount}
    {result : CashbackPaymentResult} (found : w₀.row r.transactionId = some row₀)
    (pending : row₀.status = .pending) (hid : t.id = r.transactionId)
    (resolved : provider.attempt cfg w₀ r row₀ = .ok result.status)
    (h : store w r t account result .ok = some (w', th')) :
    OnCourse provider cfg w₀ r (w'.row r.transactionId) th' := by
  have hrow := store_rows h r.transactionId
  rw [if_pos ⟨rfl, hid.symm⟩] at hrow
  simp only [store] at h
  split_ifs at h
  all_goals
    obtain ⟨_, rfl⟩ := some_pair_inj h
    refine .ended rfl ?_
    rw [hrow, expectedVerdict_of_pending found pending, resolved]
    rfl

theorem onCourse_recover {t : CashbackTransaction} {error : Thrown}
    (found : w₀.row r.transactionId = some row₀) (pending : row₀.status = .pending)
    (claimed : Claimed row₀ (w.row r.transactionId)) (hid : t.id = r.transactionId)
    (rejected : provider.attempt cfg w₀ r row₀ = .error error)
    (h : recover cfg w e r t error .ok = some (w', th')) :
    OnCourse provider cfg w₀ r (w'.row r.transactionId) th' := by
  simp only [recover] at h
  split_ifs at h with hfree hback
  · obtain ⟨row, hrow, hprocessing, hcode, hretryable⟩ := claimed
    obtain ⟨rfl, rfl⟩ := some_pair_inj h
    refine .ended trivial ?_
    have hreset := resetTransaction_row hrow
    rw [if_pos hprocessing] at hreset
    rw [World.row, failJob_db, ← World.row, hreset, expectedVerdict_of_pending found pending,
      rejected, attemptVerdict]
    simp only [hback, if_true, Option.map_some, CashbackTransaction.verdict, hcode, hretryable]
  · obtain ⟨rfl, rfl⟩ := some_pair_inj h
    refine .ended rfl ?_
    rw [storeFailure_row, if_pos hid.symm, expectedVerdict_of_pending found pending, rejected,
      attemptVerdict]
    simp only [hback]
    rfl

/-- One step of the attempt, answered by the provider. -/
theorem onCourse_step {pc : PaymentPc}
    (hcourse : OnCourse provider cfg w₀ r (w.row r.transactionId) (.payment r pc))
    (hco : pc.Coherent r) (hG : pc.undisturbed w₀ w r = true)
    (h : processPayment cfg w e r pc (provider.outcome cfg r pc) = some (w', th')) :
    OnCourse provider cfg w₀ r (w'.row r.transactionId) th' := by
  generalize hrow : w.row r.transactionId = row at hcourse
  cases hcourse with
  | find => exact onCourse_find hrow h
  | claim found pending => exact onCourse_claim found pending hrow h
  | @inProgress row₀ _ _ found pending claimed progress =>
    rw [← hrow] at claimed
    cases progress with
    | findAccount amount =>
      exact onCourse_findAccount found pending claimed rfl amount (of_decide_eq_true hG) h
    | @saveAccount t reference account isNew sends =>
      have hfree : w.accountConflicts account isNew = false := by
        simpa [PaymentPc.undisturbed] using hG
      simp only [processPayment, Provider.outcome, saveAccount, hfree, Bool.false_eq_true,
        if_false] at h
      obtain ⟨rfl, rfl⟩ := some_pair_inj h
      exact .inProgress found pending claimed (.sendCashback sends)
    | sendCashback sends => exact onCourse_sendCashback rfl found pending claimed sends h
    | initiateTransfer pays => exact onCourse_initiateTransfer found pending claimed pays h
    | receive pays taken => exact onCourse_receive found pending claimed pays taken h
    | store resolved => exact onCourse_store found pending hco.1 resolved h
    | recover rejected => exact onCourse_recover found pending claimed hco rejected h
  | ended hended verdict =>
    rw [← hrow] at verdict
    have hend : th' = .done ∧ w'.row r.transactionId = w.row r.transactionId := by
      cases pc with
      | publish t eventIds =>
        obtain ⟨rfl, rfl⟩ := some_pair_inj h
        exact ⟨rfl, by rw [World.row, completeJob_db]⟩
      | publishFailure eventId =>
        obtain ⟨rfl, rfl⟩ := some_pair_inj h
        exact ⟨rfl, by rw [World.row, completeJob_db]⟩
      | _ => exact absurd hended id
    rw [hend.1, hend.2]
    exact .ended trivial verdict

end Step

/-! ## Runs -/

/-- An attempt writes no row but that of its own transaction. -/
theorem processPayment_row_of_ne {cfg : Config} {w w' : World} {e : ℕ} {r : PaymentRun}
    {pc : PaymentPc} {o : Outcome} {th' : Thread} {k : ReadableId}
    (h : processPayment cfg w e r pc o = some (w', th')) (hco : pc.Coherent r)
    (hne : r.transactionId ≠ k) : w'.row k = w.row k := by
  rcases processPayment_rows h with hsame | ⟨k', v, hv, hwritten⟩
  · exact hsame k
  · rw [hwritten, if_neg]
    rintro rfl
    cases hv with
    | claim => exact hne rfl
    | store => exact hne hco.1.symm
    | reset => exact hne rfl
    | failure => exact hne (Eq.symm hco)

/-- The attempt on its course, and the others on other transactions. -/
structure SideBySide (provider : Provider) (cfg : Config) (w₀ : World) (r : PaymentRun) (p : ℕ)
    (es : List ℕ) (s : State) : Prop where
  course : OnCourse provider cfg w₀ r (s.world.row r.transactionId) (s.threads p)
  own : ∀ r' pc, s.threads p = .payment r' pc → r' = r
  others : ∀ e ∈ es, e ≠ p → ∀ r' pc, s.threads e = .payment r' pc →
    r'.transactionId ≠ r.transactionId

theorem sideBySide_step {provider : Provider} {cfg : Config} {w₀ : World} {r : PaymentRun} {p : ℕ}
    {es : List ℕ} {s s' : State} {l : Label} (hco : ∀ e, (s.threads e).Coherent)
    (hG : undisturbed w₀ s l = true) (hs : SideBySide provider cfg w₀ r p es s)
    (hmove : ∃ e ∈ es, provider.Runs cfg e ⟨s, l, s'⟩) (h : step cfg s l = some s') :
    SideBySide provider cfg w₀ r p es s' := by
  obtain ⟨e, he, r', pc, hpc, rfl⟩ := hmove
  have hth : s.threads e = .payment r' pc := hpc
  obtain ⟨th', hadv, _, hthreads⟩ := step_run h
  have hcoherent := hco e
  simp only [undisturbed, hth] at hG
  simp only [hth] at hadv hcoherent
  -- an attempt goes on as the same attempt
  have hkept : ∀ r'' pc', th' = .payment r'' pc' → r'' = r' := by
    intro r'' pc' heq
    rcases processPayment_thread hadv with hdone | ⟨pc'', hpc⟩
    · rw [hdone] at heq
      cases heq
    · rw [hpc] at heq
      exact (Thread.payment.inj heq).1.symm
  by_cases hep : e = p
  · subst hep
    obtain rfl := hs.own r' pc hth
    have hcourse := hs.course
    rw [hth] at hcourse
    refine ⟨?_, fun r'' pc' heq => ?_, fun e' he' hne r'' pc' heq => ?_⟩
    · rw [hthreads, if_pos rfl]
      exact onCourse_step hcourse hcoherent hG hadv
    · rw [hthreads, if_pos rfl] at heq
      exact hkept r'' pc' heq
    · rw [hthreads, if_neg hne] at heq
      exact hs.others e' he' hne r'' pc' heq
  · have hne := hs.others e he hep r' pc hth
    refine ⟨?_, fun r'' pc' heq => ?_, fun e' he' hne' r'' pc' heq => ?_⟩
    · rw [hthreads, if_neg (Ne.symm hep), processPayment_row_of_ne hadv hcoherent hne]
      exact hs.course
    · rw [hthreads, if_neg (Ne.symm hep)] at heq
      exact hs.own r'' pc' heq
    · rw [hthreads] at heq
      split at heq
      · rw [hkept r'' pc' heq]
        exact hne
      · exact hs.others e' he' hne' r'' pc' heq

/-- The attempts that start together: each at its beginning, on a transaction of its own. -/
structure Starts (cfg : Config) (s₀ : State) (es : List ℕ) (run : ℕ → PaymentRun) : Prop where
  reached : ∃ tr, Reaches cfg tr s₀
  first : ∀ e ∈ es, s₀.threads e = .payment (run e) .find
  distinct : ∀ e ∈ es, ∀ e' ∈ es, e ≠ e' → (run e).transactionId ≠ (run e').transactionId

/-- Undisturbed attempts that run to their ends in any order leave the expected verdicts. -/
theorem completes_verdict {provider : Provider} {cfg : Config} {s₀ s : State} {es : List ℕ}
    {run : ℕ → PaymentRun} {tr : List (Move State Label)} (hstarts : Starts cfg s₀ es run)
    (h : Completes provider cfg s₀ es tr s)
    (hG : Guarded (fun s l => undisturbed s₀.world s l = true) tr) {p : ℕ} (hp : p ∈ es) :
    s.world.verdict (run p).transactionId = provider.expectedVerdict cfg s₀.world (run p) := by
  obtain ⟨tr₀, hreach⟩ := hstarts.reached
  have hinit : SideBySide provider cfg s₀.world (run p) p es s₀ := by
    refine ⟨?_, fun r pc heq => ?_, fun e he hne r pc heq => ?_⟩
    · rw [hstarts.first p hp]
      exact .find
    · rw [hstarts.first p hp] at heq
      exact (Thread.payment.inj heq).1.symm
    · rw [hstarts.first e he] at heq
      rw [← (Thread.payment.inj heq).1]
      exact hstarts.distinct e he p hp hne
  have hdone := h.through p hp
  have hside : SideBySide provider cfg s₀.world (run p) p es s := by
    obtain ⟨hrun, hmoves, hthrough⟩ := h
    clear hthrough hdone
    induction hrun with
    | nil => exact hinit
    | snoc prev last ih =>
      obtain ⟨hG, hlast⟩ := guarded_snoc.mp hG
      exact sideBySide_step (reaches_coherent (hreach.trans prev)) hlast
        (ih hG fun x hx => hmoves x (List.mem_append_left _ hx))
        (hmoves _ (List.mem_append_right _ (List.mem_singleton_self _))) last
  have hcourse := hside.course
  rw [hdone] at hcourse
  generalize hrow : s.world.row (run p).transactionId = row at hcourse
  cases hcourse with
  | ended _ verdict => rw [World.verdict, hrow, verdict]

/-! ## Attempts that share no user -/

/-- The attempt works with the account of its user, and until it saves the account this is as it
was at the start. -/
def PaymentPc.OwnAccount (w₀ w : World) (r : PaymentRun) : PaymentPc → Prop
  | .find => w.account r.event.payload.user.id = w₀.account r.event.payload.user.id
  | .claim _ => w.account r.event.payload.user.id = w₀.account r.event.payload.user.id
  | .findAccount _ _ => w.account r.event.payload.user.id = w₀.account r.event.payload.user.id
  | .saveAccount _ _ account isNew => account.userId = r.event.payload.user.id ∧
    (isNew = true → w.account r.event.payload.user.id = none)
  | .sendCashback _ account _ => account.userId = r.event.payload.user.id
  | .initiateTransfer _ account _ _ => account.userId = r.event.payload.user.id
  | .receive _ account _ => account.userId = r.event.payload.user.id
  | .store _ account _ => account.userId = r.event.payload.user.id
  | _ => True

section OwnAccount
variable {cfg : Config} {w₀ w w' : World} {e : ℕ} {r : PaymentRun} {pc : PaymentPc} {o : Outcome}
  {th' : Thread}

theorem PaymentPc.OwnAccount.undisturbed (h : pc.OwnAccount w₀ w r) : pc.undisturbed w₀ w r = true := by
  cases pc with
  | findAccount t reference =>
    refine decide_eq_true ?_
    rw [World.recipientCodeOf, World.recipientCodeOf, h]
  | saveAccount t reference account isNew =>
    obtain ⟨huser, hnew⟩ := h
    rw [PaymentPc.undisturbed, World.accountConflicts, huser]
    cases isNew with
    | false => rfl
    | true =>
      rw [← World.account, hnew rfl]
      rfl
  | _ => rfl

theorem PaymentPc.OwnAccount.congr (h : pc.OwnAccount w₀ w r)
    (hw : w'.account r.event.payload.user.id = w.account r.event.payload.user.id) :
    pc.OwnAccount w₀ w' r := by
  cases pc with
  | saveAccount t reference account isNew => exact ⟨h.1, fun hnew => hw.trans (h.2 hnew)⟩
  | _ => first
    | exact hw.trans h
    | exact h

theorem storeResult_account (w : World) (r : PaymentRun) (t : CashbackTransaction)
    (account : PayoutAccount) (result : CashbackPaymentResult) {userId : String}
    (hne : userId ≠ account.userId) :
    (w.storeResult r t account result).account userId = w.account userId := by
  have hput : ∀ v : World, (v.saveAccount { account with
      providerRecipientCode := result.providerRecipientCode }).account userId =
      v.account userId := fun v => by
    rw [World.account, World.saveAccount, Table.put_row, if_neg hne]
  unfold World.storeResult
  split <;> split
  · exact hput _
  · exact hput _
  · rfl
  · rfl

/-- An attempt goes on with its user's account, and writes no other. -/
theorem ownAccount_step (h : processPayment cfg w e r pc o = some (w', th'))
    (hpc : pc.OwnAccount w₀ w r) :
    (∀ pc', th' = .payment r pc' → pc'.OwnAccount w₀ w' r) ∧
      ∀ userId, userId ≠ r.event.payload.user.id → w'.account userId = w.account userId := by
  have hclaim : ∀ reference,
      ((w.drawIds 1).claimTransaction r.transactionId reference).db.payoutAccounts =
        w.db.payoutAccounts := fun _ => rfl
  have hreset : (w.resetTransaction r.transactionId).db.payoutAccounts = w.db.payoutAccounts := rfl
  have hfailure : ∀ t failure, (w.storeFailure cfg r t failure).db.payoutAccounts =
      w.db.payoutAccounts := fun _ _ => rfl
  have hkey : ∀ userId account, w.db.payoutAccounts.row userId = some account →
      account.userId = userId := fun _ _ h => w.db.payoutAccounts.key_eq h
  have hput : ∀ account userId, userId ≠ account.userId →
      (w.saveAccount account).db.payoutAccounts.row userId = w.db.payoutAccounts.row userId :=
    fun account userId hne => by rw [World.saveAccount, Table.put_row, if_neg hne]
  have hstore : ∀ t account result userId, userId ≠ account.userId →
      (w.storeResult r t account result).db.payoutAccounts.row userId =
        w.db.payoutAccounts.row userId :=
    fun t account result _ hne => storeResult_account w r t account result hne
  cases pc
  all_goals
    simp only [processPayment, findTransaction, claim, findAccount, saveAccount, sendCashback,
      initiateTransfer, receive, store, publish, recover, publishFailure] at h
    grind [PaymentPc.OwnAccount, failJob_db, completeJob_db, drawIds_db, createRecipient_db,
      acceptTransfer_db]

end OwnAccount

/-- The attempts in `es` are those of `run`, and work with their users' accounts. -/
def OwnAccounts (w₀ : World) (es : List ℕ) (run : ℕ → PaymentRun) (s : State) : Prop :=
  ∀ e ∈ es, ∀ r pc, s.threads e = .payment r pc → r = run e ∧ pc.OwnAccount w₀ s.world r

theorem ownAccounts_step {provider : Provider} {cfg : Config} {w₀ : World} {es : List ℕ}
    {run : ℕ → PaymentRun} {s s' : State} {l : Label}
    (husers : ∀ e ∈ es, ∀ e' ∈ es, e ≠ e' →
      (run e).event.payload.user.id ≠ (run e').event.payload.user.id)
    (hs : OwnAccounts w₀ es run s) (hmove : ∃ e ∈ es, provider.Runs cfg e ⟨s, l, s'⟩)
    (h : step cfg s l = some s') :
    undisturbed w₀ s l = true ∧ OwnAccounts w₀ es run s' := by
  obtain ⟨e, he, r, pc, hpc, rfl⟩ := hmove
  have hth : s.threads e = .payment r pc := hpc
  obtain ⟨th', hadv, _, hthreads⟩ := step_run h
  obtain ⟨rfl, hown⟩ := hs e he r pc hth
  rw [hth] at hadv
  obtain ⟨hnext, hframe⟩ := ownAccount_step hadv hown
  refine ⟨?_, fun e' he' r' pc' heq => ?_⟩
  · simp only [undisturbed, hth]
    exact hown.undisturbed
  · rw [hthreads] at heq
    split at heq
    · next hsame =>
      subst hsame
      rcases processPayment_thread hadv with hdone | ⟨pc'', hgoes⟩
      · rw [hdone] at heq
        cases heq
      · have hrun : r' = run e' := by
          rw [hgoes] at heq
          exact (Thread.payment.inj heq).1.symm
        subst hrun
        exact ⟨rfl, hnext pc' heq⟩
    · next hne =>
      obtain ⟨rfl, hown'⟩ := hs e' he' r' pc' heq
      exact ⟨rfl, hown'.congr (hframe _ (husers e' he' e he hne))⟩

/-- Attempts for different users leave each other undisturbed, and so does one that runs alone. -/
theorem completes_undisturbed {provider : Provider} {cfg : Config} {s₀ s : State} {es : List ℕ}
    {run : ℕ → PaymentRun} {tr : List (Move State Label)} (hstarts : Starts cfg s₀ es run)
    (husers : ∀ e ∈ es, ∀ e' ∈ es, e ≠ e' →
      (run e).event.payload.user.id ≠ (run e').event.payload.user.id)
    (h : Completes provider cfg s₀ es tr s) :
    Guarded (fun s l => undisturbed s₀.world s l = true) tr := by
  have hinit : OwnAccounts s₀.world es run s₀ := by
    intro e he r pc heq
    rw [hstarts.first e he] at heq
    obtain ⟨rfl, rfl⟩ := Thread.payment.inj heq
    exact ⟨rfl, rfl⟩
  obtain ⟨hrun, hmoves, hthrough⟩ := h
  clear hthrough
  have hboth : Guarded (fun s l => undisturbed s₀.world s l = true) tr ∧
      OwnAccounts s₀.world es run s := by
    induction hrun with
    | nil => exact ⟨List.forall_mem_nil _, hinit⟩
    | snoc prev last ih =>
      obtain ⟨hG, hs⟩ := ih fun x hx => hmoves x (List.mem_append_left _ hx)
      obtain ⟨hlast, hs'⟩ := ownAccounts_step husers hs
        (hmoves _ (List.mem_append_right _ (List.mem_singleton_self _))) last
      exact ⟨guarded_snoc.mpr ⟨hG, hlast⟩, hs'⟩
  exact hboth.1

/-! ## Side by side, and alone -/

/-- Both payments come out as alone, if neither finds a recipient code of the other and neither
insert of an account meets one. -/
theorem payments_independent {provider : Provider} {cfg : Config} {s₀ s s₁ s₂ : State} {p q : ℕ}
    {run : ℕ → PaymentRun} {tr tr₁ tr₂ : List (Move State Label)}
    (hstarts : Starts cfg s₀ [p, q] run) (h : Completes provider cfg s₀ [p, q] tr s)
    (h₁ : Completes provider cfg s₀ [p] tr₁ s₁) (h₂ : Completes provider cfg s₀ [q] tr₂ s₂)
    (hG : Guarded (fun s l => undisturbed s₀.world s l = true) tr) :
    s.world.verdict (run p).transactionId = s₁.world.verdict (run p).transactionId ∧
      s.world.verdict (run q).transactionId = s₂.world.verdict (run q).transactionId := by
  have halone : ∀ e ∈ [p, q], ∀ {tr' : List (Move State Label)} {s' : State},
      Completes provider cfg s₀ [e] tr' s' →
      s.world.verdict (run e).transactionId = s'.world.verdict (run e).transactionId := by
    intro e he tr' s' h'
    have hstart : Starts cfg s₀ [e] run := by
      refine ⟨hstarts.reached, fun e' he' => ?_, fun e' he' e'' he'' hne => ?_⟩
      · rw [List.mem_singleton.mp he']
        exact hstarts.first e he
      · exact absurd ((List.mem_singleton.mp he').trans (List.mem_singleton.mp he'').symm) hne
    have hsolo := completes_undisturbed hstart (fun e' he' e'' he'' hne => absurd
      ((List.mem_singleton.mp he').trans (List.mem_singleton.mp he'').symm) hne) h'
    rw [completes_verdict hstarts h hG he,
      completes_verdict hstart h' hsolo (List.mem_singleton_self e)]
  exact ⟨halone p (by simp) h₁, halone q (by simp) h₂⟩

/-! ## Schedules -/

/-- A provider that takes everything. -/
def acceptingProvider : Provider where
  recipient _ := .ok "RCP_1"
  transfer _ _ := .accepted
  recipient_fresh _ _ := rfl
  transfer_fresh _ _ _ := rfl

def Provider.answersOk (provider : Provider) (cfg : Config) (es : List ℕ)
    (x : Move State Label) : Bool :=
  match x.label with
  | .run e .ok =>
    decide (e ∈ es) &&
      match x.source.threads e with
      | .payment r pc =>
        match provider.outcome cfg r pc with
        | .ok => true
        | _ => false
      | _ => false
  | _ => false

theorem answersOk_spec {provider : Provider} {cfg : Config} {es : List ℕ} {x : Move State Label}
    (h : provider.answersOk cfg es x = true) : ∃ e ∈ es, provider.Runs cfg e x := by
  unfold Provider.answersOk at h
  split at h
  · next e hlabel =>
    rw [Bool.and_eq_true, decide_eq_true_eq] at h
    refine ⟨e, h.1, ?_⟩
    have hanswer := h.2
    split at hanswer
    · next r pc hth =>
      split at hanswer
      · next hok => exact ⟨r, pc, hth, by rw [hlabel, hok]⟩
      · cases hanswer
    · cases hanswer
  · cases h

/-- The transitions complete the attempts. -/
def Provider.completes (provider : Provider) (cfg : Config) (es : List ℕ)
    (r : List (Move State Label) × State) : Bool :=
  r.1.all (provider.answersOk cfg es) && es.all fun e => (r.2.threads e).isDone

theorem completes_spec {provider : Provider} {cfg : Config} {s₀ s : State} {es : List ℕ}
    {tr : List (Move State Label)} (hrun : Run (step cfg) s₀ tr s)
    (h : provider.completes cfg es (tr, s) = true) : Completes provider cfg s₀ es tr s := by
  rw [Provider.completes, Bool.and_eq_true, List.all_eq_true, List.all_eq_true] at h
  exact ⟨hrun, fun x hx => answersOk_spec (h.1 x hx), fun e he => isDone_iff.mp (h.2 e he)⟩

def Thread.starting : Thread → Option PaymentRun
  | .payment r .find => some r
  | _ => none

theorem starting_eq_some {th : Thread} {r : PaymentRun} (h : th.starting = some r) :
    th = .payment r .find := by
  unfold Thread.starting at h
  split at h
  · rw [Option.some.inj h]
  · cases h

/-- Workers 2 and 3 have taken the jobs of two badges of `usr_1`. They take turns as listed, and
each runs alone. -/
theorem exists_pair (turns : List ℕ)
    (ok : State → List (Move State Label) → ReadableId → World → World → Bool)
    (h : ((trace (step mockConfig) initial (deliver 0 (badgeEvent 0 "Bronze" "0123456789") ++
      deliver 1 (badgeEvent 1 "Silver" "0123456789") ++ [.takeJob 0, .takeJob 1])).any fun start =>
        ((start.2.threads 2).starting.any fun r => (start.2.threads 3).starting.any fun r' =>
          r.transactionId ≠ r'.transactionId &&
          (trace (step mockConfig) start.2 (turns.map fun e => .run e .ok)).any fun both =>
            acceptingProvider.completes mockConfig [2, 3] both &&
            (trace (step mockConfig) start.2 (Label.oks 2 7)).any fun first =>
              acceptingProvider.completes mockConfig [2] first &&
              (trace (step mockConfig) start.2 (Label.oks 3 7)).any fun second =>
                acceptingProvider.completes mockConfig [3] second &&
                  ok start.2 both.1 r'.transactionId both.2.world second.2.world)) = true) :
    ∃ s₀ run tr s tr₁ s₁ tr₂ s₂, Starts mockConfig s₀ [2, 3] run ∧
      Completes acceptingProvider mockConfig s₀ [2, 3] tr s ∧
      Completes acceptingProvider mockConfig s₀ [2] tr₁ s₁ ∧
      Completes acceptingProvider mockConfig s₀ [3] tr₂ s₂ ∧
      ok s₀ tr (run 3).transactionId s.world s₂.world = true := by
  obtain ⟨tr₀, s₀, hreach, hstart⟩ := exists_run_of_trace _ _ _ _ h
  obtain ⟨r, hr, hstart⟩ := (Option.any_eq_true _ _).mp hstart
  obtain ⟨r', hr', hstart⟩ := (Option.any_eq_true _ _).mp hstart
  rw [Bool.and_eq_true, decide_eq_true_eq] at hstart
  obtain ⟨tr, s, hboth, hrest⟩ := exists_run_of_trace _ _ _ _ hstart.2
  rw [Bool.and_eq_true] at hrest
  obtain ⟨tr₁, s₁, hfirst, hrest₁⟩ := exists_run_of_trace _ _ _ _ hrest.2
  rw [Bool.and_eq_true] at hrest₁
  obtain ⟨tr₂, s₂, hsecond, hrest₂⟩ := exists_run_of_trace _ _ _ _ hrest₁.2
  rw [Bool.and_eq_true] at hrest₂
  refine ⟨s₀, fun e => if e = 2 then r else r', tr, s, tr₁, s₁, tr₂, s₂, ⟨⟨tr₀, hreach⟩, ?_, ?_⟩,
    completes_spec hboth hrest.1, completes_spec hfirst hrest₁.1,
    completes_spec hsecond hrest₂.1, hrest₂.2⟩
  · intro e he
    simp only [List.mem_cons, List.not_mem_nil, or_false] at he
    rcases he with rfl | rfl
    · exact starting_eq_some hr
    · exact starting_eq_some hr'
  · simp [hstart.1, Ne.symm hstart.1]

/-- One after the other. -/
theorem payments_independent_in_turn : ∃ s₀ run tr s tr₁ s₁ tr₂ s₂,
    Starts mockConfig s₀ [2, 3] run ∧ Completes acceptingProvider mockConfig s₀ [2, 3] tr s ∧
    Completes acceptingProvider mockConfig s₀ [2] tr₁ s₁ ∧
    Completes acceptingProvider mockConfig s₀ [3] tr₂ s₂ ∧
    s.world.verdict (run 2).transactionId = s₁.world.verdict (run 2).transactionId ∧
    s.world.verdict (run 3).transactionId = s₂.world.verdict (run 3).transactionId := by
  obtain ⟨s₀, run, tr, s, tr₁, s₁, tr₂, s₂, hstarts, h, h₁, h₂, hok⟩ :=
    exists_pair [2, 2, 2, 2, 2, 2, 2, 3, 3, 3, 3, 3, 3, 3]
      (fun s₀ tr _ _ _ => tr.all fun x => undisturbed s₀.world x.source x.label)
      (by decide +kernel)
  exact ⟨s₀, run, tr, s, tr₁, s₁, tr₂, s₂, hstarts, h, h₁, h₂,
    payments_independent hstarts h h₁ h₂ (guarded_of_all hok)⟩

/-- Both look the account up before either inserts it, and the second one is rejected. -/
theorem payment_rejected_by_index : ¬ ∀ (provider : Provider) (cfg : Config)
    (s₀ s s₁ s₂ : State) (p q : ℕ) (run : ℕ → PaymentRun) (tr tr₁ tr₂ : List (Move State Label)),
    Starts cfg s₀ [p, q] run → Completes provider cfg s₀ [p, q] tr s →
    Completes provider cfg s₀ [p] tr₁ s₁ → Completes provider cfg s₀ [q] tr₂ s₂ →
    s.world.verdict (run p).transactionId = s₁.world.verdict (run p).transactionId ∧
      s.world.verdict (run q).transactionId = s₂.world.verdict (run q).transactionId := by
  intro hall
  obtain ⟨s₀, run, tr, s, tr₁, s₁, tr₂, s₂, hstarts, h, h₁, h₂, hok⟩ :=
    exists_pair [2, 2, 2, 3, 3, 3, 2, 2, 2, 2, 3, 3, 3]
      (fun _ _ k w w' => decide (w.verdict k ≠ w'.verdict k)) (by decide +kernel)
  exact of_decide_eq_true hok (hall _ _ s₀ s s₁ s₂ 2 3 run tr tr₁ tr₂ hstarts h h₁ h₂).2

end Bumpa.Cashback
