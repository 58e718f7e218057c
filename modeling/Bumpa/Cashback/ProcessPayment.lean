import Bumpa.Cashback.World

/-! # `CashbackService.processPayment` and `PaystackPaymentProvider.sendCashback`

The claim is one conditional UPDATE from PENDING to PROCESSING; everything after it, up to the
last line of the success branch, runs inside one `try` whose catch block classifies the error.
Paystack takes the transfer in (`initiateTransfer`) before its answer reaches the caller
(`receive`), so an accepted transfer may be seen as an error. Paystack echoes the reference.
-/
namespace Bumpa.Cashback
open Bumpa.Events Bumpa.Relational
set_option autoImplicit false

/-! ## The statements -/

def World.statusOf (w : World) (transactionId : ReadableId) : Option CashbackTransactionStatus :=
  (w.db.transactions.row transactionId).map CashbackTransaction.status

/-- `UPDATE … SET status = PROCESSING, providerReference WHERE id AND status = PENDING`. -/
def World.claimTransaction (w : World) (transactionId : ReadableId) (reference : Reference) :
    World :=
  w.updateTransaction transactionId (·.status = .pending) (·.claimed reference)

/-- `UPDATE … SET status = PENDING WHERE id AND status = PROCESSING`. -/
def World.resetTransaction (w : World) (transactionId : ReadableId) : World :=
  w.updateTransaction transactionId (·.status = .processing) ({ · with status := .pending })

/-- The row as it is when `save` compares the entity with it. -/
def World.rowOf (w : World) (t : CashbackTransaction) : CashbackTransaction :=
  (w.db.transactions.row t.id).getD t

/-- The transaction that stores the result: the row, the recipient code, the event. -/
def World.storeResult (w : World) (r : PaymentRun) (t : CashbackTransaction)
    (account : PayoutAccount) (result : CashbackPaymentResult) : World :=
  let t' := t.withResult (w.rowOf t) result
  let saved := w.saveTransaction t'
  let recorded :=
    if truthy result.providerRecipientCode then
      saved.saveAccount { account with providerRecipientCode := result.providerRecipientCode }
    else saved
  if result.status = .successful then
    (recorded.saveOutboxEvent
      (cashbackProcessedEvent t' .successful r.event.correlationId w.nextId)).drawIds 1
  else recorded

/-- The transaction of the catch block. -/
def World.storeFailure (w : World) (cfg : Config) (r : PaymentRun) (t : CashbackTransaction)
    (failure : CashbackPaymentError) : World :=
  let t' := t.withFailure (w.rowOf t) cfg w.now failure
  ((w.saveTransaction t').saveOutboxEvent
    (cashbackProcessedEvent t' .failed r.event.correlationId w.nextId)).drawIds 1

/-! ## The parts of `processPayment` -/

def findTransaction (w : World) (e : ℕ) (r : PaymentRun) : Outcome → Option (World × Thread)
  | .ok =>
    match w.db.transactions.row r.transactionId with
    | none => some (w.failJob e r.job, .done)
    | some t =>
      if t.status = .pending then some (w, .payment r (.claim t))
      else some (w.completeJob e r.job, .done)
  | .fails _ _ => some (w.failJob e r.job, .done)
  | .recipient _ => none

def claim (cfg : Config) (w : World) (e : ℕ) (r : PaymentRun) (t : CashbackTransaction) :
    Outcome → Option (World × Thread)
  | .ok =>
    let reference : Reference := ⟨getProvider cfg, w.nextId⟩
    if w.rowFree r.transactionId then
      if w.statusOf r.transactionId = some .pending then
        some ((w.drawIds 1).claimTransaction r.transactionId reference,
          .payment r (.findAccount (t.claimed reference) reference))
      else some ((w.drawIds 1).completeJob e r.job, .done)
    else none
  | .fails _ false => some ((w.drawIds 1).failJob e r.job, .done)
  | .fails _ true =>
    if w.rowFree r.transactionId then
      some (((w.drawIds 1).claimTransaction r.transactionId ⟨getProvider cfg, w.nextId⟩).failJob
        e r.job, .done)
    else none
  | .recipient _ => none

/-- `upsertPayoutAccount` up to its read. -/
def findAccount (cfg : Config) (w : World) (r : PaymentRun) (t : CashbackTransaction)
    (reference : Reference) : Outcome → Option (World × Thread)
  | .ok =>
    let user := r.event.payload.user
    if truthy user.bankAccountNumber && truthy user.bankCode then
      let bankAccountNumber := user.bankAccountNumber.getD ""
      let bankCode := user.bankCode.getD ""
      match w.db.payoutAccounts.row user.id with
      | some existing =>
        some (w, .payment r (.saveAccount t reference
          { existing with
            userName := user.name
            bankAccountNumber := bankAccountNumber
            bankCode := bankCode
            provider := getProvider cfg } false))
      | none =>
        some (w.drawIds 1, .payment r (.saveAccount t reference
          { id := w.nextId
            userId := user.id
            userName := user.name
            bankAccountNumber := bankAccountNumber
            bankCode := bankCode
            provider := getProvider cfg
            providerRecipientCode := none } true))
    else
      some (w, .payment r (.recover t (.payment (missingBankDetailsError
        "User payout account is required before cashback can be processed"))))
  | .fails error _ =>
    if truthy r.event.payload.user.bankAccountNumber && truthy r.event.payload.user.bankCode then
      some (w, .payment r (.recover t error))
    else none
  | .recipient _ => none

def uniqueViolation (constraint : String) : Thrown :=
  .other ("duplicate key value violates unique constraint \"" ++ constraint ++ "\"")

/-- An insert of a user's second account violates the unique index. -/
def World.accountConflicts (w : World) (account : PayoutAccount) (isNew : Bool) : Bool :=
  isNew && (w.db.payoutAccounts.row account.userId).isSome

/-- `upsertPayoutAccount` from its write on. -/
def saveAccount (w : World) (r : PaymentRun) (t : CashbackTransaction) (reference : Reference)
    (account : PayoutAccount) (isNew : Bool) : Outcome → Option (World × Thread)
  | .ok =>
    if w.accountConflicts account isNew then
      some (w, .payment r (.recover t (uniqueViolation "IDX_payout_accounts_userId_unique")))
    else
      some (w.saveAccount account, .payment r (.sendCashback t account
        (cashbackPaymentRequest r.event t account reference)))
  | .fails error written =>
    some (if written && !w.accountConflicts account isNew then w.saveAccount account else w,
      .payment r (.recover t error))
  | .recipient _ => none

/-- The mock provider, and Paystack without a secret key, resolve at once with SUCCESSFUL. -/
def dryRuns (cfg : Config) : Bool :=
  getProvider cfg = .mock || !truthy cfg.paystackSecretKey

/-- The request has bank details and no recipient code, so `/transferrecipient` is called. -/
def callsTransferRecipient (cfg : Config) (request : CashbackPaymentRequest) : Bool :=
  !dryRuns cfg && request.bankAccountNumber ≠ "" && request.bankCode ≠ "" &&
    request.providerRecipientCode = none

/-- `sendCashback` up to the recipient code; a code that Paystack returns is new or denotes the
same account. -/
def sendCashback (cfg : Config) (w : World) (r : PaymentRun) (t : CashbackTransaction)
    (account : PayoutAccount) (request : CashbackPaymentRequest) :
    Outcome → Option (World × Thread)
  | .ok =>
    if dryRuns cfg then
      some (w, .payment r (.store t account ⟨getProvider cfg, request.reference, .successful, none⟩))
    else if request.bankAccountNumber = "" || request.bankCode = "" then
      some (w, .payment r (.recover t (.payment (missingBankDetailsError
        "Bank account number and bank code are required for Paystack cashback"))))
    else
      match request.providerRecipientCode with
      | some code => some (w, .payment r (.initiateTransfer t account request code))
      | none => none
  | .recipient code =>
    if callsTransferRecipient cfg request &&
        (w.paystack.recipients code).all (· = (request.bankAccountNumber, request.bankCode)) then
      some (w.createRecipient code request.bankAccountNumber request.bankCode,
        .payment r (.initiateTransfer t account request code))
    else none
  | .fails error _ =>
    if callsTransferRecipient cfg request then some (w, .payment r (.recover t error)) else none

/-- Paystack accepts the transfer, or the call is rejected without one. -/
def initiateTransfer (w : World) (r : PaymentRun) (t : CashbackTransaction)
    (account : PayoutAccount) (request : CashbackPaymentRequest) (recipientCode : String) :
    Outcome → Option (World × Thread)
  | .ok =>
    some (w.acceptTransfer ⟨r.transactionId, request, recipientCode, false, false⟩,
      .payment r (.receive t account ⟨.paystack, request.reference, .pending, some recipientCode⟩))
  | .fails error _ => some (w, .payment r (.recover t error))
  | .recipient _ => none

/-- The answer to an accepted transfer arrives, or is lost. -/
def receive (w : World) (r : PaymentRun) (t : CashbackTransaction) (account : PayoutAccount)
    (result : CashbackPaymentResult) : Outcome → Option (World × Thread)
  | .ok => some (w, .payment r (.store t account result))
  | .fails error _ => some (w, .payment r (.recover t error))
  | .recipient _ => none

def store (w : World) (r : PaymentRun) (t : CashbackTransaction) (account : PayoutAccount)
    (result : CashbackPaymentResult) : Outcome → Option (World × Thread)
  | .ok =>
    if w.rowFree t.id then
      some (w.storeResult r t account result,
        .payment r (.publish (t.withResult (w.rowOf t) result)
          (if result.status = .successful then [w.nextId] else [])))
    else none
  | .fails error false => some (w, .payment r (.recover (t.withResult (w.rowOf t) result) error))
  | .fails error true =>
    if w.rowFree t.id then
      some (w.storeResult r t account result,
        .payment r (.recover (t.withResult (w.rowOf t) result) error))
    else none
  | .recipient _ => none

/-- `publishMany`; without ids it awaits nothing. -/
def publish (w : World) (e : ℕ) (r : PaymentRun) (t : CashbackTransaction)
    (eventIds : List ReadableId) : Outcome → Option (World × Thread)
  | .ok => some (w.completeJob e r.job, .done)
  | .fails error _ => if eventIds = [] then none else some (w, .payment r (.recover t error))
  | .recipient _ => none

/-- The catch block hands the transaction back to BullMQ. -/
def handsBack (r : PaymentRun) (failure : CashbackPaymentError) : Bool :=
  failure.retryable && !r.isFinalAttempt

/-- The catch block. -/
def recover (cfg : Config) (w : World) (e : ℕ) (r : PaymentRun) (t : CashbackTransaction)
    (error : Thrown) : Outcome → Option (World × Thread)
  | .ok =>
    if w.rowFree t.id then
      if handsBack r (classifyCashbackFailure error) then
        some ((w.resetTransaction r.transactionId).failJob e r.job, .done)
      else
        some (w.storeFailure cfg r t (classifyCashbackFailure error),
          .payment r (.publishFailure w.nextId))
    else none
  | .fails _ false => some (w.failJob e r.job, .done)
  | .fails _ true =>
    if w.rowFree t.id then
      if handsBack r (classifyCashbackFailure error) then
        some ((w.resetTransaction r.transactionId).failJob e r.job, .done)
      else some ((w.storeFailure cfg r t (classifyCashbackFailure error)).failJob e r.job, .done)
    else none
  | .recipient _ => none

def publishFailure (w : World) (e : ℕ) (r : PaymentRun) : Outcome → Option (World × Thread)
  | .ok => some (w.completeJob e r.job, .done)
  | .fails _ _ => some (w.failJob e r.job, .done)
  | .recipient _ => none

def processPayment (cfg : Config) (w : World) (e : ℕ) (r : PaymentRun) :
    PaymentPc → Outcome → Option (World × Thread)
  | .find => findTransaction w e r
  | .claim t => claim cfg w e r t
  | .findAccount t reference => findAccount cfg w r t reference
  | .saveAccount t reference account isNew => saveAccount w r t reference account isNew
  | .sendCashback t account request => sendCashback cfg w r t account request
  | .initiateTransfer t account request recipientCode =>
    initiateTransfer w r t account request recipientCode
  | .receive t account result => receive w r t account result
  | .store t account result => store w r t account result
  | .publish t eventIds => publish w e r t eventIds
  | .recover t error => recover cfg w e r t error
  | .publishFailure _ => publishFailure w e r

end Bumpa.Cashback
