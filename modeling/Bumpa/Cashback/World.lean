import Bumpa.Cashback.Entities
import Bumpa.Relational.Table

/-! # The world the cashback operations run in

The database, the BullMQ queue and Paystack, with the clock and the next fresh id, and the program
points of the operations. An operation is a thread; it holds its local variables and stops before
every awaited call, where the other threads may run.

* Statements are atomic under READ COMMITTED and a transaction is written at its commit. The one
  transaction that hands something out before it commits is `handleBadgeUnlocked` (it adds the
  job), so it alone holds locks between its first write and its commit: on the row it updates, on
  the (user, badge) pair it inserts, on the marker it inserts. Other writers of these wait.
* `save` is one statement, a `put` of the entity. Its SELECT and its UPDATE of the columns that
  differ have no other write between them here, so that the columns left out have the values of
  the entity, and the row is the entity afterwards.
* An awaited call either goes through (`Outcome.ok`) or rejects (`Outcome.fails`); a rejected
  write may have taken effect nevertheless (`written`), as when the connection breaks after it.
* BullMQ runs a job up to `jobAttempts` times. A job that stalled (its worker died or lost its
  lock) goes back to the waiting list at most `maxStalledCount` times.
* `Transfer.reported` and `Transfer.notified` record what Paystack knows of a transfer it accepted:
  that it failed or was reversed, and that the service has taken in a webhook about it.
-/
namespace Bumpa.Cashback
open Bumpa.Events Bumpa.Relational
set_option autoImplicit false

/-! ## Shared state -/

inductive LockKey where
  | row (transactionId : ReadableId)
  | badge (userId badgeName : String)
  | marker (eventId : ReadableId)
  deriving DecidableEq

structure Database where
  transactions : Table ReadableId CashbackTransaction CashbackTransaction.id
  payoutAccounts : Table String PayoutAccount PayoutAccount.userId
  processedEvents : List ReadableId
  outboxEvents : List CashbackProcessedEvent
  locks : LockKey → Option ℕ

inductive JobState where
  | waiting
  | active (thread : ℕ)
  | failed
  deriving DecidableEq

structure Job where
  transactionId : ReadableId
  event : BadgeUnlockedEvent
  attemptsMade : ℕ
  stalledCount : ℕ
  state : JobState

/-- `attempts: 3`. -/
def jobAttempts : ℕ := 3

/-- BullMQ's default. -/
def maxStalledCount : ℕ := 1

structure Queue where
  jobs : ℕ → Option Job
  nextJob : ℕ

structure Transfer where
  transactionId : ReadableId
  request : CashbackPaymentRequest
  recipientCode : String
  reported : Bool
  notified : Bool
  deriving DecidableEq

structure Paystack where
  recipients : String → Option (String × String)
  transfers : List Transfer

structure World where
  now : ℕ
  nextId : ReadableId
  db : Database
  queue : Queue
  paystack : Paystack

/-! ## Threads -/

/-- One attempt of a `SendCashback` job: the arguments of `processPayment` and its job. -/
structure PaymentRun where
  job : ℕ
  transactionId : ReadableId
  event : BadgeUnlockedEvent
  isFinalAttempt : Bool

inductive BadgePc where
  | check (event : BadgeUnlockedEvent)
  | find (event : BadgeUnlockedEvent)
  | save (event : BadgeUnlockedEvent) (t : CashbackTransaction) (isNew : Bool)
  | findMarker (event : BadgeUnlockedEvent) (t : CashbackTransaction)
  | insertMarker (event : BadgeUnlockedEvent) (t : CashbackTransaction)
  | enqueue (event : BadgeUnlockedEvent) (t : CashbackTransaction)
  | commit (event : BadgeUnlockedEvent) (t : CashbackTransaction)

inductive PaymentPc where
  | find
  | claim (t : CashbackTransaction)
  | findAccount (t : CashbackTransaction) (reference : Reference)
  | saveAccount (t : CashbackTransaction) (reference : Reference) (account : PayoutAccount)
      (isNew : Bool)
  | sendCashback (t : CashbackTransaction) (account : PayoutAccount)
      (request : CashbackPaymentRequest)
  | initiateTransfer (t : CashbackTransaction) (account : PayoutAccount)
      (request : CashbackPaymentRequest) (recipientCode : String)
  | receive (t : CashbackTransaction) (account : PayoutAccount) (result : CashbackPaymentResult)
  | store (t : CashbackTransaction) (account : PayoutAccount) (result : CashbackPaymentResult)
  | publish (t : CashbackTransaction) (eventIds : List ReadableId)
  | recover (t : CashbackTransaction) (error : Thrown)
  | publishFailure (eventId : ReadableId)

inductive RetryPc where
  | find
  | flip
  | enqueue

/-- Who awaits `retryPayment`; the scanner goes on with its remaining candidates. -/
inductive RetryCaller where
  | manual
  | scanner (remaining : List CashbackTransaction)

inductive ManualPc where
  | find (transactionId : ReadableId) (override : RetryBankDetailsOverride)
  | findAccount (t : CashbackTransaction) (override : RetryBankDetailsOverride)
  | saveAccount (t : CashbackTransaction) (account : PayoutAccount) (isNew : Bool)
  | resetCount (t : CashbackTransaction) (account : PayoutAccount)

inductive ScanPc where
  | find
  | findAccount (remaining : List CashbackTransaction)

inductive TransferEvent where
  | success
  | failed
  | reversed
  deriving DecidableEq, Repr

/-- A verified webhook: `event` and the fields of `data` that the service reads. -/
structure TransferWebhook where
  event : TransferEvent
  reference : Reference
  reason : Option String
  failureReason : Option String
  deriving DecidableEq, Repr

inductive WebhookPc where
  | find
  | save (t : CashbackTransaction)
  | publish (eventId : ReadableId)

inductive Thread where
  | done
  | badge (pc : BadgePc)
  | payment (r : PaymentRun) (pc : PaymentPc)
  | retry (caller : RetryCaller) (transactionId : ReadableId) (event : BadgeUnlockedEvent)
      (pc : RetryPc)
  | manual (pc : ManualPc)
  | scan (pc : ScanPc)
  | webhook (hook : TransferWebhook) (pc : WebhookPc)

/-- How an awaited call ends. `recipient` is Paystack's answer to `/transferrecipient`. -/
inductive Outcome where
  | ok
  | fails (error : Thrown) (written : Bool)
  | recipient (code : String)

/-! ## Queue operations -/

def World.addJob (w : World) (transactionId : ReadableId) (event : BadgeUnlockedEvent) : World :=
  { w with
    queue :=
      { jobs := Function.update w.queue.jobs w.queue.nextJob
          (some ⟨transactionId, event, 0, 0, .waiting⟩)
        nextJob := w.queue.nextJob + 1 } }

def World.setJob (w : World) (j : ℕ) (job : Option Job) : World :=
  { w with queue := { w.queue with jobs := Function.update w.queue.jobs j job } }

/-- The processor returned: `removeOnComplete`, unless another worker has the job by now. -/
def World.completeJob (w : World) (e j : ℕ) : World :=
  match w.queue.jobs j with
  | some job => if job.state = .active e then w.setJob j none else w
  | none => w

/-- The processor threw: back to the waiting list, or failed after the last attempt. -/
def World.failJob (w : World) (e j : ℕ) : World :=
  match w.queue.jobs j with
  | some job =>
    if job.state = .active e then
      w.setJob j (some
        { job with
          attemptsMade := job.attemptsMade + 1
          state := if job.attemptsMade + 1 < jobAttempts then .waiting else .failed })
    else w
  | none => w

/-! ## Database operations -/

/-- No transaction holds a lock on the row. -/
def World.rowFree (w : World) (transactionId : ReadableId) : Bool :=
  w.db.locks (.row transactionId) = none

def World.updateTransaction (w : World) (transactionId : ReadableId)
    (p : CashbackTransaction → Bool) (f : CashbackTransaction → CashbackTransaction) : World :=
  { w with db := { w.db with transactions := w.db.transactions.updateWhere transactionId p f } }

def World.saveTransaction (w : World) (t : CashbackTransaction) : World :=
  { w with db := { w.db with transactions := w.db.transactions.put t } }

def World.saveAccount (w : World) (account : PayoutAccount) : World :=
  { w with db := { w.db with payoutAccounts := w.db.payoutAccounts.put account } }

def World.saveOutboxEvent (w : World) (event : CashbackProcessedEvent) : World :=
  { w with db := { w.db with outboxEvents := w.db.outboxEvents ++ [event] } }

def World.lock (w : World) (e : ℕ) (key : LockKey) : World :=
  { w with db := { w.db with locks := Function.update w.db.locks key (some e) } }

def World.unlock (w : World) (e : ℕ) : World :=
  { w with
    db :=
      { w.db with locks := fun key => if w.db.locks key = some e then none else w.db.locks key } }

/-- `createReadableId`, called `n` times. -/
def World.drawIds (w : World) (n : ℕ) : World := { w with nextId := w.nextId + n }

/-! ## Paystack -/

def World.createRecipient (w : World) (code bankAccountNumber bankCode : String) : World :=
  { w with
    paystack :=
      { w.paystack with
        recipients :=
          Function.update w.paystack.recipients code (some (bankAccountNumber, bankCode)) } }

def World.acceptTransfer (w : World) (transfer : Transfer) : World :=
  { w with paystack := { w.paystack with transfers := w.paystack.transfers ++ [transfer] } }

/-- Paystack sends `transfer.failed` or `transfer.reversed` about `reference`. -/
def World.reportTransfer (w : World) (reference : Reference) : World :=
  { w with
    paystack :=
      { w.paystack with
        transfers := w.paystack.transfers.map fun tr =>
          if tr.request.reference = reference then { tr with reported := true } else tr } }

/-- The service has taken in a webhook about `reference`. -/
def World.notifyTransfer (w : World) (reference : Reference) : World :=
  { w with
    paystack :=
      { w.paystack with
        transfers := w.paystack.transfers.map fun tr =>
          if tr.request.reference = reference then { tr with notified := true } else tr } }

/-! ## What the operations leave alone -/

section Frame
variable (w : World)

@[simp] theorem addJob_db (k : ReadableId) (event : BadgeUnlockedEvent) :
    (w.addJob k event).db = w.db := rfl

@[simp] theorem addJob_paystack (k : ReadableId) (event : BadgeUnlockedEvent) :
    (w.addJob k event).paystack = w.paystack := rfl

@[simp] theorem completeJob_db (e j : ℕ) : (w.completeJob e j).db = w.db := by
  unfold World.completeJob
  split
  · split <;> rfl
  · rfl

@[simp] theorem completeJob_paystack (e j : ℕ) : (w.completeJob e j).paystack = w.paystack := by
  unfold World.completeJob
  split
  · split <;> rfl
  · rfl

@[simp] theorem failJob_db (e j : ℕ) : (w.failJob e j).db = w.db := by
  unfold World.failJob
  split
  · split <;> rfl
  · rfl

@[simp] theorem failJob_paystack (e j : ℕ) : (w.failJob e j).paystack = w.paystack := by
  unfold World.failJob
  split
  · split <;> rfl
  · rfl

theorem saveTransaction_row (t : CashbackTransaction) (k : ReadableId) :
    (w.saveTransaction t).db.transactions.row k =
      if k = t.id then some t else w.db.transactions.row k :=
  Table.put_row w.db.transactions t k

@[simp] theorem saveAccount_paystack (account : PayoutAccount) :
    (w.saveAccount account).paystack = w.paystack := rfl

@[simp] theorem saveAccount_queue (account : PayoutAccount) :
    (w.saveAccount account).queue = w.queue := rfl

@[simp] theorem saveAccount_transactions (account : PayoutAccount) :
    (w.saveAccount account).db.transactions = w.db.transactions := rfl

@[simp] theorem saveOutboxEvent_transactions (event : CashbackProcessedEvent) :
    (w.saveOutboxEvent event).db.transactions = w.db.transactions := rfl

@[simp] theorem lock_paystack (e : ℕ) (key : LockKey) : (w.lock e key).paystack = w.paystack := rfl

@[simp] theorem lock_queue (e : ℕ) (key : LockKey) : (w.lock e key).queue = w.queue := rfl

@[simp] theorem lock_payoutAccounts (e : ℕ) (key : LockKey) :
    (w.lock e key).db.payoutAccounts = w.db.payoutAccounts := rfl

@[simp] theorem unlock_paystack (e : ℕ) : (w.unlock e).paystack = w.paystack := rfl

@[simp] theorem unlock_queue (e : ℕ) : (w.unlock e).queue = w.queue := rfl

@[simp] theorem unlock_transactions (e : ℕ) :
    (w.unlock e).db.transactions = w.db.transactions := rfl

@[simp] theorem unlock_payoutAccounts (e : ℕ) :
    (w.unlock e).db.payoutAccounts = w.db.payoutAccounts := rfl

@[simp] theorem drawIds_db (n : ℕ) : (w.drawIds n).db = w.db := rfl

@[simp] theorem drawIds_queue (n : ℕ) : (w.drawIds n).queue = w.queue := rfl

@[simp] theorem drawIds_paystack (n : ℕ) : (w.drawIds n).paystack = w.paystack := rfl

@[simp] theorem createRecipient_db (code number bank : String) :
    (w.createRecipient code number bank).db = w.db := rfl

@[simp] theorem createRecipient_queue (code number bank : String) :
    (w.createRecipient code number bank).queue = w.queue := rfl

@[simp] theorem createRecipient_transfers (code number bank : String) :
    (w.createRecipient code number bank).paystack.transfers = w.paystack.transfers := rfl

@[simp] theorem acceptTransfer_db (transfer : Transfer) :
    (w.acceptTransfer transfer).db = w.db := rfl

@[simp] theorem notifyTransfer_db (reference : Reference) :
    (w.notifyTransfer reference).db = w.db := rfl

@[simp] theorem notifyTransfer_queue (reference : Reference) :
    (w.notifyTransfer reference).queue = w.queue := rfl

@[simp] theorem notifyTransfer_recipients (reference : Reference) :
    (w.notifyTransfer reference).paystack.recipients = w.paystack.recipients := rfl

end Frame

end Bumpa.Cashback
