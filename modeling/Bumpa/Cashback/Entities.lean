import Bumpa.Cashback.Failure
import Mathlib.Algebra.Group.Nat.Defs

/-! # Entities and requests of the cashback service

`entities/*.entity.ts`, `payments/payment-provider.ts` and the pure parts of
`cashback/cashback.service.ts` and `payments/paystack-webhook.service.ts`.

An entity in memory and its row have the same type. TypeORM's `save` writes every column in which
the two differ and skips a property that is `undefined`; the functions that prepare an entity for
`save` therefore take the row as well, and a property set to `undefined` takes the row's value. What
they return is put in place of the row as a whole (`Cashback.World` says why).
The creation and update times of a row are left out: no operation reads them.
-/
namespace Bumpa.Cashback
open Bumpa.Events
set_option autoImplicit false

inductive CashbackTransactionStatus where
  | pending
  | successful
  | failed
  | processing
  deriving DecidableEq, Repr

def CashbackTransactionStatus.ofPayment : PaymentStatus → CashbackTransactionStatus
  | .pending => .pending
  | .successful => .successful
  | .failed => .failed

theorem CashbackTransactionStatus.ofPayment_eq_successful {status : PaymentStatus} :
    CashbackTransactionStatus.ofPayment status = .successful ↔ status = .successful := by
  cases status <;> simp [ofPayment]

theorem CashbackTransactionStatus.ofPayment_eq_failed {status : PaymentStatus} :
    CashbackTransactionStatus.ofPayment status = .failed ↔ status = .failed := by
  cases status <;> simp [ofPayment]

/-- `${provider.name}_${createReadableId(EntityIdPrefix.Cashback)}`. -/
structure Reference where
  provider : PaymentProviderName
  id : ReadableId
  deriving DecidableEq, Repr

structure CashbackTransaction where
  id : ReadableId
  userId : String
  badgeName : String
  amountKobo : ℕ
  status : CashbackTransactionStatus
  provider : PaymentProviderName
  providerReference : Option Reference
  providerRecipientCode : Option String
  correlationId : Option ReadableId
  failureReason : Option String
  failureCode : Option CashbackFailureCode
  retryable : Option Bool
  retryCount : ℕ
  nextRetryAt : Option ℕ
  deriving DecidableEq, Repr

structure PayoutAccount where
  id : ReadableId
  userId : String
  userName : String
  bankAccountNumber : String
  bankCode : String
  provider : PaymentProviderName
  providerRecipientCode : Option String
  deriving DecidableEq, Repr

structure CashbackProcessedPayload where
  badgeName : String
  userId : String
  amountKobo : ℕ
  providerReference : Option Reference
  status : PaymentStatus
  failureCode : Option CashbackFailureCode
  failureReason : Option String
  retryable : Option Bool
  deriving DecidableEq, Repr

abbrev CashbackProcessedEvent := DomainEvent CashbackProcessedPayload

structure CashbackPaymentRequest where
  userId : String
  userName : String
  badgeName : String
  amountKobo : ℕ
  bankAccountNumber : String
  bankCode : String
  providerRecipientCode : Option String
  reference : Reference
  deriving DecidableEq, Repr

/-- `status` is PENDING or SUCCESSFUL. -/
structure CashbackPaymentResult where
  provider : PaymentProviderName
  reference : Reference
  status : PaymentStatus
  providerRecipientCode : Option String
  deriving DecidableEq, Repr

structure RetryBankDetailsOverride where
  bankAccountNumber : Option String
  bankCode : Option String
  deriving DecidableEq, Repr

/-! ## Configuration -/

structure Config where
  paymentProvider : Option String
  paystackSecretKey : Option String
  cashbackAmountKobo : ℕ
  baseDelayMs : ℕ
  maxAutoRetries : ℕ
  deriving DecidableEq, Repr

/-- `PaymentProviderFactory.getProvider`: an unknown name falls back to the mock provider. -/
def getProvider (cfg : Config) : PaymentProviderName :=
  if cfg.paymentProvider = some "paystack" then .paystack else .mock

def autoRetryDelayMs (cfg : Config) (retryCount : ℕ) : ℕ :=
  min (cfg.baseDelayMs * 2 ^ (retryCount - 1)) (60 * 60 * 1000)

/-! ## What the operations write -/

/-- The row `handleBadgeUnlocked` creates. -/
def createTransaction (cfg : Config) (id : ReadableId) (event : BadgeUnlockedEvent) :
    CashbackTransaction where
  id := id
  userId := event.payload.user.id
  badgeName := event.payload.badgeName
  amountKobo := event.payload.rewardAmountKobo.getD cfg.cashbackAmountKobo
  status := .pending
  provider := getProvider cfg
  providerReference := none
  providerRecipientCode := none
  correlationId := some event.correlationId
  failureReason := none
  failureCode := none
  retryable := none
  retryCount := 0
  nextRetryAt := none

/-- The claim: `{ status: PROCESSING, providerReference: reference }`. -/
def CashbackTransaction.claimed (t : CashbackTransaction) (reference : Reference) :
    CashbackTransaction :=
  { t with status := .processing, providerReference := some reference }

/-- The entity `processPayment` saves after `sendCashback` resolved. -/
def CashbackTransaction.withResult (t row : CashbackTransaction)
    (result : CashbackPaymentResult) : CashbackTransaction :=
  { t with
    status := .ofPayment result.status
    provider := result.provider
    providerReference := some result.reference
    providerRecipientCode := result.providerRecipientCode.or row.providerRecipientCode
    failureReason := none
    failureCode := none
    retryable := none
    nextRetryAt := none }

/-- The entity the catch block of `processPayment` saves. -/
def CashbackTransaction.withFailure (t row : CashbackTransaction) (cfg : Config) (now : ℕ)
    (failure : CashbackPaymentError) : CashbackTransaction :=
  { t with
    status := .failed
    failureReason := some failure.message
    failureCode := some failure.code
    retryable := some failure.retryable
    retryCount := t.retryCount + 1
    nextRetryAt :=
      if failure.retryable then some (now + autoRetryDelayMs cfg (t.retryCount + 1))
      else row.nextRetryAt }

/-- `retryPayment`: `{ status: PENDING, failureReason: null, nextRetryAt: null }`. -/
def CashbackTransaction.revived (t : CashbackTransaction) : CashbackTransaction :=
  { t with status := .pending, failureReason := none, nextRetryAt := none }

/-- `markTransferSuccessful`. -/
def CashbackTransaction.markedSuccessful (t : CashbackTransaction) : CashbackTransaction :=
  { t with status := .successful, failureReason := none, failureCode := none, retryable := none }

/-- `markTransferFailed`. -/
def CashbackTransaction.markedFailed (t : CashbackTransaction) (failure : CashbackPaymentError) :
    CashbackTransaction :=
  { t with
    status := .failed
    failureReason := some failure.message
    failureCode := some failure.code
    retryable := some failure.retryable }

/-- `saveCashbackProcessedEvent`, which both services have; they differ in the correlation id. -/
def cashbackProcessedEvent (t : CashbackTransaction) (status : PaymentStatus)
    (correlationId eventId : ReadableId) : CashbackProcessedEvent :=
  createDomainEvent .cashbackProcessed
    { badgeName := t.badgeName
      userId := t.userId
      amountKobo := t.amountKobo
      providerReference := t.providerReference
      status := status
      failureCode := if status = .failed then t.failureCode else none
      failureReason := if status = .failed then t.failureReason else none
      retryable := if status = .failed then t.retryable else none }
    correlationId eventId

/-- `buildRetryEvent`; `fresh` is the first of the two ids it may draw. -/
def buildRetryEvent (t : CashbackTransaction) (account : PayoutAccount) (fresh : ReadableId) :
    BadgeUnlockedEvent :=
  createDomainEvent .badgeUnlocked
    { badgeName := t.badgeName
      rewardAmountKobo := some t.amountKobo
      rewardCurrency := "NGN"
      user :=
        { id := t.userId
          email := ""
          name := account.userName
          bankAccountNumber := some account.bankAccountNumber
          bankCode := some account.bankCode } }
    (t.correlationId.getD fresh) (fresh + 1)

def cashbackPaymentRequest (event : BadgeUnlockedEvent) (t : CashbackTransaction)
    (account : PayoutAccount) (reference : Reference) : CashbackPaymentRequest where
  userId := event.payload.user.id
  userName := event.payload.user.name
  badgeName := event.payload.badgeName
  amountKobo := t.amountKobo
  bankAccountNumber := account.bankAccountNumber
  bankCode := account.bankCode
  providerRecipientCode := account.providerRecipientCode
  reference := reference

/-- Both bank details are present: the guard of `upsertPayoutAccount` and of the retries. -/
def PayoutAccount.hasBankDetails (account : PayoutAccount) : Bool :=
  account.bankAccountNumber ≠ "" && account.bankCode ≠ ""

end Bumpa.Cashback
