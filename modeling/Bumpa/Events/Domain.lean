import Mathlib.Data.Nat.Notation

/-! # The shared event vocabulary (`packages/events-sdk`)

The enumerations and payloads that cross service borders. `createReadableId` is a prefix followed
by six random bytes; the services rely on nothing but its freshness, so an id is modelled by the
number of its creation and each state keeps the next one. `version` and `occurredAt` of a domain
event are written and never read, and are left out.
-/
namespace Bumpa.Events
set_option autoImplicit false

abbrev ReadableId := ℕ

inductive DomainEventName where
  | purchaseCompleted
  | achievementUnlocked
  | badgeUnlocked
  | cashbackProcessed
  deriving DecidableEq, Repr

inductive PaymentStatus where
  | pending
  | successful
  | failed
  deriving DecidableEq, Repr

inductive PaymentProviderName where
  | mock
  | paystack
  deriving DecidableEq, Repr

inductive CashbackFailureCode where
  | missingBankDetails
  | invalidAccount
  | insufficientBalance
  | duplicateReference
  | providerUnavailable
  | providerRejected
  | providerMisconfigured
  deriving DecidableEq, Repr

inductive OutboxStatus where
  | pending
  | publishing
  | published
  | failed
  deriving DecidableEq, Repr

structure UserSnapshot where
  id : String
  email : String
  name : String
  bankAccountNumber : Option String
  bankCode : Option String
  deriving DecidableEq, Repr

structure PurchaseCompletedPayload where
  userId : String
  purchaseId : ReadableId
  amountKobo : ℕ
  user : UserSnapshot
  deriving DecidableEq, Repr

/-- `rewardAmountKobo` is optional here because the consumer defaults it (`??`). -/
structure BadgeUnlockedPayload where
  badgeName : String
  rewardAmountKobo : Option ℕ
  rewardCurrency : String
  user : UserSnapshot
  deriving DecidableEq, Repr

structure DomainEvent (Payload : Type) where
  eventId : ReadableId
  type : DomainEventName
  correlationId : ReadableId
  payload : Payload
  deriving DecidableEq, Repr

abbrev PurchaseCompletedEvent := DomainEvent PurchaseCompletedPayload
abbrev BadgeUnlockedEvent := DomainEvent BadgeUnlockedPayload

def createDomainEvent {Payload : Type} (type : DomainEventName) (payload : Payload)
    (correlationId eventId : ReadableId) : DomainEvent Payload :=
  ⟨eventId, type, correlationId, payload⟩

/-- JavaScript's `!value` on an optional string: absent and empty are both false. -/
def truthy (value : Option String) : Bool := value.any (· ≠ "")

end Bumpa.Events
