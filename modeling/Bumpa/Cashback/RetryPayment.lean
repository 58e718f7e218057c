import Bumpa.Cashback.World

/-! # `retryPayment`, `retryFailedTransaction` and `retryEligibleFailedTransactions`

`retryPayment` reads the status, flips FAILED to PENDING by a conditional UPDATE whose result it
does not look at, and adds a job. The interval scanner evaluates eligibility once, for its whole
list of candidates, and then works through the list; `retryScanRunning` keeps one process from
scanning twice at a time, and any number of processes scan side by side.
-/
namespace Bumpa.Cashback
open Bumpa.Events Bumpa.Relational
set_option autoImplicit false

/-- `UPDATE … SET status = PENDING, failureReason = NULL, nextRetryAt = NULL WHERE id AND
status = FAILED`. -/
def World.reviveTransaction (w : World) (transactionId : ReadableId) : World :=
  w.updateTransaction transactionId (·.status = .failed) CashbackTransaction.revived

/-- `UPDATE … SET retryCount = 0 WHERE id`. -/
def World.resetRetryCount (w : World) (transactionId : ReadableId) : World :=
  w.updateTransaction transactionId (fun _ => true) ({ · with retryCount := 0 })

/-- `retryPayment` returned. -/
def RetryCaller.resume : RetryCaller → Thread
  | .manual => .done
  | .scanner remaining => .scan (.findAccount remaining)

/-- `retryPayment` threw: the request is answered with the error, the scanner catches it. -/
def RetryCaller.catch : RetryCaller → Thread := RetryCaller.resume

def retryPayment (w : World) (caller : RetryCaller) (transactionId : ReadableId)
    (event : BadgeUnlockedEvent) : RetryPc → Outcome → Option (World × Thread)
  | .find, .ok =>
    match w.db.transactions.row transactionId with
    | none => some (w, caller.catch)
    | some t =>
      if t.status = .failed then some (w, .retry caller transactionId event .flip)
      else some (w, caller.resume)
  | .find, .fails _ _ => some (w, caller.catch)
  | .flip, .ok =>
    if w.rowFree transactionId then
      some (w.reviveTransaction transactionId, .retry caller transactionId event .enqueue)
    else none
  | .flip, .fails _ false => some (w, caller.catch)
  | .flip, .fails _ true =>
    if w.rowFree transactionId then some (w.reviveTransaction transactionId, caller.catch)
    else none
  | .enqueue, .ok => some (w.addJob transactionId event, caller.resume)
  | .enqueue, .fails _ written =>
    some (if written then w.addJob transactionId event else w, caller.catch)
  | _, .recipient _ => none

/-- `override?.bankAccountNumber && override.bankCode`. -/
def RetryBankDetailsOverride.complete (override : RetryBankDetailsOverride) : Bool :=
  truthy override.bankAccountNumber && truthy override.bankCode

/-- The account the override saves: the stored one, recipient code included, with new details. -/
def overriddenAccount (cfg : Config) (t : CashbackTransaction) (fresh : ReadableId)
    (override : RetryBankDetailsOverride) (account : Option PayoutAccount) : PayoutAccount where
  id := (account.map PayoutAccount.id).getD fresh
  userId := t.userId
  userName := (account.map PayoutAccount.userName).getD t.userId
  bankAccountNumber := override.bankAccountNumber.getD ""
  bankCode := override.bankCode.getD ""
  provider := getProvider cfg
  providerRecipientCode := account.bind PayoutAccount.providerRecipientCode

def retryFailedTransaction (cfg : Config) (w : World) : ManualPc → Outcome →
    Option (World × Thread)
  | .find transactionId override, .ok =>
    match w.db.transactions.row transactionId with
    | none => some (w, .done)
    | some t =>
      if t.status = .failed then some (w, .manual (.findAccount t override)) else some (w, .done)
  | .find _ _, .fails _ _ => some (w, .done)
  | .findAccount t override, .ok =>
    let account := w.db.payoutAccounts.row t.userId
    if override.complete then
      some (w.drawIds 1, .manual (.saveAccount t (overriddenAccount cfg t w.nextId override account)
        account.isNone))
    else
      match account with
      | some stored =>
        if stored.hasBankDetails then
          some (w.drawIds 2, .retry .manual t.id (buildRetryEvent t stored w.nextId) .find)
        else some (w, .done)
      | none => some (w, .done)
  | .findAccount _ _, .fails _ _ => some (w, .done)
  | .saveAccount t account isNew, .ok =>
    if isNew && (w.db.payoutAccounts.row account.userId).isSome then some (w, .done)
    else some (w.saveAccount account, .manual (.resetCount t account))
  | .saveAccount _ account isNew, .fails _ written =>
    some (if written && !(isNew && (w.db.payoutAccounts.row account.userId).isSome) then
      w.saveAccount account else w, .done)
  | .resetCount t account, .ok =>
    if w.rowFree t.id then
      some ((w.resetRetryCount t.id).drawIds 2,
        .retry .manual t.id (buildRetryEvent t account w.nextId) .find)
    else none
  | .resetCount _ _, .fails _ false => some (w, .done)
  | .resetCount t _, .fails _ true =>
    if w.rowFree t.id then some (w.resetRetryCount t.id, .done) else none
  | _, .recipient _ => none

/-- The `where` of the scanner's candidates. -/
def isCandidate (cfg : Config) (now : ℕ) (t : CashbackTransaction) : Bool :=
  t.status = .failed && t.retryable = some true && t.retryCount < cfg.maxAutoRetries &&
    t.nextRetryAt.all (· ≤ now)

def retryEligibleFailedTransactions (cfg : Config) (w : World) : ScanPc → Outcome →
    Option (World × Thread)
  | .find, .ok => some (w, .scan (.findAccount (w.db.transactions.filter (isCandidate cfg w.now))))
  | .find, .fails _ _ => some (w, .done)
  | .findAccount [], .ok => some (w, .done)
  | .findAccount (t :: remaining), .ok =>
    match w.db.payoutAccounts.row t.userId with
    | some account =>
      if account.hasBankDetails then
        some (w.drawIds 2, .retry (.scanner remaining) t.id (buildRetryEvent t account w.nextId)
          .find)
      else some (w, .scan (.findAccount remaining))
    | none => some (w, .scan (.findAccount remaining))
  | .findAccount [], .fails _ _ => none
  | .findAccount (_ :: _), .fails _ _ => some (w, .done)
  | _, .recipient _ => none

end Bumpa.Cashback
