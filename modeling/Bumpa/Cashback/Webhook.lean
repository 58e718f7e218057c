import Bumpa.Cashback.World

/-! # `PaystackWebhookService`

The handler looks the row up by its reference in one step and saves the loaded entity, changed in
memory, in a later one. A webhook that is answered with 200 before it changed anything, or that
has saved its change, counts as taken in (`notifyTransfer`); Paystack sends a rejected one again.
-/
namespace Bumpa.Cashback
open Bumpa.Events Bumpa.Relational
set_option autoImplicit false

def World.findByReference (w : World) (reference : Reference) : Option CashbackTransaction :=
  w.db.transactions.find? fun t => t.providerReference = some reference

/-- The status a webhook records. -/
def TransferEvent.outcome : TransferEvent → PaymentStatus
  | .success => .successful
  | .failed => .failed
  | .reversed => .failed

/-- `readString(data, 'reason') ?? readString(data, 'failure_reason') ?? …`, classified. -/
def TransferWebhook.failure (hook : TransferWebhook) : CashbackPaymentError :=
  classifyCashbackFailure
    (.other ((hook.reason.or hook.failureReason).getD "Paystack transfer failed"))

/-- The entity that `markTransferSuccessful` or `markTransferFailed` saves. -/
def TransferWebhook.mark (hook : TransferWebhook) (t : CashbackTransaction) :
    CashbackTransaction :=
  match hook.event.outcome with
  | .failed => t.markedFailed hook.failure
  | _ => t.markedSuccessful

/-- The transaction of `markTransferSuccessful` and `markTransferFailed`. -/
def World.storeWebhook (w : World) (hook : TransferWebhook) (t : CashbackTransaction) : World :=
  (((w.saveTransaction (hook.mark t)).saveOutboxEvent
    (cashbackProcessedEvent (hook.mark t) hook.event.outcome (t.correlationId.getD w.nextId)
      (w.nextId + 1))).drawIds 2).notifyTransfer hook.reference

def handleWebhook (w : World) (hook : TransferWebhook) : WebhookPc → Outcome →
    Option (World × Thread)
  | .find, .ok =>
    match w.findByReference hook.reference with
    | none => some (w.notifyTransfer hook.reference, .done)
    | some t =>
      if t.status = .ofPayment hook.event.outcome then
        some (w.notifyTransfer hook.reference, .done)
      else some (w, .webhook hook (.save t))
  | .find, .fails _ _ => some (w, .done)
  | .save t, .ok =>
    if w.rowFree t.id then some (w.storeWebhook hook t, .webhook hook (.publish (w.nextId + 1)))
    else none
  | .save _, .fails _ false => some (w, .done)
  | .save t, .fails _ true =>
    if w.rowFree t.id then some (w.storeWebhook hook t, .done) else none
  | .publish _, .ok => some (w, .done)
  | .publish _, .fails _ _ => some (w, .done)
  | _, .recipient _ => none

end Bumpa.Cashback
