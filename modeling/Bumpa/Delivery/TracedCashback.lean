import Bumpa.Cashback.TracedTransactions
import Bumpa.Delivery.Pipeline
import Bumpa.Loyalty.TracedUnlocks

/-! # A cashback is traced to the call that earned it

The correlation id that a call to create a purchase comes with goes along: the event of the purchase
has it, the events of what the purchase unlocks, the transaction, and every event about its payment,
however often one of them is published, delivered or retried, and whichever replica does it.

`cashback_traced`: a transaction and the events about it have the correlation id of a call of the
same user, whose purchase is committed and credited.
-/
namespace Bumpa.Delivery
open Bumpa.Events Bumpa.Transition
set_option autoImplicit false

/-- The correlation id is that of a call of the user, whose purchase is committed and credited. -/
def TracedTo (tr : List (Move Pipeline PipelineLabel)) (s : Pipeline) (userId : String)
    (correlationId : ReadableId) : Prop :=
  ∃ new : Purchases.Creation,
    new.call ∈ Purchases.calls ((tr.filterMap shopMove).filterMap purchaseMove) ∧
      new.event ∈ s.purchases.world.db.outbox.map (·.payload) ∧
      new.eventId ∈ s.orders.handler.world.commits ∧ new.call.dto.userId = userId ∧
      new.call.correlationId = correlationId

section Traced
variable {options : Outbox.OutboxModuleOptions} {cfg : PayoutConfig} {s : Pipeline}
  {tr : List (Move Pipeline PipelineLabel)}

/-- A committed event of the loyalty service is that of a call. -/
theorem committed_traced (h : PipelineRuns options cfg tr s) {id : ReadableId}
    (hid : id ∈ s.orders.handler.world.commits) :
    TracedTo tr s (cfg.loyalty.payload id).user.id (cfg.loyalty.correlationId id) := by
  have hshop := reaches_shop h
  obtain ⟨event, hevent, rfl⟩ := List.mem_map.mp (commits_subset hshop hid)
  obtain ⟨new, hcall, hbuilt⟩ := Purchases.reaches_built (reaches_purchases hshop) event hevent
  have hown : new.event = cfg.loyalty.event event.id :=
    hbuilt.symm.trans ((reaches_stocked hshop).own event hevent)
  have hid' : new.eventId = event.id := congrArg DomainEvent.eventId hown
  refine ⟨new, hcall, List.mem_map.mpr ⟨event, hevent, hbuilt⟩, hid' ▸ hid, ?_, ?_⟩
  · exact congrArg (·.payload.user.id) hown
  · exact congrArg DomainEvent.correlationId hown

/-- What the cashback service was called with follows a committed purchase. -/
theorem delivered_traced {payouts : List (Move Payouts PayoutLabel)}
    {badges : List (Move BadgeRelay BadgeLabel)} (h : PipelineRuns options cfg tr s)
    (hpayouts : PayoutRuns cfg payouts s.payouts)
    (hrelay : BadgeRuns cfg.options cfg.event cfg.cashback badges s.payouts.relay)
    {event : BadgeUnlockedEvent}
    (hdelivered : Cashback.Delivered (cashbackMoves cfg.cashback badges) event) :
    TracedTo tr s event.payload.user.id event.correlationId := by
  obtain ⟨id, hrow, hevent⟩ := delivered_row hrelay hdelivered
  have hstored := reaches_stored hpayouts
  obtain ⟨row, hmem, rfl⟩ := List.mem_map.mp ((hstored.rows id).mp hrow)
  obtain ⟨tr', hloyalty⟩ := reaches_loyaltyRun hpayouts
  obtain ⟨eventId, hcommitted, hcorrelation, huser⟩ :=
    (Loyalty.reaches_traced hloyalty).committed row hmem
  rw [hstored.own row hmem, hevent] at hcorrelation huser
  have htraced := committed_traced h hcommitted
  have hcorrelation' : event.correlationId = cfg.loyalty.correlationId eventId := hcorrelation
  have huser' : event.payload.user = (cfg.loyalty.payload eventId).user := huser
  rwa [hcorrelation', huser']

theorem reaches_cashback (h : PipelineRuns options cfg tr s) :
    Cashback.Traced (fun badge correlationId => TracedTo tr s badge.1 correlationId)
      s.unlocks.handler := by
  obtain ⟨payouts, hpayouts, -⟩ := reaches_payouts (fun _ _ => true) h
    (fun x _ => by cases x.label <;> rfl)
  obtain ⟨badges, hrelay⟩ := reaches_badgeRelay hpayouts
  refine Cashback.reaches_traced (reaches_handler hrelay (badgeUnlockedLawful cfg.cashback)).1
    fun x hx => ?_
  cases hlabel : x.label with
  | badgeUnlocked event => exact delivered_traced h hpayouts hrelay ⟨x, hx, hlabel⟩
  | _ => trivial

/-- A transaction, and every event about its payment, has the correlation id of a call of its user
whose purchase is committed and credited. -/
theorem cashback_traced (h : PipelineRuns options cfg tr s) :
    (∀ k row, s.unlocks.handler.world.row k = some row →
      ∃ correlationId, row.correlationId = some correlationId ∧
        TracedTo tr s row.userId correlationId) ∧
      ∀ event ∈ s.unlocks.handler.world.db.outboxEvents,
        TracedTo tr s event.payload.userId event.correlationId :=
  ⟨(reaches_cashback h).rows, (reaches_cashback h).outcomes⟩

end Traced

theorem cashback_traced_retried : ∃ tr s, PipelineRuns ⟨10, 3⟩ cashbackConfig tr s ∧
    ∃ k row, s.unlocks.handler.world.row k = some row ∧
      ∃ correlationId, row.correlationId = some correlationId ∧
        TracedTo tr s row.userId correlationId := by
  obtain ⟨tr, s, h, -, -, -, -, -, -, -, hsome⟩ := pipeline_run
  obtain ⟨row, hrow⟩ := Option.isSome_iff_exists.mp hsome
  exact ⟨tr, s, h, 0, row, hrow, (cashback_traced h).1 0 row hrow⟩

end Bumpa.Delivery
