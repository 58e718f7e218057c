import Bumpa.Delivery.CountedPurchases
import Bumpa.Delivery.PaidBadges

/-! # From a purchase to its cashback

All three services with both outboxes and the server between them. A step of the loyalty service may
commit events to its outbox, which go on to the cashback service.

A transaction is always for an active badge that the user's purchases have earned, and of its reward
(`cashback_earned`). As soon as nothing is on its way any more, every badge that a user's purchases
have earned has its one transaction (`earned_paid`).
-/
namespace Bumpa.Delivery
open Bumpa.Events Bumpa.Transition
open Loyalty (Earns)
set_option autoImplicit false

/-- `orders`: from the purchases to the loyalty service. `unlocks`: from there to the cashback
service. -/
structure Pipeline where
  purchases : Purchases.State
  orders : PurchaseRelay
  unlocks : BadgeRelay

inductive PipelineLabel where
  | shop (l : ShopLabel)
  | unlocks (l : BadgeLabel)

namespace Pipeline

def shop (s : Pipeline) : Shop := ⟨s.purchases, s.orders⟩

def payouts (s : Pipeline) : Payouts := ⟨s.orders.handler, s.unlocks⟩

def initial (cfg : PayoutConfig) : Pipeline :=
  ⟨Purchases.initial, Relay.initial (handlePurchaseCompleted cfg.loyalty),
    Relay.initial (handleBadgeUnlocked cfg.cashback)⟩

end Pipeline

/-- `options`: those of the outbox of the purchase service. -/
def pipelineStep (options : Outbox.OutboxModuleOptions) (cfg : PayoutConfig) (s : Pipeline) :
    PipelineLabel → Option Pipeline
  | .shop l => (shopStep options cfg.loyalty s.shop l).bind fun shop =>
    (cfg.commitRows s.unlocks (newRows s.orders.handler shop.relay.handler)).map fun unlocks =>
      ⟨shop.purchases, shop.relay, unlocks⟩
  | .unlocks (.commit _) => none
  | .unlocks l => (cfg.step s.unlocks l).map fun unlocks => { s with unlocks := unlocks }

abbrev PipelineRuns (options : Outbox.OutboxModuleOptions) (cfg : PayoutConfig)
    (tr : List (Move Pipeline PipelineLabel)) (s : Pipeline) : Prop :=
  Run (pipelineStep options cfg) (Pipeline.initial cfg) tr s

/-! ## The runs of the two halves -/

def shopMove (x : Move Pipeline PipelineLabel) : Option (Move Shop ShopLabel) :=
  match x.label with
  | .shop l => some ⟨x.source.shop, l, x.target.shop⟩
  | .unlocks _ => none

/-- `g` of the steps of the second half. -/
def ofUnlocks (g : BadgeRelay → BadgeLabel → Bool) (s : Pipeline) : PipelineLabel → Bool
  | .shop _ => true
  | .unlocks l => g s.unlocks l

section Step
variable {options : Outbox.OutboxModuleOptions} {cfg : PayoutConfig} {s s' : Pipeline}
  {tr : List (Move Pipeline PipelineLabel)}

theorem shopStep_handler {cfg : Loyalty.Config} {s s' : Shop} {l : ShopLabel}
    (h : shopStep options cfg s l = some s') : s'.relay.handler = s.relay.handler ∨
      ∃ l', Loyalty.step cfg s.relay.handler l' = some s'.relay.handler := by
  cases shopStep_moves h with
  | quiet l step none relay => exact Or.inl (by rw [relay])
  | commits l event step new own relay => exact (relayStep_relays relay).handler_step
  | relays l uncommitted step purchases => exact (relayStep_relays step).handler_step

theorem reaches_shop (h : PipelineRuns options cfg tr s) :
    ShopRuns options cfg.loyalty (tr.filterMap shopMove) s.shop := by
  refine Run.history (fun tr s => ShopRuns options cfg.loyalty (tr.filterMap shopMove) s.shop)
    Run.nil ?_ h
  rintro tr s l s' - hs hstep
  rw [filterMap_snoc]
  cases l with
  | shop l =>
    obtain ⟨shop, hshop, hrest⟩ := Option.bind_eq_some_iff.mp hstep
    obtain ⟨unlocks, -, rfl⟩ := Option.map_eq_some_iff.mp hrest
    exact hs.snoc hshop
  | unlocks l =>
    rw [shopMove, Option.toList_none, List.append_nil]
    cases l with
    | commit id => cases hstep
    | _ =>
      obtain ⟨unlocks, -, rfl⟩ := Option.map_eq_some_iff.mp hstep
      exact hs

/-- What the first half does is a step of the loyalty service to the second, or nothing. -/
theorem shop_payouts {l : ShopLabel} (h : pipelineStep options cfg s (.shop l) = some s') :
    s'.payouts = s.payouts ∨ ∃ l', payoutStep cfg s.payouts (.loyalty l') = some s'.payouts := by
  obtain ⟨shop, hshop, hrest⟩ := Option.bind_eq_some_iff.mp h
  obtain ⟨unlocks, hcommits, rfl⟩ := Option.map_eq_some_iff.mp hrest
  rcases shopStep_handler hshop with hsame | ⟨l', hstep⟩
  · have hsame' : shop.relay.handler = s.orders.handler := hsame
    rw [hsame', newRows, List.drop_length] at hcommits
    cases hcommits
    exact Or.inl (congrArg (Payouts.mk · s.unlocks) hsame')
  · refine Or.inr ⟨l', Option.bind_eq_some_iff.mpr ⟨_, hstep, ?_⟩⟩
    exact Option.map_eq_some_iff.mpr ⟨unlocks, hcommits, rfl⟩

theorem unlocks_payouts {l : BadgeLabel} (h : pipelineStep options cfg s (.unlocks l) = some s') :
    payoutStep cfg s.payouts (.relay l) = some s'.payouts := by
  cases l with
  | commit id => cases h
  | _ =>
    obtain ⟨unlocks, hunlocks, rfl⟩ := Option.map_eq_some_iff.mp h
    exact Option.map_eq_some_iff.mpr ⟨unlocks, hunlocks, rfl⟩

theorem reaches_payouts (g : BadgeRelay → BadgeLabel → Bool) (h : PipelineRuns options cfg tr s)
    (hG : Guarded (fun s l => ofUnlocks g s l = true) tr) :
    ∃ tr', PayoutRuns cfg tr' s.payouts ∧ Guarded (fun s l => ofRelay g s l = true) tr' := by
  refine (Run.guarded_invariant (G := fun s l => ofUnlocks g s l = true) (fun s =>
    ∃ tr', PayoutRuns cfg tr' s.payouts ∧ Guarded (fun s l => ofRelay g s l = true) tr') ?_ h hG
    ⟨[], Run.nil, List.forall_mem_nil _⟩).1
  rintro s l s' hl ⟨tr', hrun, hguarded⟩ hstep
  cases l with
  | shop l =>
    rcases shop_payouts hstep with hsame | ⟨l', hpayout⟩
    · exact ⟨tr', hsame ▸ hrun, hguarded⟩
    · exact ⟨_, hrun.snoc hpayout, guarded_snoc.mpr ⟨hguarded, rfl⟩⟩
  | unlocks l => exact ⟨_, hrun.snoc (unlocks_payouts hstep), guarded_snoc.mpr ⟨hguarded, hl⟩⟩

end Step

/-! ## What is paid -/

section Paid
variable {options : Outbox.OutboxModuleOptions} {cfg : PayoutConfig} {s : Pipeline}
  {tr : List (Move Pipeline PipelineLabel)}

/-- The badges of a user are those that the credited purchases earn. -/
theorem unlocked_earned (hkeyed : cfg.loyalty.Keyed) (hcfg : cfg.loyalty.OwnSnapshots)
    (h : PipelineRuns options cfg tr s) (userId id : String) :
    (∃ row ∈ s.orders.handler.world.db.badges, row.userId = userId ∧ row.badgeId = id) ↔
      Loyalty.commitsFor cfg.loyalty s.orders.handler userId ≠ [] ∧
        ∃ badge ∈ cfg.loyalty.activeBadges, badge.id = id ∧
          Earns cfg.loyalty (s.orders.handler.world.db.counters userId) badge := by
  have hshop := reaches_shop h
  have hloyalty := (reaches_handler (reaches_relay hshop) (purchaseCompletedLawful cfg.loyalty)).1
  refine Iff.trans ?_ (Loyalty.reaches_badges hkeyed hcfg hloyalty userId id)
  simp only [Loyalty.Database.badgeIds, List.mem_map, List.mem_filter, decide_eq_true_eq, and_assoc]
  exact Iff.rfl

/-- As long as no delivery counts a purchase again, a transaction is for an active badge that the
user's purchases have earned, and of its reward. -/
theorem cashback_earned (hkeyed : cfg.loyalty.Keyed) (hcfg : cfg.loyalty.OwnSnapshots)
    (h : PipelineRuns options cfg tr s) (honce : CommitsOnce cfg.loyalty (tr.filterMap shopMove))
    {k : ReadableId} {row : Cashback.CashbackTransaction}
    (hrow : s.unlocks.handler.world.row k = some row) :
    ∃ badge ∈ cfg.loyalty.activeBadges, Earns cfg.loyalty (s.shop.countersOf row.userId) badge ∧
      row.badgeName = badge.name ∧ row.amountKobo = badge.rewardAmountKobo := by
  obtain ⟨tr', hpayouts, -⟩ := reaches_payouts (fun _ _ => true) h
    (fun x _ => by cases x.label <;> rfl)
  obtain ⟨id, event, hid, hevent, hbadge, hamount⟩ := transaction_stored hpayouts hrow
  obtain ⟨-, -, unlocked, hunlocked, badge, hmem, hbadgeId, hname, hreward⟩ :=
    stored_badge hcfg hpayouts hid hevent
  obtain ⟨-, badge', hactive, hid', hearns⟩ := (unlocked_earned hkeyed hcfg h
    unlocked.userId unlocked.badgeId).mp ⟨unlocked, hunlocked, rfl, rfl⟩
  obtain rfl : badge' = badge := List.inj_on_of_nodup_map hkeyed.badges
    (Loyalty.mem_activeBadges hactive) hmem (hid'.trans hbadgeId.symm)
  obtain ⟨huser, hbadgeName⟩ := Prod.mk.inj (hbadge.trans hname)
  refine ⟨badge', hactive, ?_, hbadgeName, hamount.trans hreward⟩
  rw [huser]
  exact hearns.mono (credited_le hcfg (reaches_shop h) honce unlocked.userId)

/-- When nothing is on its way, a badge that the user's purchases have earned has one transaction. -/
theorem earned_paid (hkeyed : cfg.loyalty.Keyed) (hcfg : cfg.loyalty.OwnSnapshots)
    (h : PipelineRuns options cfg tr s) (honce : CommitsOnce cfg.loyalty (tr.filterMap shopMove))
    (hsafe : Guarded (fun r l => undisturbed (purchaseRelay options cfg.loyalty) r l = true)
      ((tr.filterMap shopMove).filterMap relayMove))
    (hsafe' : Guarded
      (fun s l => ofUnlocks (undisturbed (badgeRelay cfg.options cfg.event)) s l = true) tr)
    (horders : Settled s.orders) (hunlocks : Settled s.unlocks) {userId : String}
    (hpurchases : s.shop.purchasesOf userId ≠ []) {badge : Loyalty.BadgeConfig}
    (hactive : badge ∈ cfg.loyalty.activeBadges)
    (hearns : Earns cfg.loyalty (s.shop.countersOf userId) badge) :
    ∃! k, s.unlocks.handler.world.badgeOf k = some (userId, badge.name) := by
  have hshop := reaches_shop h
  have hcredited := credited_all hcfg hshop honce hsafe horders userId
  have hcommits : Loyalty.commitsFor cfg.loyalty s.orders.handler userId ≠ [] := by
    have hserial := Loyalty.reaches_serial hcfg
      (reaches_handler (reaches_relay hshop) (purchaseCompletedLawful cfg.loyalty)).1
    have hcount : s.orders.handler.world.db.purchaseCount userId =
        (Loyalty.commitsFor cfg.loyalty s.orders.handler userId).length :=
      hserial.purchaseCount userId
    have hlength : s.orders.handler.world.db.purchaseCount userId =
        (s.shop.purchasesOf userId).length := congrArg Loyalty.Counters.purchaseCount hcredited
    refine List.ne_nil_of_length_pos ?_
    rw [← hcount, hlength]
    exact List.length_pos_of_ne_nil hpurchases
  obtain ⟨unlocked, hunlocked, huser, hbadgeId⟩ := (unlocked_earned hkeyed hcfg h userId
    badge.id).mpr ⟨hcommits, badge, hactive, rfl, hcredited ▸ hearns⟩
  obtain ⟨tr', hpayouts, hguarded⟩ := reaches_payouts _ h hsafe'
  obtain ⟨id, event, hid, hevent, badge', hmem, hbadgeId', hname⟩ :=
    unlock_stored hcfg hpayouts hunlocked
  obtain rfl : badge' = badge := List.inj_on_of_nodup_map hkeyed.badges hmem
    (Loyalty.mem_activeBadges hactive) (hbadgeId'.trans hbadgeId)
  have hpaid := stored_paid hcfg hpayouts hguarded hunlocks hid hevent
  rwa [hname, huser] at hpaid

end Paid

/-! ## Schedules -/

def cashbackConfig : PayoutConfig := unlocksBoth aminaConfig (aminaConfig.event 1)

/-- A purchase whose first delivery fails, and a badge whose first delivery fails after its COMMIT. -/
def pipelineSchedule : List PipelineLabel :=
  (subscribes badgeUnlockedConsumer).map .unlocks ++ shopSchedule.map .shop ++ paysOnce.map .unlocks

/-- The run of the schedule, and where it ends. -/
theorem pipeline_run : ∃ tr s, PipelineRuns ⟨10, 3⟩ cashbackConfig tr s ∧
    CommitsOnce aminaConfig (tr.filterMap shopMove) ∧
    Guarded (fun r l => undisturbed (purchaseRelay ⟨10, 3⟩ aminaConfig) r l = true)
      ((tr.filterMap shopMove).filterMap relayMove) ∧
    Guarded (fun s l => ofUnlocks (undisturbed (badgeRelay ⟨10, 3⟩ cashbackConfig.event)) s l = true)
      tr ∧ Settled s.orders ∧ Settled s.unlocks ∧ s.shop.purchasesOf "usr_1" ≠ [] ∧
    (∃ row ∈ s.orders.handler.world.db.badges, row.userId = "usr_1" ∧ row.badgeId = bronze.id) ∧
    (s.unlocks.handler.world.row 0).isSome := by
  obtain ⟨tr, s, h, hp⟩ := exists_run_of_trace (pipelineStep ⟨10, 3⟩ cashbackConfig)
    (Pipeline.initial cashbackConfig) pipelineSchedule (fun r =>
      let orders := (r.1.filterMap shopMove).filterMap relayMove
      (loyaltyMoves aminaConfig orders).all (fun x => Loyalty.commitsOnce x.source x.label) &&
      orders.all (fun x => undisturbed (purchaseRelay ⟨10, 3⟩ aminaConfig) x.source x.label) &&
      orders.all (fun x => x.label.alone) && r.2.orders.settled &&
      r.1.all (fun x => ofUnlocks (undisturbed (badgeRelay ⟨10, 3⟩ cashbackConfig.event))
        x.source x.label) &&
      r.1.all (fun x => ofUnlocks (fun _ l => l.alone) x.source x.label) && r.2.unlocks.settled &&
      decide (r.2.shop.purchasesOf "usr_1" ≠ [] ∧
        (∃ row ∈ r.2.orders.handler.world.db.badges,
          row.userId = "usr_1" ∧ row.badgeId = bronze.id) ∧
        (r.2.unlocks.handler.world.row 0).isSome)) (by decide +kernel)
  simp only [Bool.and_eq_true, decide_eq_true_eq] at hp
  obtain ⟨⟨⟨⟨⟨⟨⟨honce, hsafe⟩, halone⟩, horders⟩, hsafe'⟩, halone'⟩, hunlocks⟩, hends⟩ := hp
  obtain ⟨tr', hpayouts, hguarded⟩ := reaches_payouts _ h (guarded_of_all halone')
  obtain ⟨tr'', hrelay, hguarded'⟩ :=
    reaches_relayed (fun _ l => l.alone) (fun _ _ => rfl) hpayouts hguarded
  exact ⟨tr, s, h, guarded_of_all honce, guarded_of_all hsafe, guarded_of_all hsafe',
    settled_alone (reaches_relay (reaches_shop h)) (guarded_of_all halone) horders,
    settled_alone hrelay hguarded' hunlocks, hends⟩

theorem cashbackConfig_keyed : cashbackConfig.loyalty.Keyed := ⟨by decide, by decide⟩

theorem cashback_earned_retried : ∃ tr s, PipelineRuns ⟨10, 3⟩ cashbackConfig tr s ∧
    ∃ k row, s.unlocks.handler.world.row k = some row ∧
      ∃ badge ∈ cashbackConfig.loyalty.activeBadges,
        Earns cashbackConfig.loyalty (s.shop.countersOf row.userId) badge ∧
          row.badgeName = badge.name ∧ row.amountKobo = badge.rewardAmountKobo := by
  obtain ⟨tr, s, h, honce, -, -, -, -, -, -, hsome⟩ := pipeline_run
  obtain ⟨row, hrow⟩ := Option.isSome_iff_exists.mp hsome
  exact ⟨tr, s, h, 0, row, hrow,
    cashback_earned cashbackConfig_keyed (fun _ => rfl) h honce hrow⟩

theorem earned_paid_retried : ∃ tr s, PipelineRuns ⟨10, 3⟩ cashbackConfig tr s ∧
    ∃! k, s.unlocks.handler.world.badgeOf k = some ("usr_1", bronze.name) := by
  obtain ⟨tr, s, h, honce, hsafe, hsafe', horders, hunlocks, hpurchases, hbadge, -⟩ := pipeline_run
  obtain ⟨-, badge, hactive, hid, hearns⟩ :=
    (unlocked_earned cashbackConfig_keyed (fun _ => rfl) h "usr_1" bronze.id).mp hbadge
  obtain rfl : badge = bronze := List.inj_on_of_nodup_map cashbackConfig_keyed.badges
    (Loyalty.mem_activeBadges hactive) (.head _) hid
  exact ⟨tr, s, h, earned_paid cashbackConfig_keyed (fun _ => rfl) h honce hsafe hsafe' horders
    hunlocks hpurchases hactive
    (hearns.mono (credited_le (fun _ => rfl) (reaches_shop h) honce "usr_1"))⟩

end Bumpa.Delivery
