import Bumpa.Delivery.BadgeEvents
import Bumpa.Loyalty.AnnouncedBadges

/-! # The badges of the loyalty service and the transactions of the cashback service

Both services with the outbox and the server between them: the COMMIT of a purchase makes the rows of
the outbox for everything that it unlocks.

A transaction is for a badge that its user has unlocked, and of the badge's reward
(`transaction_unlocked`). Where no message was dropped or lost, then as soon as all rows are PUBLISHED
and all queues are empty, every badge that a user has unlocked has exactly one (`badges_paid`).
-/
namespace Bumpa.Delivery
open Bumpa.Events Bumpa.Transition
open Loyalty (UnlockEvent)
set_option autoImplicit false

structure Payouts where
  loyalty : Loyalty.State
  relay : BadgeRelay

inductive PayoutLabel where
  | loyalty (l : Loyalty.Label)
  | relay (l : BadgeLabel)

/-- `event`: what each id of a row stands for. -/
structure PayoutConfig where
  options : Outbox.OutboxModuleOptions
  event : ReadableId → UnlockEvent
  loyalty : Loyalty.Config
  cashback : Cashback.Config

namespace PayoutConfig

def step (cfg : PayoutConfig) (r : BadgeRelay) (l : BadgeLabel) : Option BadgeRelay :=
  relayStep (badgeRelay cfg.options cfg.event) (handleBadgeUnlocked cfg.cashback) r l

/-- The rows of the outbox that are committed together. -/
def commitRows (cfg : PayoutConfig) (r : BadgeRelay) : List Loyalty.OutboxEvent → Option BadgeRelay
  | [] => some r
  | row :: rows =>
    if row.payload = cfg.event row.id then
      (cfg.step r (.commit row.id)).bind fun r' => cfg.commitRows r' rows
    else none

end PayoutConfig

def newRows (s s' : Loyalty.State) : List Loyalty.OutboxEvent :=
  s'.world.db.outbox.drop s.world.db.outbox.length

def payoutStep (cfg : PayoutConfig) (s : Payouts) : PayoutLabel → Option Payouts
  | .loyalty l => (Loyalty.step cfg.loyalty s.loyalty l).bind fun loyalty =>
    (cfg.commitRows s.relay (newRows s.loyalty loyalty)).map fun relay => ⟨loyalty, relay⟩
  | .relay (.commit _) => none
  | .relay l => (cfg.step s.relay l).map fun relay => { s with relay := relay }

def Payouts.initial (cfg : PayoutConfig) : Payouts :=
  ⟨Loyalty.initial, Relay.initial (handleBadgeUnlocked cfg.cashback)⟩

abbrev PayoutRuns (cfg : PayoutConfig) (tr : List (Move Payouts PayoutLabel)) (s : Payouts) : Prop :=
  Run (payoutStep cfg) (Payouts.initial cfg) tr s

/-! ## The runs of the two parts -/

/-- `g` of the steps of the relay. -/
def ofRelay (g : BadgeRelay → BadgeLabel → Bool) (s : Payouts) : PayoutLabel → Bool
  | .loyalty _ => true
  | .relay l => g s.relay l

section Step
variable {cfg : PayoutConfig} {s s' : Payouts} {tr : List (Move Payouts PayoutLabel)}

/-- A run of the relay whose steps have `g`. -/
def Relayed (cfg : PayoutConfig) (g : BadgeRelay → BadgeLabel → Bool) (r : BadgeRelay) : Prop :=
  ∃ tr, BadgeRuns cfg.options cfg.event cfg.cashback tr r ∧ Guarded (fun r l => g r l = true) tr

theorem Relayed.snoc {g : BadgeRelay → BadgeLabel → Bool} {r r' : BadgeRelay} {l : BadgeLabel}
    (h : Relayed cfg g r) (hl : g r l = true) (hstep : cfg.step r l = some r') : Relayed cfg g r' := by
  obtain ⟨tr, hrun, hG⟩ := h
  exact ⟨_, hrun.snoc hstep, guarded_snoc.mpr ⟨hG, hl⟩⟩

/-- What each COMMIT of a row keeps. -/
theorem commitRows_invariant (I : BadgeRelay → Prop) {rows : List Loyalty.OutboxEvent}
    {r r' : BadgeRelay} (h : cfg.commitRows r rows = some r') (hr : I r)
    (hstep : ∀ r r' id, I r → cfg.step r (.commit id) = some r' → I r') : I r' := by
  induction rows generalizing r with
  | nil =>
    cases h
    exact hr
  | cons row rows ih =>
    simp only [PayoutConfig.commitRows] at h
    split at h
    · obtain ⟨r'', hcommit, hrest⟩ := Option.bind_eq_some_iff.mp h
      exact ih hrest (hstep r r'' row.id hr hcommit)
    · cases h

theorem reaches_relayed (g : BadgeRelay → BadgeLabel → Bool) (hg : ∀ r id, g r (.commit id) = true)
    (h : PayoutRuns cfg tr s) (hG : Guarded (fun s l => ofRelay g s l = true) tr) :
    Relayed cfg g s.relay := by
  refine (Run.guarded_invariant (G := fun s l => ofRelay g s l = true)
    (fun s => Relayed cfg g s.relay) ?_ h hG ⟨[], Run.nil, List.forall_mem_nil _⟩).1
  intro s l s' hl hs hstep
  cases l with
  | loyalty l =>
    obtain ⟨loyalty, -, hrest⟩ := Option.bind_eq_some_iff.mp hstep
    obtain ⟨relay, hcommits, rfl⟩ := Option.map_eq_some_iff.mp hrest
    exact commitRows_invariant (Relayed cfg g) hcommits hs
      fun r r' id hr hcommit => hr.snoc (hg r id) hcommit
  | relay l =>
    cases l with
    | commit id => cases hstep
    | _ =>
      obtain ⟨relay, hrelay, rfl⟩ := Option.map_eq_some_iff.mp hstep
      exact hs.snoc hl hrelay

theorem reaches_badgeRelay (h : PayoutRuns cfg tr s) :
    ∃ tr', BadgeRuns cfg.options cfg.event cfg.cashback tr' s.relay := by
  obtain ⟨tr', hrun, -⟩ := reaches_relayed (fun _ _ => true) (fun _ _ => rfl) h
    (fun x _ => by cases x.label <;> rfl)
  exact ⟨tr', hrun⟩

theorem reaches_loyaltyRun (h : PayoutRuns cfg tr s) :
    ∃ tr', Loyalty.Reaches cfg.loyalty tr' s.loyalty := by
  refine Run.invariant (fun s => ∃ tr', Loyalty.Reaches cfg.loyalty tr' s.loyalty) ?_ h ⟨[], Run.nil⟩
  rintro s l s' ⟨tr', hrun⟩ hstep
  cases l with
  | loyalty l =>
    obtain ⟨loyalty, hloyalty, hrest⟩ := Option.bind_eq_some_iff.mp hstep
    obtain ⟨relay, -, rfl⟩ := Option.map_eq_some_iff.mp hrest
    exact ⟨_, hrun.snoc hloyalty⟩
  | relay l =>
    cases l with
    | commit id => cases hstep
    | _ =>
      obtain ⟨relay, -, rfl⟩ := Option.map_eq_some_iff.mp hstep
      exact ⟨tr', hrun⟩

end Step

/-! ## The two outboxes are one -/

/-- The rows that are published are those that the loyalty service has committed. -/
structure Stored (cfg : PayoutConfig) (s : Payouts) : Prop where
  rows : ∀ id, (s.relay.outbox.world.rows.row id).isSome ↔
    id ∈ s.loyalty.world.db.outbox.map (·.id)
  own : ∀ row ∈ s.loyalty.world.db.outbox, row.payload = cfg.event row.id

theorem mem_badges {db : Loyalty.Database} {userId badgeId : String} :
    .badge userId badgeId ∈ db.unlocks ↔
      ∃ row ∈ db.badges, row.userId = userId ∧ row.badgeId = badgeId := by
  simp [Loyalty.Database.unlocks, Loyalty.UserAchievement.unlock, Loyalty.UserBadge.unlock]

section Stored
variable {cfg : PayoutConfig} {s s' : Payouts} {tr : List (Move Payouts PayoutLabel)}

theorem commitRows_rows {rows : List Loyalty.OutboxEvent} {r r' : BadgeRelay}
    (hs : Linked (badgeRelay cfg.options cfg.event) (badgeUnlockedLawful cfg.cashback) r)
    (h : cfg.commitRows r rows = some r') :
    (∀ id, (r'.outbox.world.rows.row id).isSome ↔
      (r.outbox.world.rows.row id).isSome ∨ id ∈ rows.map (·.id)) ∧
      ∀ row ∈ rows, row.payload = cfg.event row.id := by
  induction rows generalizing r with
  | nil =>
    cases h
    exact ⟨fun id => by simp, List.forall_mem_nil _⟩
  | cons row rows ih =>
    simp only [PayoutConfig.commitRows] at h
    split at h
    · next hown =>
      obtain ⟨r'', hcommit, hrest⟩ := Option.bind_eq_some_iff.mp h
      obtain ⟨hrows, howns⟩ := ih (step_linked hs (relayStep_relays hcommit)) hrest
      refine ⟨fun id => ?_, List.forall_mem_cons.mpr ⟨hown, howns⟩⟩
      rw [hrows, relay_rows hs hcommit, List.map_cons, List.mem_cons, or_assoc,
        RelayLabel.commit.injEq, eq_comm (a := row.id)]
    · cases h

theorem step_outbox {s s' : Loyalty.State} {l : Loyalty.Label}
    (h : Loyalty.step cfg.loyalty s l = some s') :
    s'.world.db.outbox = s.world.db.outbox ++ newRows s s' := by
  have hprefix : s.world.db.outbox <+: s'.world.db.outbox := by
    obtain ⟨e, th', -, ⟨o, -, -, hadv⟩ | ⟨hw, -⟩⟩ := Loyalty.step_cases h
    · exact Loyalty.advance_outbox_stays hadv
    · rw [hw]
  obtain ⟨rows, hrows⟩ := hprefix
  rw [newRows, ← hrows, List.drop_left]

theorem reaches_stored (h : PayoutRuns cfg tr s) : Stored cfg s := by
  refine Run.history (fun _ s => Stored cfg s) ⟨fun id => ?_, List.forall_mem_nil _⟩ ?_ h
  · change (false = true) ↔ _
    simp [Payouts.initial, Loyalty.initial]
  · intro tr s l s' hreach hs hstep
    obtain ⟨tr', hrelay⟩ := reaches_badgeRelay hreach
    have hlinked := reaches_linked hrelay (badgeUnlockedLawful cfg.cashback)
    cases l with
    | loyalty l =>
      obtain ⟨loyalty, hloyalty, hrest⟩ := Option.bind_eq_some_iff.mp hstep
      obtain ⟨relay, hcommits, rfl⟩ := Option.map_eq_some_iff.mp hrest
      obtain ⟨hrows, hown⟩ := commitRows_rows hlinked hcommits
      have houtbox := step_outbox hloyalty
      refine ⟨fun id => ?_, fun row hrow => ?_⟩
      · rw [hrows, hs.rows, houtbox, List.map_append, List.mem_append]
      · rw [houtbox] at hrow
        exact (List.mem_append.mp hrow).elim (hs.own row) (hown row)
    | relay l =>
      cases l with
      | commit id => cases hstep
      | _ =>
        obtain ⟨relay, hrelay, rfl⟩ := Option.map_eq_some_iff.mp hstep
        refine ⟨fun id => ?_, hs.own⟩
        rw [relay_rows hlinked hrelay, or_iff_left (by simp)]
        exact hs.rows id

/-- A badge event that is in the outbox stands under its own id, and for an unlock. -/
theorem stored_badge (hcfg : cfg.loyalty.OwnSnapshots) (h : PayoutRuns cfg tr s) {id : ReadableId}
    {event : BadgeUnlockedEvent} (hrow : (s.relay.outbox.world.rows.row id).isSome)
    (hevent : cfg.event id = .badge event) :
    event.eventId = id ∧ event.type = .badgeUnlocked ∧
      ∃ unlocked ∈ s.loyalty.world.db.badges, ∃ badge ∈ cfg.loyalty.badges,
        badge.id = unlocked.badgeId ∧ Cashback.badgeOf event = (unlocked.userId, badge.name) ∧
          Cashback.rewardOf cfg.cashback event = badge.rewardAmountKobo := by
  obtain ⟨tr', hloyalty⟩ := reaches_loyaltyRun h
  have hstored := reaches_stored h
  obtain ⟨row, hmem, rfl⟩ := List.mem_map.mp ((hstored.rows id).mp hrow)
  have hpayload := (hstored.own row hmem).trans hevent
  obtain ⟨userId, badgeId, hunlock, event', badge, hsaid, hid, htype, huser, hbadge, hbadgeId, hname,
    hreward⟩ := (Loyalty.reaches_badgesPaired hcfg hloyalty).committed.events row hmem event hpayload
  obtain rfl := UnlockEvent.badge.inj (hpayload.symm.trans hsaid)
  obtain ⟨unlocked, hunlocked, rfl, rfl⟩ := mem_badges.mp hunlock
  refine ⟨hid.symm, htype, unlocked, hunlocked, badge, hbadge, hbadgeId, ?_, ?_⟩
  · rw [Cashback.badgeOf, huser, hname]
  · rw [Cashback.rewardOf, hreward, Option.getD_some]

/-- An unlocked badge has its event in the outbox. -/
theorem unlock_stored (hcfg : cfg.loyalty.OwnSnapshots) (h : PayoutRuns cfg tr s)
    {unlocked : Loyalty.UserBadge} (hunlocked : unlocked ∈ s.loyalty.world.db.badges) :
    ∃ id event, (s.relay.outbox.world.rows.row id).isSome ∧ cfg.event id = .badge event ∧
      ∃ badge ∈ cfg.loyalty.badges, badge.id = unlocked.badgeId ∧
        Cashback.badgeOf event = (unlocked.userId, badge.name) := by
  obtain ⟨tr', hloyalty⟩ := reaches_loyaltyRun h
  have hstored := reaches_stored h
  have hunlock := mem_badges.mpr ⟨unlocked, hunlocked, rfl, rfl⟩
  obtain ⟨row, hrow, event, badge, hsaid, -, -, huser, hbadge, hbadgeId, hname, -⟩ :=
    ((Loyalty.reaches_badgesPaired hcfg hloyalty).committed.rows unlocked.userId unlocked.badgeId
      hunlock).resolve_right (by simp)
  refine ⟨row.id, event, (hstored.rows row.id).mpr (List.mem_map_of_mem hrow),
    (hstored.own row hrow).symm.trans hsaid, badge, hbadge, hbadgeId, ?_⟩
  rw [Cashback.badgeOf, huser, hname]

/-- A transaction is of an event that is in the outbox. -/
theorem transaction_stored (h : PayoutRuns cfg tr s) {k : ReadableId}
    {row : Cashback.CashbackTransaction} (hrow : s.relay.handler.world.row k = some row) :
    ∃ id event, (s.relay.outbox.world.rows.row id).isSome ∧ cfg.event id = .badge event ∧
      row.badge = Cashback.badgeOf event ∧
        row.amountKobo = Cashback.rewardOf cfg.cashback event := by
  obtain ⟨tr', hrelay⟩ := reaches_badgeRelay h
  have hcashback := (reaches_handler hrelay (badgeUnlockedLawful cfg.cashback)).1
  obtain ⟨event, hdelivered, hbadge, hamount⟩ :=
    (Cashback.reaches_handlesEvents hcashback).rows k row hrow
  obtain ⟨id, hid, hevent⟩ := delivered_row hrelay hdelivered
  exact ⟨id, event, hid, hevent, hbadge, hamount⟩

/-- When nothing is on its way, every event that is in the outbox has one transaction. -/
theorem stored_paid (hcfg : cfg.loyalty.OwnSnapshots) (h : PayoutRuns cfg tr s)
    (hsafe : Guarded
      (fun s l => ofRelay (undisturbed (badgeRelay cfg.options cfg.event)) s l = true) tr)
    (hsettled : Settled s.relay) {id : ReadableId} {event : BadgeUnlockedEvent}
    (hrow : (s.relay.outbox.world.rows.row id).isSome) (hevent : cfg.event id = .badge event) :
    ∃! k, s.relay.handler.world.badgeOf k = some (Cashback.badgeOf event) := by
  obtain ⟨tr', hrelay, hguarded⟩ := reaches_relayed _ (fun _ _ => rfl) h hsafe
  obtain ⟨hid, htype, -⟩ := stored_badge hcfg h hrow hevent
  have hroutes : (badgeRelay cfg.options cfg.event).routes (cfg.event id) = true := by
    simp only [RelayConfig.routes, badgeRelay, hevent, unlockType, htype]
    exact Amqp.topicMatches_self _
  have hdone := settled_done hrelay (badgeUnlockedLawful cfg.cashback) hguarded hsettled hrow hroutes
  obtain ⟨k, hk⟩ := processed_transaction hrelay
    (fun id event hid hevent => (stored_badge hcfg h hid hevent).1) hevent
    (hid ▸ hdone event hevent)
  have hcashback := (reaches_handler hrelay (badgeUnlockedLawful cfg.cashback)).1
  exact ⟨k, hk, fun k' hk' => (Cashback.reaches_badgeRows hcashback).unique k' k _ hk' hk⟩

end Stored

/-! ## Unlocks and transactions -/

section Payouts
variable {cfg : PayoutConfig} {s : Payouts} {tr : List (Move Payouts PayoutLabel)}

/-- A transaction is for a badge that its user has unlocked, and of the badge's reward. -/
theorem transaction_unlocked (hcfg : cfg.loyalty.OwnSnapshots) (h : PayoutRuns cfg tr s)
    {k : ReadableId} {row : Cashback.CashbackTransaction}
    (hrow : s.relay.handler.world.row k = some row) :
    ∃ unlocked ∈ s.loyalty.world.db.badges, ∃ badge ∈ cfg.loyalty.badges,
      badge.id = unlocked.badgeId ∧ row.badge = (unlocked.userId, badge.name) ∧
        row.amountKobo = badge.rewardAmountKobo := by
  obtain ⟨id, event, hid, hevent, hbadge, hamount⟩ := transaction_stored h hrow
  obtain ⟨-, -, unlocked, hunlocked, badge, hmem, hbadgeId, hname, hreward⟩ :=
    stored_badge hcfg h hid hevent
  exact ⟨unlocked, hunlocked, badge, hmem, hbadgeId, hbadge.trans hname, hamount.trans hreward⟩

/-- When nothing is on its way, every unlocked badge has one transaction. -/
theorem badges_paid (hcfg : cfg.loyalty.OwnSnapshots) (h : PayoutRuns cfg tr s)
    (hsafe : Guarded
      (fun s l => ofRelay (undisturbed (badgeRelay cfg.options cfg.event)) s l = true) tr)
    (hsettled : Settled s.relay) {unlocked : Loyalty.UserBadge}
    (hunlocked : unlocked ∈ s.loyalty.world.db.badges) :
    ∃ badge ∈ cfg.loyalty.badges, badge.id = unlocked.badgeId ∧
      ∃! k, s.relay.handler.world.badgeOf k = some (unlocked.userId, badge.name) := by
  obtain ⟨id, event, hrow, hevent, badge, hbadge, hbadgeId, hname⟩ := unlock_stored hcfg h hunlocked
  exact ⟨badge, hbadge, hbadgeId, hname ▸ stored_paid hcfg h hsafe hsettled hrow hevent⟩

end Payouts

/-! ## Schedules -/

def bronze : Loyalty.BadgeConfig :=
  ⟨"bdg_bronze", "Bronze", 1, 1, ["ach_first_purchase"], 30000, "NGN", true⟩

/-- The purchase unlocks an achievement with event 1 and a badge with event 3. -/
def unlocksBoth (loyalty : Loyalty.Config) (event : PurchaseCompletedEvent) : PayoutConfig where
  options := ⟨10, 3⟩
  event := fun id =>
    if id = 1 then .achievement (createDomainEvent .achievementUnlocked
      ⟨"First Purchase", event.payload.user⟩ event.correlationId id)
    else .badge (Loyalty.badgeEvent event bronze id)
  loyalty := loyalty
  cashback := Cashback.mockConfig

def bronzeConfig : PayoutConfig :=
  unlocksBoth Loyalty.firstPurchaseConfig (Loyalty.firstPurchaseConfig.event 0)

/-- Both events are published, and one has a queue. Its first delivery fails after the COMMIT, the
second finds it processed. -/
def paysOnce : List BadgeLabel :=
  .outbox (.publishMany [1, 3]) :: List.replicate 8 (.outbox (.run 0 .ok)) ++
    .fleet (.run 0 (.deliver 0 0 0)) :: List.replicate 6 (.handler (.run 0 .ok)) ++
    [.handler (.run 0 (.fails (.other "Connection terminated") true)),
      .fleet (.run 0 (.service (.run 2 .fails))), .fleet (.expire 0 "cashback.badge-unlocked"),
      .fleet (.run 0 (.deliver 0 0 0)), .handler (.run 1 .ok),
      .fleet (.run 0 (.service (.run 3 .ok)))]

def payoutSchedule : List PayoutLabel :=
  (subscribes badgeUnlockedConsumer).map .relay ++
    (.deliver 0 :: Loyalty.Label.oks 0 18).map .loyalty ++ paysOnce.map .relay

/-- The run of the schedule, and where it ends. -/
theorem paid_run : ∃ tr s, PayoutRuns bronzeConfig tr s ∧ Guarded
    (fun s l => ofRelay (undisturbed (badgeRelay ⟨10, 3⟩ bronzeConfig.event)) s l = true) tr ∧
    Settled s.relay ∧ ⟨2, "usr", "bdg_bronze"⟩ ∈ s.loyalty.world.db.badges ∧
    (s.relay.handler.world.row 0).isSome := by
  obtain ⟨tr, s, h, hp⟩ := exists_run_of_trace (payoutStep bronzeConfig)
    (Payouts.initial bronzeConfig) payoutSchedule (fun r =>
      r.1.all (fun x => ofRelay (undisturbed (badgeRelay ⟨10, 3⟩ bronzeConfig.event))
        x.source x.label) &&
      r.1.all (fun x => ofRelay (fun _ l => l.alone) x.source x.label) && r.2.relay.settled &&
      decide (⟨2, "usr", "bdg_bronze"⟩ ∈ r.2.loyalty.world.db.badges ∧
        (r.2.relay.handler.world.row 0).isSome)) (by decide +kernel)
  simp only [Bool.and_eq_true, decide_eq_true_eq] at hp
  obtain ⟨⟨⟨hsafe, halone⟩, hsettled⟩, hends⟩ := hp
  obtain ⟨tr', hrelay, hguarded⟩ :=
    reaches_relayed (fun _ l => l.alone) (fun _ _ => rfl) h (guarded_of_all halone)
  exact ⟨tr, s, h, guarded_of_all hsafe, settled_alone hrelay hguarded hsettled, hends⟩

theorem transaction_unlocked_bronze : ∃ tr s, PayoutRuns bronzeConfig tr s ∧
    ∃ k row, s.relay.handler.world.row k = some row ∧
      ∃ unlocked ∈ s.loyalty.world.db.badges, ∃ badge ∈ bronzeConfig.loyalty.badges,
        badge.id = unlocked.badgeId ∧ row.badge = (unlocked.userId, badge.name) ∧
          row.amountKobo = badge.rewardAmountKobo := by
  obtain ⟨tr, s, h, -, -, -, hsome⟩ := paid_run
  obtain ⟨row, hrow⟩ := Option.isSome_iff_exists.mp hsome
  exact ⟨tr, s, h, 0, row, hrow, transaction_unlocked (fun _ => rfl) h hrow⟩

theorem badges_paid_bronze : ∃ tr s, PayoutRuns bronzeConfig tr s ∧
    ∃ badge ∈ bronzeConfig.loyalty.badges, badge.id = "bdg_bronze" ∧
      ∃! k, s.relay.handler.world.badgeOf k = some ("usr", badge.name) := by
  obtain ⟨tr, s, h, hsafe, hsettled, hmem, -⟩ := paid_run
  exact ⟨tr, s, h, badges_paid (fun _ => rfl) h hsafe hsettled hmem⟩

end Bumpa.Delivery
