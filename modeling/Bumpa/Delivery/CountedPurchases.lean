import Bumpa.Delivery.PurchaseEvents
import Bumpa.Loyalty.EarnedBadges
import Bumpa.Purchases.AnnouncedPurchases
import Mathlib.Algebra.Order.BigOperators.Group.List
import Mathlib.Data.List.Perm.Subperm

/-! # The stats of the loyalty service and the purchases

Both services with the outbox and the server between them: the COMMIT of a purchase makes the row of
the outbox that is published, delivered and counted.

No user is ever credited with more than the purchases that are committed, as long as no delivery
commits an event that another one has committed since its check (`counted_le_purchased`). Where also
no message was dropped or lost, then as soon as all rows are PUBLISHED and all queues are empty, every
user's stats are the number and the sum of the user's purchases (`stats_eq_purchases`).
-/
namespace Bumpa.Delivery
open Bumpa.Events Bumpa.Transition
set_option autoImplicit false

structure Shop where
  purchases : Purchases.State
  relay : PurchaseRelay

inductive ShopLabel where
  | purchase (l : Purchases.Label)
  | relay (l : PurchaseLabel)

/-- The event that a step of the purchase service has committed. -/
def newEvent (s s' : Purchases.State) : Option Purchases.OutboxEvent :=
  (s'.world.db.outbox.drop s.world.db.outbox.length).head?

def shopStep (options : Outbox.OutboxModuleOptions) (cfg : Loyalty.Config) (s : Shop) :
    ShopLabel → Option Shop
  | .purchase l => (Purchases.step s.purchases l).bind fun purchases =>
    match newEvent s.purchases purchases with
    | none => some { s with purchases := purchases }
    | some event =>
      if event.payload = cfg.event event.id then
        (relayStep (purchaseRelay options cfg) (handlePurchaseCompleted cfg) s.relay
          (.commit event.id)).map fun relay => ⟨purchases, relay⟩
      else none
  | .relay (.commit _) => none
  | .relay l => (relayStep (purchaseRelay options cfg) (handlePurchaseCompleted cfg) s.relay l).map
    fun relay => { s with relay := relay }

def Shop.initial (cfg : Loyalty.Config) : Shop :=
  ⟨Purchases.initial, Relay.initial (handlePurchaseCompleted cfg)⟩

abbrev ShopRuns (options : Outbox.OutboxModuleOptions) (cfg : Loyalty.Config)
    (tr : List (Move Shop ShopLabel)) (s : Shop) : Prop :=
  Run (shopStep options cfg) (Shop.initial cfg) tr s

/-! ## The runs of the two parts -/

def purchaseMove (x : Move Shop ShopLabel) : Option (Move Purchases.State Purchases.Label) :=
  match x.label with
  | .purchase l => some ⟨x.source.purchases, l, x.target.purchases⟩
  | .relay _ => none

def relayMove (x : Move Shop ShopLabel) : Option (Move PurchaseRelay PurchaseLabel) :=
  match x.label with
  | .purchase _ => (newEvent x.source.purchases x.target.purchases).map fun event =>
    ⟨x.source.relay, .commit event.id, x.target.relay⟩
  | .relay l => some ⟨x.source.relay, l, x.target.relay⟩

section Step
variable {options : Outbox.OutboxModuleOptions} {cfg : Loyalty.Config} {s s' : Shop}

/-- A step of the purchase service that commits no event, its COMMIT, or a step after that. -/
inductive ShopMoves (options : Outbox.OutboxModuleOptions) (cfg : Loyalty.Config) (s s' : Shop) :
    ShopLabel → Prop
  | quiet (l : Purchases.Label) (step : Purchases.step s.purchases l = some s'.purchases)
      (none : newEvent s.purchases s'.purchases = none) (relay : s'.relay = s.relay) :
      ShopMoves options cfg s s' (.purchase l)
  | commits (l : Purchases.Label) (event : Purchases.OutboxEvent)
      (step : Purchases.step s.purchases l = some s'.purchases)
      (new : newEvent s.purchases s'.purchases = some event)
      (own : event.payload = cfg.event event.id)
      (relay : relayStep (purchaseRelay options cfg) (handlePurchaseCompleted cfg) s.relay
        (.commit event.id) = some s'.relay) : ShopMoves options cfg s s' (.purchase l)
  | relays (l : PurchaseLabel) (uncommitted : ∀ id, l ≠ .commit id)
      (step : relayStep (purchaseRelay options cfg) (handlePurchaseCompleted cfg) s.relay l =
        some s'.relay) (purchases : s'.purchases = s.purchases) :
      ShopMoves options cfg s s' (.relay l)

theorem shopStep_moves {l : ShopLabel} (h : shopStep options cfg s l = some s') :
    ShopMoves options cfg s s' l := by
  cases l with
  | purchase l =>
    obtain ⟨purchases, hstep, h⟩ := Option.bind_eq_some_iff.mp h
    split at h
    · next hnone =>
      cases h
      exact .quiet l hstep hnone rfl
    · next event hnew =>
      split at h
      · next hown =>
        obtain ⟨relay, hrelay, rfl⟩ := Option.map_eq_some_iff.mp h
        exact .commits l event hstep hnew hown hrelay
      · cases h
  | relay l =>
    cases l with
    | commit id => cases h
    | _ =>
      obtain ⟨relay, hstep, rfl⟩ := Option.map_eq_some_iff.mp h
      exact .relays _ (by simp) hstep rfl

theorem reaches_purchases {tr : List (Move Shop ShopLabel)} (h : ShopRuns options cfg tr s) :
    Purchases.Reaches (tr.filterMap purchaseMove) s.purchases := by
  refine Run.history (fun tr s => Purchases.Reaches (tr.filterMap purchaseMove) s.purchases)
    Run.nil ?_ h
  intro tr s l s' _ hs hstep
  rw [filterMap_snoc]
  cases shopStep_moves hstep with
  | quiet l step none relay => exact hs.snoc step
  | commits l event step new own relay => exact hs.snoc step
  | relays l uncommitted step purchases =>
    rw [purchases]
    exact (List.append_nil (tr.filterMap purchaseMove)).symm ▸ hs

theorem reaches_relay {tr : List (Move Shop ShopLabel)} (h : ShopRuns options cfg tr s) :
    PurchaseRuns options cfg (tr.filterMap relayMove) s.relay := by
  refine Run.history (fun tr s => PurchaseRuns options cfg (tr.filterMap relayMove) s.relay)
    Run.nil ?_ h
  intro tr s l s' _ hs hstep
  rw [filterMap_snoc]
  cases shopStep_moves hstep with
  | quiet l step none relay =>
    rw [relayMove]
    simp only [none, Option.map_none, Option.toList_none, List.append_nil, relay]
    exact hs
  | commits l event step new own relay =>
    rw [relayMove]
    simp only [new, Option.map_some, Option.toList_some]
    exact hs.snoc relay
  | relays l uncommitted step purchases => exact hs.snoc step

end Step

/-! ## The two outboxes are one -/

/-- The rows that are published are those that the purchase service has committed. -/
structure Stocked (cfg : Loyalty.Config) (s : Shop) : Prop where
  rows : ∀ id, (s.relay.outbox.world.rows.row id).isSome ↔
    id ∈ s.purchases.world.db.outbox.map (·.id)
  own : ∀ event ∈ s.purchases.world.db.outbox, event.payload = cfg.event event.id

section Stocked
variable {options : Outbox.OutboxModuleOptions} {cfg : Loyalty.Config} {s s' : Shop}
  {tr : List (Move Shop ShopLabel)}

theorem quiet_outbox {purchases : List (Move Purchases.State Purchases.Label)}
    {s s' : Purchases.State} {l : Purchases.Label} (hreach : Purchases.Reaches purchases s)
    (h : Purchases.step s l = some s') :
    s'.world.db.outbox = s.world.db.outbox ++ (newEvent s s').toList := by
  rcases Purchases.step_adds hreach h with hdb | ⟨row, event, -, houtbox, -⟩
  · rw [newEvent, hdb, List.drop_length]
    exact (List.append_nil _).symm
  · rw [newEvent, houtbox, List.drop_left]
    rfl

theorem reaches_stocked (h : ShopRuns options cfg tr s) : Stocked cfg s := by
  refine Run.history (fun _ s => Stocked cfg s) ⟨fun id => ?_, List.forall_mem_nil _⟩ ?_ h
  · exact iff_of_false (by simp [Shop.initial, Relay.initial, Outbox.initial, Relational.Table.empty])
      List.not_mem_nil
  intro tr s l s' hreach hs hstep
  have hlinked := reaches_linked (reaches_relay hreach) (purchaseCompletedLawful cfg)
  cases shopStep_moves hstep with
  | quiet l step none relay =>
    have houtbox := quiet_outbox (reaches_purchases hreach) step
    rw [none, Option.toList_none, List.append_nil] at houtbox
    refine ⟨fun id => ?_, fun event hevent => hs.own event (houtbox ▸ hevent)⟩
    rw [relay, houtbox]
    exact hs.rows id
  | commits l event step new own relay =>
    have houtbox := quiet_outbox (reaches_purchases hreach) step
    rw [new, Option.toList_some] at houtbox
    refine ⟨fun id => ?_, fun event' hevent' => ?_⟩
    · rw [relay_rows hlinked relay, hs.rows, houtbox, List.map_append, List.mem_append,
        List.map_singleton, List.mem_singleton, RelayLabel.commit.injEq, eq_comm (a := id)]
    · rw [houtbox] at hevent'
      rcases List.mem_append.mp hevent' with hold | hnew
      · exact hs.own event' hold
      · rw [List.mem_singleton.mp hnew]
        exact own
  | relays l uncommitted step purchases =>
    refine ⟨fun id => ?_, purchases ▸ hs.own⟩
    rw [relay_rows hlinked step, purchases, or_iff_left (uncommitted id)]
    exact hs.rows id

end Stocked

/-! ## Stats and purchases -/

def Shop.purchasesOf (s : Shop) (userId : String) : List Purchases.Purchase :=
  s.purchases.world.db.purchases.filter (·.userId = userId)

/-- What the user's stats should be. -/
def Shop.countersOf (s : Shop) (userId : String) : Loyalty.Counters :=
  ⟨(s.purchasesOf userId).length,
    ((s.purchasesOf userId).map fun row => row.amountKobo.val.toNat).sum⟩

/-- What an event says of its purchase. -/
def announced (cfg : Loyalty.Config) (eventId : ReadableId) : ReadableId × String × ℕ :=
  ((cfg.payload eventId).purchaseId, (cfg.payload eventId).userId, (cfg.payload eventId).amountKobo)

section Stats
variable {options : Outbox.OutboxModuleOptions} {cfg : Loyalty.Config} {s : Shop}
  {tr : List (Move Shop ShopLabel)}

theorem purchases_announced (h : ShopRuns options cfg tr s) :
    (s.purchases.world.db.outbox.map (·.id)).map (announced cfg) =
      s.purchases.world.db.purchases.map Purchases.Purchase.announcement := by
  rw [← Purchases.reaches_mirrored (reaches_purchases h), List.map_map]
  refine List.map_congr_left fun event hevent => ?_
  rw [Purchases.OutboxEvent.announcement, (reaches_stocked h).own event hevent]
  rfl

theorem eventIds_nodup (h : ShopRuns options cfg tr s) :
    (s.purchases.world.db.outbox.map (·.id)).Nodup := by
  have hids := (Purchases.reaches_consistent (reaches_purchases h)).purchaseIds
  have hsame := congrArg (List.map Prod.fst) (purchases_announced h)
  rw [List.map_map, List.map_map (g := Prod.fst)] at hsame
  refine List.Nodup.of_map (Prod.fst ∘ announced cfg) ?_
  rw [hsame]
  exact hids

/-- The events of a user's purchases, and what they amount to. -/
theorem purchasesOf_announced (h : ShopRuns options cfg tr s) (userId : String) :
    ((s.purchases.world.db.outbox.map (·.id)).filter fun id =>
        (cfg.payload id).userId = userId).map (announced cfg) =
      (s.purchasesOf userId).map Purchases.Purchase.announcement := by
  have hfilter : ∀ {α : Type} (f : α → ReadableId × String × ℕ) (xs : List α),
      (xs.map f).filter (·.2.1 = userId) = (xs.filter fun x => (f x).2.1 = userId).map f := by
    intro α f xs
    rw [List.filter_map]
    rfl
  have hsame := congrArg (List.filter (·.2.1 = userId)) (purchases_announced h)
  rw [hfilter, hfilter] at hsame
  exact hsame

/-- The user's stats, in what the committed events say. -/
theorem stats_announced (hcfg : cfg.OwnSnapshots) (h : ShopRuns options cfg tr s) (userId : String) :
    let counted := (Loyalty.commitsFor cfg s.relay.handler userId).map (announced cfg)
    s.relay.handler.world.db.purchaseCount userId = counted.length ∧
      s.relay.handler.world.db.totalSpendKobo userId = (counted.map (·.2.2)).sum := by
  have hrun := (reaches_handler (reaches_relay h) (purchaseCompletedLawful cfg)).1
  have hserial := Loyalty.reaches_serial hcfg hrun
  refine ⟨?_, ?_⟩
  · rw [List.length_map]
    exact hserial.purchaseCount userId
  · rw [List.map_map]
    exact hserial.totalSpendKobo userId

/-- What is committed is an event of a purchase. -/
theorem commits_subset (h : ShopRuns options cfg tr s) :
    s.relay.handler.world.commits ⊆ s.purchases.world.db.outbox.map (·.id) := fun id hid =>
  ((reaches_stocked h).rows id).mp (committed_row (reaches_relay h) hid)

/-- No delivery commits an event that another one has committed since its check. -/
def CommitsOnce (cfg : Loyalty.Config) (tr : List (Move Shop ShopLabel)) : Prop :=
  Guarded (fun s l => Loyalty.commitsOnce s l = true) (loyaltyMoves cfg (tr.filterMap relayMove))

theorem commits_nodup (hcfg : cfg.OwnSnapshots) (h : ShopRuns options cfg tr s)
    (honce : CommitsOnce cfg tr) : s.relay.handler.world.commits.Nodup :=
  (Loyalty.commits_nodup_iff hcfg
    (reaches_handler (reaches_relay h) (purchaseCompletedLawful cfg)).1).mpr honce

/-- A committed purchase has a row in the outbox that is not PUBLISHED yet; or it is counted, or the
server holds a message with its event, or that was dropped or lost. -/
theorem purchase_accounted (h : ShopRuns options cfg tr s) {row : Purchases.Purchase}
    (hrow : row ∈ s.purchases.world.db.purchases) :
    ∃ event ∈ s.purchases.world.db.outbox, event.announcement = row.announcement ∧
      ((∃ status, s.relay.outbox.world.statusOf event.id = some status ∧ status ≠ .published) ∨
        event.id ∈ s.relay.handler.world.commits ∨
        (∃ o, s.relay.fleet.Published o "loyalty.purchase-completed" (.json event.payload) ∧
          (s.relay.fleet.Holds o ∨ ∃ x ∈ tr.filterMap relayMove, Loses o x)) ∨
        ∃ x ∈ tr.filterMap relayMove, Drops (purchaseRelay options cfg) event.id x) := by
  have hstocked := reaches_stocked h
  have hannounced : row.announcement ∈
      s.purchases.world.db.outbox.map Purchases.OutboxEvent.announcement := by
    rw [Purchases.reaches_mirrored (reaches_purchases h)]
    exact List.mem_map_of_mem hrow
  obtain ⟨event, hevent, hsame⟩ := List.mem_map.mp hannounced
  refine ⟨event, hevent, hsame, ?_⟩
  obtain ⟨status, hstatus⟩ := Outbox.row_isSome.mp
    ((hstocked.rows event.id).mpr (List.mem_map_of_mem hevent))
  by_cases hpublished : status = .published
  · rw [hpublished] at hstatus
    rw [hstocked.own event hevent]
    rcases published_cases (reaches_relay h) (purchaseCompletedLawful cfg) hstatus with
      hdone | ⟨o, hmessage, hheld⟩ | hdropped | ⟨o, hmessage, hlost⟩
    · exact Or.inr (Or.inl hdone)
    · exact Or.inr (Or.inr (Or.inl ⟨o, hmessage, Or.inl hheld⟩))
    · exact Or.inr (Or.inr (Or.inr hdropped))
    · exact Or.inr (Or.inr (Or.inl ⟨o, hmessage, Or.inr hlost⟩))
  · exact Or.inl ⟨status, hstatus, hpublished⟩

/-- The user's committed events are of different purchases of the user. -/
theorem credited_le (hcfg : cfg.OwnSnapshots) (h : ShopRuns options cfg tr s)
    (honce : CommitsOnce cfg tr) (userId : String) :
    s.relay.handler.world.db.counters userId ≤ s.countersOf userId := by
  obtain ⟨hcount, htotal⟩ := stats_announced hcfg h userId
  have hsubperm := ((commits_nodup hcfg h honce).subperm (commits_subset h)).filter
    fun id => (cfg.payload id).userId = userId
  obtain ⟨kept, hperm, hsub⟩ := hsubperm
  have hannounced := purchasesOf_announced h userId
  have hle : (kept.map (announced cfg)).Sublist
      ((s.purchasesOf userId).map Purchases.Purchase.announcement) :=
    hannounced ▸ hsub.map (announced cfg)
  have hsame := hperm.map (announced cfg)
  refine ⟨?_, ?_⟩
  · rw [Loyalty.Database.counters, hcount, Loyalty.commitsFor, ← hsame.length_eq,
      Shop.countersOf, ← List.length_map Purchases.Purchase.announcement]
    exact hle.length_le
  · rw [Loyalty.Database.counters, htotal, Loyalty.commitsFor, ← (hsame.map (·.2.2)).sum_eq]
    have hsum := (hle.map (·.2.2)).sum_le_sum fun _ _ => Nat.zero_le _
    rwa [List.map_map (l := s.purchasesOf userId)] at hsum

/-- At the end the user's committed events are of all purchases of the user. -/
theorem credited_all (hcfg : cfg.OwnSnapshots) (h : ShopRuns options cfg tr s)
    (honce : CommitsOnce cfg tr)
    (hsafe : Guarded (fun r l => undisturbed (purchaseRelay options cfg) r l = true)
      (tr.filterMap relayMove))
    (hsettled : Settled s.relay) (userId : String) :
    s.relay.handler.world.db.counters userId = s.countersOf userId := by
  obtain ⟨hcount, htotal⟩ := stats_announced hcfg h userId
  have hall : ∀ id, id ∈ s.relay.handler.world.commits ↔
      id ∈ s.purchases.world.db.outbox.map (·.id) := fun id =>
    ⟨fun hid => commits_subset h hid, fun hid =>
      settled_done (reaches_relay h) (purchaseCompletedLawful cfg) hsafe hsettled
        (((reaches_stocked h).rows id).mpr hid) (purchase_routes options cfg id)⟩
  have hperm := (List.perm_ext_iff_of_nodup (commits_nodup hcfg h honce) (eventIds_nodup h)).mpr hall
  have hsame := (hperm.filter fun id => (cfg.payload id).userId = userId).map (announced cfg)
  rw [purchasesOf_announced h userId] at hsame
  rw [Loyalty.Database.counters, hcount, htotal, Loyalty.commitsFor, hsame.length_eq,
    (hsame.map (·.2.2)).sum_eq, List.length_map, List.map_map]
  rfl

/-- At any time, no user has been credited with more than the user's purchases. -/
theorem counted_le_purchased (hcfg : cfg.OwnSnapshots) (h : ShopRuns options cfg tr s)
    (honce : CommitsOnce cfg tr) (userId : String) :
    s.relay.handler.world.db.purchaseCount userId ≤ (s.purchasesOf userId).length ∧
      s.relay.handler.world.db.totalSpendKobo userId ≤
        ((s.purchasesOf userId).map fun row => row.amountKobo.val.toNat).sum :=
  credited_le hcfg h honce userId

/-- When nothing is on its way, every user has been credited with exactly the user's purchases. -/
theorem stats_eq_purchases (hcfg : cfg.OwnSnapshots) (h : ShopRuns options cfg tr s)
    (honce : CommitsOnce cfg tr)
    (hsafe : Guarded (fun r l => undisturbed (purchaseRelay options cfg) r l = true)
      (tr.filterMap relayMove))
    (hsettled : Settled s.relay) (userId : String) :
    s.relay.handler.world.db.purchaseCount userId = (s.purchasesOf userId).length ∧
      s.relay.handler.world.db.totalSpendKobo userId =
        ((s.purchasesOf userId).map fun row => row.amountKobo.val.toNat).sum := by
  have hall := credited_all hcfg h honce hsafe hsettled userId
  exact ⟨congrArg Loyalty.Counters.purchaseCount hall, congrArg Loyalty.Counters.totalSpendKobo hall⟩

end Stats

/-! ## Schedules -/

/-- Every event is of the first call's purchase. -/
def aminaConfig : Loyalty.Config :=
  { Loyalty.firstPurchaseConfig with
    payload := fun eventId => ⟨"usr_1", eventId - 1, 500000,
      Purchases.buildUserSnapshot Purchases.aminaPurchase⟩
    correlationId := fun _ => 0 }

/-- The event is published; the first delivery fails, and the second is handled. -/
def handlesSecond : List PurchaseLabel :=
  .outbox (.publishMany [1]) :: List.replicate 4 (.outbox (.run 0 .ok)) ++
    [.fleet (.run 0 (.deliver 0 0 0)), .handler (.run 0 .ok), .handler (.run 0 (.fails false)),
      .fleet (.run 0 (.service (.run 2 .fails))), .fleet (.expire 0 "loyalty.purchase-completed"),
      .fleet (.run 0 (.deliver 0 0 0))] ++ List.replicate 18 (.handler (.run 1 .ok)) ++
    [.fleet (.run 0 (.service (.run 3 .ok)))]

def shopSchedule : List ShopLabel :=
  (subscribes purchaseCompletedConsumer).map .relay ++
    (.call ⟨Purchases.aminaPurchase, 0, none⟩ :: Purchases.Label.oks 0 6).map .purchase ++
    handlesSecond.map .relay

/-- The run of the schedule, and where it ends. -/
theorem retried_run : ∃ tr s, ShopRuns ⟨10, 3⟩ aminaConfig tr s ∧ CommitsOnce aminaConfig tr ∧
    Guarded (fun r l => undisturbed (purchaseRelay ⟨10, 3⟩ aminaConfig) r l = true)
      (tr.filterMap relayMove) ∧ Settled s.relay ∧ (s.purchasesOf "usr_1").length = 1 ∧
    s.relay.handler.world.db.totalSpendKobo "usr_1" = 500000 := by
  obtain ⟨tr, s, h, hp⟩ := exists_run_of_trace (shopStep ⟨10, 3⟩ aminaConfig)
    (Shop.initial aminaConfig) shopSchedule (fun r =>
      let relay := r.1.filterMap relayMove
      (loyaltyMoves aminaConfig relay).all (fun x => Loyalty.commitsOnce x.source x.label) &&
      relay.all (fun x => undisturbed (purchaseRelay ⟨10, 3⟩ aminaConfig) x.source x.label) &&
      relay.all (fun x => x.label.alone) && r.2.relay.settled &&
      decide ((r.2.purchasesOf "usr_1").length = 1 ∧
        r.2.relay.handler.world.db.totalSpendKobo "usr_1" = 500000)) (by decide +kernel)
  simp only [Bool.and_eq_true, decide_eq_true_eq] at hp
  obtain ⟨⟨⟨⟨honce, hsafe⟩, halone⟩, hsettled⟩, hends⟩ := hp
  exact ⟨tr, s, h, guarded_of_all honce, guarded_of_all hsafe,
    settled_alone (reaches_relay h) (guarded_of_all halone) hsettled, hends⟩

theorem purchase_accounted_retried : ∃ tr s, ShopRuns ⟨10, 3⟩ aminaConfig tr s ∧
    ∃ row ∈ s.purchases.world.db.purchases, ∃ event ∈ s.purchases.world.db.outbox,
      event.announcement = row.announcement ∧
        (s.relay.outbox.world.statusOf event.id = some .published →
          event.id ∈ s.relay.handler.world.commits) := by
  obtain ⟨tr, s, h, -, hsafe, hsettled, hlength, -⟩ := retried_run
  obtain ⟨row, hrow⟩ := List.exists_mem_of_length_pos (hlength ▸ Nat.one_pos)
  have hmem := (List.mem_filter.mp hrow).1
  obtain ⟨event, hevent, hsame, hcase⟩ := purchase_accounted h hmem
  have hundisturbed := undisturbed_run (reaches_relay h) (purchaseCompletedLawful aminaConfig) hsafe
  refine ⟨tr, s, h, row, hmem, event, hevent, hsame, fun hpublished => ?_⟩
  rcases hcase with ⟨status, hstatus, hne⟩ | hdone | ⟨o, -, hheld | ⟨x, hx, hlost⟩⟩ | ⟨x, hx, hdropped⟩
  · exact absurd (Option.some.inj (hstatus.symm.trans hpublished)) hne
  · exact hdone
  · exact absurd hheld (hsettled.holds_nothing o)
  · exact absurd hlost ((hundisturbed x hx).2 o)
  · exact absurd hdropped ((hundisturbed x hx).1 event.id (purchase_routes _ _ _))

theorem counted_le_purchased_retried : ∃ tr s, ShopRuns ⟨10, 3⟩ aminaConfig tr s ∧
    s.relay.handler.world.db.totalSpendKobo "usr_1" = 500000 ∧
    s.relay.handler.world.db.purchaseCount "usr_1" ≤ (s.purchasesOf "usr_1").length := by
  obtain ⟨tr, s, h, honce, -, -, -, htotal⟩ := retried_run
  exact ⟨tr, s, h, htotal, (counted_le_purchased (fun _ => rfl) h honce "usr_1").1⟩

theorem stats_eq_purchases_retried : ∃ tr s, ShopRuns ⟨10, 3⟩ aminaConfig tr s ∧
    (s.purchasesOf "usr_1").length = 1 ∧ s.relay.handler.world.db.totalSpendKobo "usr_1" = 500000 ∧
    s.relay.handler.world.db.purchaseCount "usr_1" = (s.purchasesOf "usr_1").length := by
  obtain ⟨tr, s, h, honce, hsafe, hsettled, hlength, htotal⟩ := retried_run
  exact ⟨tr, s, h, hlength, htotal,
    (stats_eq_purchases (fun _ => rfl) h honce hsafe hsettled "usr_1").1⟩

end Bumpa.Delivery
