import Bumpa.Rewards.Services

/-! # Distinct badges are paid distinctly

The loyalty service knows a badge by its id, an event carries its name, and the cashback service has
one transaction for a user and a name. An operator may rename a badge and give its old name to
another one.

`badges_paid_distinctly`: every unlock leads to a transaction of its own with the reward its badge
had when it was selected, if no user is unlocked two badges under one name (`NamesApart`), and only
then, once every event is processed. An operator who gives a badge no name that another one has had
stays clear of it (`namesKept_apart`). `reused_name_unpaid` is a name that is reused.
-/
namespace Bumpa.Rewards
open Bumpa.Events Bumpa.Relational Bumpa.Transition
open Loyalty (BadgeConfig BadgeTable NamesUnique announcements)
open Cashback (MappedTo badgeOf rewardOf)
set_option autoImplicit false

/-- Every unlock event that is committed has been processed. -/
def State.allProcessed (s : State) : Bool :=
  s.loyalty.world.db.outbox.all fun row =>
    match row.payload with
    | .badge event => event.eventId ∈ s.cashback.world.db.processedEvents
    | .achievement _ => true

/-- No user is unlocked two badges that had one name when they were selected. -/
def NamesApart (tr : List (Move State Label)) (s : State) : Prop :=
  ∀ e e' event event' userId badge badge', s.announces tr e event userId badge →
    s.announces tr e' event' userId badge' → badge.name = badge'.name → badge.id = badge'.id

/-- Unlocks of different badges of a user are never handled with one transaction; and the event of
every unlock that is processed leads to one with the badge's reward when it was selected. -/
structure PaidDistinctly (tr : List (Move State Label)) (s : State) : Prop where
  distinct : ∀ e e' event event' userId badge badge' k, s.announces tr e event userId badge →
    s.announces tr e' event' userId badge' → badge.id ≠ badge'.id →
      MappedTo (tr.filterMap cashbackMove) event k → ¬ MappedTo (tr.filterMap cashbackMove) event' k
  paid : ∀ row ∈ s.loyalty.world.db.badges, ∃ e event badge,
    s.announces tr e event row.userId badge ∧ badge.id = row.badgeId ∧ Selects tr e badge ∧
      (event.eventId ∈ s.cashback.world.db.processedEvents → ∃ k t,
        MappedTo (tr.filterMap cashbackMove) event k ∧ s.cashback.world.row k = some t ∧
          t.badge = (row.userId, badge.name) ∧ t.amountKobo = badge.rewardAmountKobo)

theorem announced_processed {tr : List (Move State Label)} {s : State} {e : ℕ}
    {event : BadgeUnlockedEvent} {userId : String} {badge : BadgeConfig}
    (hall : s.allProcessed = true) (ha : s.announces tr e event userId badge) :
    event.eventId ∈ s.cashback.world.db.processedEvents := by
  obtain ⟨row, hrow, hpayload, _⟩ := ha
  have hprocessed := List.all_eq_true.mp hall row hrow
  rw [hpayload] at hprocessed
  exact of_decide_eq_true hprocessed

/-! ## What an event says -/

section Reaches
variable {cfg : Config} {tr : List (Move State Label)} {s : State} (h : Reaches cfg tr s)
include h

theorem announces_spec {e : ℕ} {event : BadgeUnlockedEvent} {userId : String} {badge : BadgeConfig}
    (ha : s.announces tr e event userId badge) :
    badgeOf event = (userId, badge.name) ∧
      event.payload.rewardAmountKobo = some badge.rewardAmountKobo ∧ Selects tr e badge ∧
      Saves tr e event.eventId userId badge := by
  obtain ⟨row, hrow, hpayload, hsaves⟩ := ha
  obtain ⟨e', badge', hsaves', hselects, hid, hname, hreward⟩ :=
    (reaches_executes h).2 row hrow event hpayload
  obtain ⟨rfl, rfl, rfl⟩ := saves_inj h hsaves hsaves'
  rw [badgeOf, hname, hid]
  exact ⟨rfl, hreward, hselects, hsaves⟩

theorem published_announces {event : BadgeUnlockedEvent} (hpub : s.published event = true) :
    ∃ e badge, s.announces tr e event event.payload.user.id badge := by
  obtain ⟨row, hrow, hpayload⟩ := published_iff.mp hpub
  obtain ⟨e, badge, hsaves, _⟩ := (reaches_executes h).2 row hrow event hpayload
  exact ⟨e, badge, row, hrow, hpayload, hsaves⟩

/-- A badge of a user is announced once. -/
theorem announces_inj {e e' : ℕ} {event event' : BadgeUnlockedEvent} {userId : String}
    {badge badge' : BadgeConfig} (ha : s.announces tr e event userId badge)
    (ha' : s.announces tr e' event' userId badge') (hid : badge.id = badge'.id) :
    event = event' := by
  obtain ⟨row, hrow, hpayload, hsaves⟩ := ha
  obtain ⟨row', hrow', hpayload', hsaves'⟩ := ha'
  have hunlock : row.unlock (announcements (tr.filterMap loyaltyMove)) =
      row'.unlock (announcements (tr.filterMap loyaltyMove)) := by
    rw [unlock_eq h hrow hsaves, unlock_eq h hrow' hsaves', hid]
  rw [committed_inj h hrow hrow' hunlock, hpayload'] at hpayload
  exact (Loyalty.UnlockEvent.badge.inj hpayload).symm

/-- Every badge that a user has is announced. -/
theorem badge_announced {row : Loyalty.UserBadge} (hrow : row ∈ s.loyalty.world.db.badges) :
    ∃ e event badge, s.announces tr e event row.userId badge ∧ badge.id = row.badgeId := by
  have hmem : row.unlock ∈ s.loyalty.world.db.unlocks :=
    List.mem_append_right _ (List.mem_map_of_mem hrow)
  obtain ⟨out, hout, hunlock⟩ := List.mem_map.mp
    ((reaches_announced h).committed.mem_iff.mpr (List.mem_map_of_mem hmem))
  obtain ⟨_, hannounces⟩ := Option.filter_eq_some_iff.mp hunlock
  cases hpayload : out.payload with
  | achievement event =>
    rw [hpayload] at hannounces
    cases hannounces
  | badge event =>
    obtain ⟨e, badge, hsaves, _⟩ := (reaches_executes h).2 out hout event hpayload
    have heq := (unlock_eq h hout hsaves).symm.trans hunlock
    rw [Option.some.injEq, Loyalty.UserBadge.unlock, Loyalty.Unlock.badge.injEq] at heq
    rw [← heq.1, ← heq.2]
    exact ⟨e, event, badge, ⟨out, hout, hpayload, hsaves⟩, rfl⟩

theorem announced_badge {e : ℕ} {event : BadgeUnlockedEvent} {userId : String} {badge : BadgeConfig}
    (ha : s.announces tr e event userId badge) :
    ∃ row ∈ s.loyalty.world.db.badges, row.userId = userId ∧ row.badgeId = badge.id := by
  obtain ⟨out, hout, _, hsaves⟩ := ha
  obtain ⟨u, hu, hunlock⟩ := List.mem_map.mp
    ((reaches_announced h).committed.mem_iff.mp (List.mem_map_of_mem hout))
  rw [unlock_eq h hout hsaves, Option.some.injEq] at hunlock
  subst hunlock
  rcases List.mem_append.mp hu with hachievement | hbadge
  · obtain ⟨_, _, heq⟩ := List.mem_map.mp hachievement
    cases heq
  · obtain ⟨row, hrow, heq⟩ := List.mem_map.mp hbadge
    rw [Loyalty.UserBadge.unlock, Loyalty.Unlock.badge.injEq] at heq
    exact ⟨row, hrow, heq⟩

/-- An event is known by its id. -/
theorem published_inj {event event' : BadgeUnlockedEvent} (hpub : s.published event = true)
    (hpub' : s.published event' = true) (hid : event.eventId = event'.eventId) : event = event' := by
  obtain ⟨e, badge, ha⟩ := published_announces h hpub
  obtain ⟨e', badge', ha'⟩ := published_announces h hpub'
  obtain ⟨_, _, _, hsaves⟩ := announces_spec h ha
  obtain ⟨_, _, _, hsaves'⟩ := announces_spec h ha'
  rw [hid] at hsaves
  obtain ⟨_, huser, rfl⟩ := saves_inj h hsaves hsaves'
  rw [huser] at ha
  exact announces_inj h ha ha' rfl

/-! ## The two directions -/

/-- The transaction of a processed event, when names are apart. -/
theorem processed_paid (hapart : NamesApart tr s) {e : ℕ} {event : BadgeUnlockedEvent}
    {userId : String} {badge : BadgeConfig} (ha : s.announces tr e event userId badge)
    (hprocessed : event.eventId ∈ s.cashback.world.db.processedEvents) :
    ∃ k t, MappedTo (tr.filterMap cashbackMove) event k ∧ s.cashback.world.row k = some t ∧
      t.badge = (userId, badge.name) ∧ t.amountKobo = badge.rewardAmountKobo := by
  obtain ⟨hbadge, hreward, _, _⟩ := announces_spec h ha
  have hc := Cashback.reaches_handlesEvents (reaches_cashback h)
  have hpublished : s.published event = true :=
    published_iff.mpr (ha.imp fun _ hrow => ⟨hrow.1, hrow.2.1⟩)
  obtain ⟨marked, k, hid, hmapped, hsome⟩ := hc.processed _ hprocessed
  obtain ⟨hdelivered, hagrees⟩ := hc.mapped marked k hmapped
  obtain rfl := published_inj h (delivered_published h _ hdelivered) hpublished hid
  obtain ⟨t, ht⟩ := Option.isSome_iff_exists.mp hsome
  have htbadge := hagrees.2 _ (Or.inl (Cashback.badgeOf_of_row ht))
  -- the event that created the row has the same name, so it is the same one
  obtain ⟨creator, hcreator, hsame, hamount⟩ := hc.rows k t ht
  obtain ⟨e', badge', ha'⟩ := published_announces h (delivered_published h _ hcreator)
  obtain ⟨hbadge', _, _, _⟩ := announces_spec h ha'
  have hnames : (creator.payload.user.id, badge'.name) = (userId, badge.name) := by
    rw [← hbadge', ← hsame, htbadge, hbadge]
  obtain ⟨huser, hname⟩ := Prod.mk.inj hnames
  rw [huser] at ha'
  obtain rfl := announces_inj h ha' ha (hapart _ _ _ _ _ _ _ ha' ha hname)
  refine ⟨k, t, hmapped, ht, htbadge.trans hbadge, ?_⟩
  rw [hamount, rewardOf, hreward, Option.getD_some]

theorem apart_paid (hapart : NamesApart tr s) : PaidDistinctly tr s := by
  refine ⟨fun e e' event event' userId badge badge' k ha ha' hne hm hm' => hne ?_,
    fun row hrow => ?_⟩
  · have hc := Cashback.reaches_handlesEvents (reaches_cashback h)
    have hsame := hc.alike event event' k hm hm'
    rw [(announces_spec h ha).1, (announces_spec h ha').1] at hsame
    exact hapart _ _ _ _ _ _ _ ha ha' (Prod.mk.inj hsame).2
  · obtain ⟨e, event, badge, ha, hid⟩ := badge_announced h hrow
    exact ⟨e, event, badge, ha, hid, (announces_spec h ha).2.2.1, processed_paid h hapart ha⟩

/-- The transaction that an unlock leads to. -/
theorem paid_transaction (hall : s.allProcessed = true) (hpaid : PaidDistinctly tr s) {e : ℕ}
    {event : BadgeUnlockedEvent} {userId : String} {badge : BadgeConfig}
    (ha : s.announces tr e event userId badge) :
    ∃ k t, MappedTo (tr.filterMap cashbackMove) event k ∧ s.cashback.world.row k = some t ∧
      t.badge = (userId, badge.name) := by
  have hbadge := (announces_spec h ha).1
  obtain ⟨row, hrow, rfl, hid⟩ := announced_badge h ha
  obtain ⟨e', event', badge', ha', hid', _, himp⟩ := hpaid.paid row hrow
  obtain rfl := announces_inj h ha' ha (hid'.trans hid)
  have hsame := (announces_spec h ha').1.symm.trans hbadge
  obtain ⟨k, t, hmapped, ht, htbadge, _⟩ := himp (announced_processed hall ha)
  exact ⟨k, t, hmapped, ht, htbadge.trans hsame⟩

theorem paid_apart (hall : s.allProcessed = true) (hpaid : PaidDistinctly tr s) :
    NamesApart tr s := by
  intro e e' event event' userId badge badge' ha ha' hname
  by_contra hne
  obtain ⟨k, t, hmapped, ht, hbadge⟩ := paid_transaction h hall hpaid ha
  obtain ⟨k', t', hmapped', ht', hbadge'⟩ := paid_transaction h hall hpaid ha'
  have hrows := Cashback.reaches_badgeRows (reaches_cashback h)
  have hk : k = k' := hrows.unique k k' t.badge (Cashback.badgeOf_of_row ht) (by
    rw [Cashback.badgeOf_of_row ht', hbadge, hbadge', hname])
  subst hk
  exact hpaid.distinct _ _ _ _ _ _ _ k ha ha' hne hmapped hmapped'

/-! ## Names that are kept -/

/-- A row of the badge table, at the start or after a move. -/
def Stood (cfg : Config) (tr : List (Move State Label)) (badge : BadgeConfig) : Prop :=
  ∃ badges ∈ cfg.badges :: tr.map (·.target.badges), badges.row badge.id = some badge

/-- No badge has ever been given a name that another one has had. -/
def NamesKept (cfg : Config) (tr : List (Move State Label)) : Prop :=
  ∀ badge badge', Stood cfg tr badge → Stood cfg tr badge' → badge.name = badge'.name →
    badge.id = badge'.id

theorem selects_stood {e : ℕ} {badge : BadgeConfig} (hselects : Selects tr e badge) :
    Stood cfg tr badge := by
  obtain ⟨x, hx, _, _, hrow⟩ := hselects
  refine ⟨x.source.badges, ?_, hrow⟩
  have hmem := List.mem_map_of_mem (f := State.badges) (h.source_mem.2 x hx)
  rwa [List.map_cons, List.map_map] at hmem

theorem namesKept_apart (hkept : NamesKept cfg tr) : NamesApart tr s :=
  fun _ _ _ _ _ badge badge' ha ha' hname => hkept badge badge'
    (selects_stood h (announces_spec h ha).2.2.1) (selects_stood h (announces_spec h ha').2.2.1) hname

end Reaches

/-- In every run, unlocks are paid distinctly if no user is unlocked two badges under one name; and
only then, when every unlock event that is committed has been processed. -/
theorem badges_paid_distinctly {cfg : Config} {tr : List (Move State Label)} {s : State}
    (h : Reaches cfg tr s) : (NamesApart tr s → PaidDistinctly tr s) ∧
      (s.allProcessed = true → PaidDistinctly tr s → NamesApart tr s) :=
  ⟨apart_paid h, paid_apart h⟩

/-! ## Schedules -/

def bronze : BadgeConfig := ⟨"bdg_bronze", "Bronze", 1, 1, ["ach_first_purchase"], 30000, "NGN", true⟩

/-- A badge that the first purchase does not find yet. -/
def secondBadge (id name : String) : BadgeConfig := ⟨id, name, 2, 1, [], 50000, "NGN", true⟩

def bronzeTable : BadgeTable := Table.empty.put bronze

theorem bronzeTable_namesUnique : NamesUnique bronzeTable := by
  intro id id' badge badge' hrow hrow' _
  rw [bronzeTable, Table.put_row] at hrow hrow'
  split at hrow
  · next hid =>
    split at hrow'
    · next hid' => rw [hid, hid']
    · cases hrow'
  · cases hrow

def bronzeConfig : Config where
  loyalty := Loyalty.firstPurchaseConfig
  cashback := Cashback.paystackConfig
  badges := bronzeTable
  namesUnique := bronzeTable_namesUnique
  ownSnapshots := Loyalty.firstPurchase_ownSnapshots

def unlockEvent (purchase : ReadableId) (badge : BadgeConfig) (id : ReadableId) :
    BadgeUnlockedEvent :=
  Loyalty.badgeEvent (Loyalty.firstPurchaseConfig.event purchase) badge id

/-- The first purchase unlocks Bronze, which is renamed; the second one unlocks a badge created
since; and both events are handled. -/
def twoUnlocks (id name : String) : List Label :=
  (Loyalty.Label.deliver 0 :: Loyalty.Label.oks 0 18).map .loyalty ++
    [.updateBadge "bdg_bronze"
        ⟨.value "Bronze Legacy", .absent, .absent, .absent, .absent, .absent, .absent⟩,
      .createBadge ⟨id, name, 2, 1, none, some 50000, none, none⟩] ++
    (Loyalty.Label.deliver 1 :: Loyalty.Label.oks 1 16).map .loyalty ++
    .deliver (unlockEvent 0 bronze 3) :: (Cashback.Label.oks 0 7).map .cashback ++
    .deliver (unlockEvent 1 (secondBadge id name) 5) :: (Cashback.Label.oks 1 7).map .cashback

theorem namesKept_of_all {cfg : Config} {tr : List (Move State Label)}
    {names : List (String × String)} (hnames : ∀ a ∈ names, ∀ b ∈ names, a.2 = b.2 → a.1 = b.1)
    (hall : ((cfg.badges :: tr.map (·.target.badges)).all fun badges =>
      badges.rows.all fun badge => (badge.id, badge.name) ∈ names) = true) : NamesKept cfg tr := by
  have hlisted : ∀ badge, Stood cfg tr badge → (badge.id, badge.name) ∈ names := by
    rintro badge ⟨badges, hbadges, hrow⟩
    exact of_decide_eq_true (List.all_eq_true.mp (List.all_eq_true.mp hall badges hbadges) badge
      (Table.mem_rows.mpr hrow))
  exact fun badge badge' hstood hstood' => hnames _ (hlisted badge hstood) _ (hlisted badge' hstood')

/-- The new badge is called Silver. -/
theorem badges_paid_distinctly_renamed : ∃ tr s, Reaches bronzeConfig tr s ∧
    NamesKept bronzeConfig tr ∧ s.allProcessed = true ∧
    s.loyalty.world.db.badges = [⟨2, "usr", "bdg_bronze"⟩, ⟨4, "usr", "bdg_silver"⟩] ∧
    PaidDistinctly tr s := by
  obtain ⟨tr, s, h, hp⟩ := exists_run_of_trace (step bronzeConfig) (initial bronzeConfig)
    (twoUnlocks "bdg_silver" "Silver")
    (fun r => r.2.allProcessed &&
      decide (r.2.loyalty.world.db.badges = [⟨2, "usr", "bdg_bronze"⟩, ⟨4, "usr", "bdg_silver"⟩]) &&
      (bronzeConfig.badges :: r.1.map (·.target.badges)).all fun badges => badges.rows.all fun badge =>
        (badge.id, badge.name) ∈ [("bdg_bronze", "Bronze"), ("bdg_bronze", "Bronze Legacy"),
          ("bdg_silver", "Silver")]) (by decide +kernel)
  simp only [Bool.and_eq_true] at hp
  obtain ⟨⟨hall, hbadges⟩, hnames⟩ := hp
  have hkept : NamesKept bronzeConfig tr := namesKept_of_all (by decide) hnames
  exact ⟨tr, s, h, hkept, hall, of_decide_eq_true hbadges,
    (badges_paid_distinctly h).1 (namesKept_apart h hkept)⟩

/-- The new badge is called Bronze; its reward of 50000 is never paid. -/
theorem reused_name_unpaid : ∃ tr s, Reaches bronzeConfig tr s ∧ s.allProcessed = true ∧
    s.loyalty.world.db.badges = [⟨2, "usr", "bdg_bronze"⟩, ⟨4, "usr", "bdg_bronze_2"⟩] ∧
    (s.cashback.world.db.transactions.rows.map fun t => (t.id, t.badge, t.amountKobo)) =
      [(0, ("usr", "Bronze"), 30000)] ∧ ¬ PaidDistinctly tr s := by
  obtain ⟨tr, s, h, hp⟩ := exists_run_of_trace (step bronzeConfig) (initial bronzeConfig)
    (twoUnlocks "bdg_bronze_2" "Bronze")
    (fun r => r.2.allProcessed && decide (
      r.2.loyalty.world.db.badges = [⟨2, "usr", "bdg_bronze"⟩, ⟨4, "usr", "bdg_bronze_2"⟩] ∧
      (r.2.cashback.world.db.transactions.rows.map fun t => (t.id, t.badge, t.amountKobo)) =
        [(0, ("usr", "Bronze"), 30000)])) (by decide +kernel)
  rw [Bool.and_eq_true, decide_eq_true_eq] at hp
  obtain ⟨hall, hbadges, hrows⟩ := hp
  refine ⟨tr, s, h, hall, hbadges, hrows, fun hpaid => ?_⟩
  have honly : ∀ k t, s.cashback.world.row k = some t → k = 0 := by
    intro k t ht
    have hid : t.id = k := s.cashback.world.db.transactions.key_eq ht
    have hmem := List.mem_map_of_mem (f := fun t => (t.id, t.badge, t.amountKobo))
      (Table.mem_rows.mpr (hid ▸ ht))
    rw [hrows, List.mem_singleton, Prod.mk.injEq] at hmem
    exact hid.symm.trans hmem.1
  obtain ⟨e, event, badge, ha, hid, _, himp⟩ :=
    hpaid.paid ⟨2, "usr", "bdg_bronze"⟩ (by rw [hbadges]; exact .head _)
  obtain ⟨e', event', badge', ha', hid', _, himp'⟩ :=
    hpaid.paid ⟨4, "usr", "bdg_bronze_2"⟩ (by rw [hbadges]; exact .tail _ (.head _))
  obtain ⟨k, t, hmapped, ht, _⟩ := himp (announced_processed hall ha)
  obtain ⟨k', t', hmapped', ht', _⟩ := himp' (announced_processed hall ha')
  rw [honly k t ht] at hmapped
  rw [honly k' t' ht'] at hmapped'
  exact hpaid.distinct _ _ _ _ _ _ _ 0 ha ha' (by rw [hid, hid']; decide) hmapped hmapped'

end Bumpa.Rewards
