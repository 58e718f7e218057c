import Bumpa.Loyalty.ExactlyOnce
import Bumpa.Loyalty.Sequential
import Bumpa.Order.Greedy
import Mathlib.Algebra.BigOperators.Group.Finset.Basic
import Mathlib.Algebra.Order.BigOperators.Group.Finset

/-! # The order of purchases

Achievements are unlocked at intermediate stats and feed later rules and badges. What the counted
purchases lead to can still be said without their order (`Accrues`): the stats add up, the
achievements are the saturation of the initial ones under the rules at the final stats, and the
badges are those whose requirement the final achievements meet. `Accrues.trans` composes it by
`saturation_resume`, since rules and requirements are monotone.

Which purchases are counted may depend on the order, as each is counted if the columns of the stats
still take it (`foldl_purchase_accrues`). `purchase_order_irrelevant_iff`: all orders leave every
user with the same stats, achievements and badges exactly if all maximal collections that fit the
columns have the same number and the same sum. `purchase_order_matters`: two large purchases of
different amounts do not.
-/
namespace Bumpa.Loyalty
open Bumpa.Events Bumpa.Relational Bumpa.Transition Bumpa.Order
set_option autoImplicit false

def Database.counters (db : Database) (userId : String) : Counters :=
  ⟨db.purchaseCount userId, db.totalSpendKobo userId⟩

def Database.hasEarned (db : Database) (userId : String) (badge : BadgeConfig) : Prop :=
  meetsBadgeRequirement badge (db.achievementIds userId).length (db.achievementIds userId) = true

/-- Two databases that agree on a user. -/
structure Database.SameFor (userId : String) (db db' : Database) : Prop where
  stats : db'.stats.row userId = db.stats.row userId
  achievements : db'.achievementIds userId = db.achievementIds userId
  badges : db'.badgeIds userId = db.badgeIds userId

/-- What these purchases of a user, at least one, make of a database. -/
structure Accrues (cfg : Config) (userId : String) (eventIds : List ReadableId)
    (db db' : Database) : Prop where
  stats : db'.stats.row userId = some ⟨userId, db.purchaseCount userId + eventIds.length,
    db.totalSpendKobo userId + (eventIds.map fun eventId => (cfg.payload eventId).amountKobo).sum⟩
  kept : ∃ unlocked, db'.achievementIds userId = db.achievementIds userId ++ unlocked ∧
    unlocked.Nodup ∧ ∀ id ∈ unlocked, id ∉ db.achievementIds userId
  achievements : idSet (db'.achievementIds userId) =
    saturation (unlocks (db'.counters userId) cfg.activeAchievements)
      (idSet (db.achievementIds userId))
  badges : ∀ id, id ∈ db'.badgeIds userId ↔ id ∈ db.badgeIds userId ∨
    ∃ badge ∈ cfg.activeBadges, badge.id = id ∧ db'.hasEarned userId badge

theorem meetsBadgeRequirement_mono {badge : BadgeConfig} {ids ids' : List String}
    (hlength : ids.length ≤ ids'.length) (hsub : ids ⊆ ids')
    (h : meetsBadgeRequirement badge ids.length ids = true) :
    meetsBadgeRequirement badge ids'.length ids' = true := by
  simp only [meetsBadgeRequirement, Bool.and_eq_true, decide_eq_true_eq, List.all_eq_true] at h ⊢
  exact ⟨h.1.trans hlength, fun id hid => hsub (h.2 id hid)⟩

section Accrual
variable {cfg : Config} {userId : String} {eventId : ReadableId}
  {eventIds eventIds' : List ReadableId} {db db' db'' : Database}

theorem Accrues.counters (h : Accrues cfg userId eventIds db db') :
    db'.purchaseCount userId = db.purchaseCount userId + eventIds.length ∧
      db'.totalSpendKobo userId = db.totalSpendKobo userId +
        (eventIds.map fun eventId => (cfg.payload eventId).amountKobo).sum := by
  rw [Database.purchaseCount, Database.totalSpendKobo, h.stats]
  exact ⟨rfl, rfl⟩

theorem Accrues.trans (h : Accrues cfg userId eventIds db db')
    (h' : Accrues cfg userId eventIds' db' db'') :
    Accrues cfg userId (eventIds ++ eventIds') db db'' := by
  obtain ⟨hcount, htotal⟩ := h.counters
  obtain ⟨hcount', htotal'⟩ := h'.counters
  obtain ⟨unlocked, hids, hnodup, hnew⟩ := h.kept
  obtain ⟨unlocked', hids', hnodup', hnew'⟩ := h'.kept
  have hle : db'.counters userId ≤ db''.counters userId :=
    ⟨by rw [Database.counters, Database.counters, hcount']; exact Nat.le_add_right _ _,
      by rw [Database.counters, Database.counters, htotal']; exact Nat.le_add_right _ _⟩
  have hsub : idSet (db.achievementIds userId) ≤ idSet (db'.achievementIds userId) := by
    intro id hid
    rw [hids]
    exact List.mem_append_left _ hid
  refine ⟨?_, ⟨unlocked ++ unlocked', ?_, ?_, ?_⟩, ?_, fun id => ?_⟩
  · rw [h'.stats, hcount, htotal, List.length_append, List.map_append, List.sum_append,
      Nat.add_assoc, Nat.add_assoc]
  · rw [hids', hids, List.append_assoc]
  · refine List.nodup_append'.mpr ⟨hnodup, hnodup', fun id hid hid' => hnew' id hid' ?_⟩
    rw [hids]
    exact List.mem_append_right _ hid
  · intro id hid
    rcases List.mem_append.mp hid with hfirst | hsecond
    · exact hnew id hfirst
    · intro hold
      exact hnew' id hsecond (hsub hold)
  · rw [h'.achievements]
    exact saturation_resume (unlocks_mono hle _) hsub (le_of_eq h.achievements)
  · rw [h'.badges, h.badges, or_assoc]
    refine or_congr_right ⟨?_, Or.inr⟩
    rintro (⟨badge, hmem, hid, hearned⟩ | hlast)
    · refine ⟨badge, hmem, hid, meetsBadgeRequirement_mono ?_ ?_ hearned⟩
      · rw [hids', List.length_append]
        exact Nat.le_add_right _ _
      · rw [hids']
        exact List.subset_append_left _ _
    · exact hlast

/-- Of the purchases only their number and their sum occur in what they accrue to. -/
theorem Accrues.unique (h : Accrues cfg userId eventIds db db')
    (h' : Accrues cfg userId eventIds' db db'') (hlength : eventIds.length = eventIds'.length)
    (hsum : (eventIds.map fun eventId => (cfg.payload eventId).amountKobo).sum =
      (eventIds'.map fun eventId => (cfg.payload eventId).amountKobo).sum) :
    db'.stats.row userId = db''.stats.row userId ∧
      (∀ id, id ∈ db'.achievementIds userId ↔ id ∈ db''.achievementIds userId) ∧
      ∀ id, id ∈ db'.badgeIds userId ↔ id ∈ db''.badgeIds userId := by
  have hstats : db'.stats.row userId = db''.stats.row userId := by
    rw [h.stats, h'.stats, hlength, hsum]
  have hcounters : db'.counters userId = db''.counters userId := by
    simp only [Database.counters, Database.purchaseCount, Database.totalSpendKobo, hstats]
  have hset : ∀ id, id ∈ db'.achievementIds userId ↔ id ∈ db''.achievementIds userId := by
    intro id
    have hsame := h'.achievements
    rw [← hcounters, ← h.achievements] at hsame
    exact (Set.ext_iff.mp hsame id).symm
  have hlength : (db'.achievementIds userId).length = (db''.achievementIds userId).length := by
    obtain ⟨unlocked, hids, hnodup, hnew⟩ := h.kept
    obtain ⟨unlocked', hids', hnodup', hnew'⟩ := h'.kept
    rw [hids, hids'] at hset ⊢
    have hunlocked : unlocked.Perm unlocked' := by
      refine (List.perm_ext_iff_of_nodup hnodup hnodup').mpr fun id => ?_
      have hiff := hset id
      rw [List.mem_append, List.mem_append] at hiff
      constructor
      · intro hid
        exact (hiff.mp (Or.inr hid)).resolve_left (hnew id hid)
      · intro hid
        exact (hiff.mpr (Or.inr hid)).resolve_left (hnew' id hid)
    rw [List.length_append, List.length_append, hunlocked.length_eq]
  have hearned : ∀ badge, db'.hasEarned userId badge ↔ db''.hasEarned userId badge := by
    intro badge
    constructor
    · exact meetsBadgeRequirement_mono hlength.le fun id hid => (hset id).mp hid
    · exact meetsBadgeRequirement_mono hlength.ge fun id hid => (hset id).mpr hid
  refine ⟨hstats, hset, fun id => ?_⟩
  simp only [h.badges, h'.badges, hearned]

/-! ## One purchase -/

theorem countPurchase_eq (db : Database) (payload : PurchaseCompletedPayload) :
    countPurchase db payload = ⟨payload.userId, db.purchaseCount payload.userId + 1,
      db.totalSpendKobo payload.userId + payload.amountKobo⟩ := by
  simp only [countPurchase, Database.purchaseCount, Database.totalSpendKobo]
  cases hrow : db.stats.row payload.userId with
  | none => rfl
  | some row =>
    rw [← db.stats.key_eq hrow]
    rfl

theorem purchaseTx_wrote (cfg : Config) (db : Database) (event : PurchaseCompletedEvent) :
    (purchaseTx cfg db event).Wrote db event (newAchievements cfg db event)
      (newAchievements cfg db event) (newBadges cfg db event) (newBadges cfg db event) where
  projection := rfl
  achievements := congrArg Tx.achievements (purchaseTx_anonymous cfg db event)
  badges := congrArg Tx.badges (purchaseTx_anonymous cfg db event)
  outbox := congrArg Tx.outbox (purchaseTx_anonymous cfg db event)

theorem purchaseTx_accrues (hcfg : cfg.Keyed) (db : Database) {eventId : ReadableId}
    (huser : (cfg.payload eventId).userId = userId) :
    Accrues cfg userId [eventId] db ((purchaseTx cfg db (cfg.event eventId)).view db) := by
  subst huser
  have hids := activeAchievements_nodup hcfg
  have htx : (purchaseTx cfg db (cfg.event eventId)).stats =
      some (countPurchase db (cfg.event eventId).payload) := rfl
  have hstats := (view_stats_row htx (cfg.payload eventId).userId).trans (if_pos rfl)
  have hcounters : ((purchaseTx cfg db (cfg.event eventId)).view db).counters
      (cfg.payload eventId).userId = (countPurchase db (cfg.payload eventId)).counters := by
    simp only [Database.counters, Database.purchaseCount, Database.totalSpendKobo, hstats]
    rfl
  have hachievements : ((purchaseTx cfg db (cfg.event eventId)).view db).achievementIds
      (cfg.payload eventId).userId = achievementIdsAfter cfg db (cfg.event eventId) :=
    (purchaseTx_wrote cfg db (cfg.event eventId)).achievementIds
  have hbadges : ((purchaseTx cfg db (cfg.event eventId)).view db).badgeIds
      (cfg.payload eventId).userId = db.badgeIds (cfg.payload eventId).userId ++
        (newBadges cfg db (cfg.event eventId)).map (·.id) :=
    (purchaseTx_wrote cfg db (cfg.event eventId)).badgeIds
  refine ⟨?_, ⟨_, hachievements, unlockAchievements_new _ hids _⟩, ?_, fun id => ?_⟩
  · rw [hstats, countPurchase_eq]
    rfl
  · rw [hachievements, hcounters]
    exact unlockAchievements_saturation _ hids _
  · rw [hbadges, List.mem_append]
    simp only [Database.hasEarned, hachievements]
    constructor
    · rintro (hold | hbadge)
      · exact Or.inl hold
      · obtain ⟨badge, hmem, rfl⟩ := List.mem_map.mp hbadge
        obtain ⟨hactive, hearned⟩ := List.mem_filter.mp hmem
        rw [Bool.and_eq_true] at hearned
        exact Or.inr ⟨badge, hactive, rfl, hearned.2⟩
    · rintro (hold | ⟨badge, hactive, rfl, hearned⟩)
      · exact Or.inl hold
      · by_cases hhas : badge.id ∈ db.badgeIds (cfg.payload eventId).userId
        · exact Or.inl hhas
        · refine Or.inr (List.mem_map_of_mem (List.mem_filter.mpr ⟨hactive, ?_⟩))
          rw [Bool.and_eq_true, decide_eq_true_eq]
          exact ⟨hhas, hearned⟩

theorem purchase_other (cfg : Config) (db : Database) {eventId : ReadableId}
    (hne : (cfg.payload eventId).userId ≠ userId) :
    db.SameFor userId (purchase cfg db eventId) := by
  rw [purchase]
  split
  · exact ⟨rfl, rfl, rfl⟩
  · have hother := (purchaseTx_wrote cfg db (cfg.event eventId)).other hne.symm
    exact ⟨(view_stats_row rfl userId).trans (if_neg hne.symm), hother.1, hother.2⟩

/-! ## Purchases one after another -/

theorem Database.SameFor.trans (h : db.SameFor userId db') (h' : db'.SameFor userId db'') :
    db.SameFor userId db'' :=
  ⟨h'.stats.trans h.stats, h'.achievements.trans h.achievements, h'.badges.trans h.badges⟩

theorem Database.SameFor.accrues (h : db.SameFor userId db')
    (h' : Accrues cfg userId eventIds db' db'') : Accrues cfg userId eventIds db db'' := by
  obtain ⟨hstats, hkept, hachievements, hbadges⟩ := h'
  simp only [Database.purchaseCount, Database.totalSpendKobo, h.stats] at hstats
  simp only [h.achievements] at hkept hachievements
  simp only [h.badges] at hbadges
  exact ⟨hstats, hkept, hachievements, hbadges⟩

theorem Accrues.same (h : Accrues cfg userId eventIds db db') (h' : db'.SameFor userId db'') :
    Accrues cfg userId eventIds db db'' := by
  refine ⟨h'.stats.trans h.stats, ?_, ?_, ?_⟩
  · rw [h'.achievements]
    exact h.kept
  · simp only [Database.counters, Database.purchaseCount, Database.totalSpendKobo, h'.stats,
      h'.achievements]
    exact h.achievements
  · simp only [Database.hasEarned, h'.achievements, h'.badges]
    exact h.badges

/-- The events of a user that are handled for the first time. -/
def pending (cfg : Config) (db : Database) (userId : String) (eventIds : List ReadableId) :
    List ReadableId :=
  eventIds.filter fun eventId => eventId ∉ db.processed ∧ (cfg.payload eventId).userId = userId

theorem purchase_counted (hnew : eventId ∉ db.processed)
    (hfits : db.Countable (cfg.payload eventId)) :
    purchase cfg db eventId = (purchaseTx cfg db (cfg.event eventId)).view db :=
  if_neg (not_or.mpr ⟨hnew, not_not_intro hfits⟩)

theorem purchase_processed (hnew : eventId ∉ db.processed)
    (hfits : db.Countable (cfg.payload eventId)) :
    (purchase cfg db eventId).processed = db.processed ++ [eventId] := by
  rw [purchase_counted hnew hfits, Tx.view, purchaseTx, marker]
  exact congrArg (fun processed => db.processed ++ Option.toList processed) (if_neg hnew)

theorem mem_purchase_processed {eventId' : ReadableId} :
    eventId' ∈ (purchase cfg db eventId).processed ↔ eventId' ∈ db.processed ∨
      (eventId' = eventId ∧ db.Countable (cfg.payload eventId)) := by
  by_cases hdone : eventId ∈ db.processed
  · rw [purchase, if_pos (Or.inl hdone)]
    exact ⟨Or.inl, fun h => h.elim id fun heq => heq.1 ▸ hdone⟩
  by_cases hfits : db.Countable (cfg.payload eventId)
  · rw [purchase_processed hdone hfits, List.mem_append, List.mem_singleton, and_iff_left hfits]
  · rw [purchase, if_pos (Or.inr hfits)]
    exact ⟨Or.inl, fun h => h.elim id fun heq => absurd heq.2 hfits⟩

theorem foldl_purchase_processed (hmem : eventId ∈ (eventIds.foldl (purchase cfg) db).processed) :
    eventId ∈ db.processed ∨ eventId ∈ eventIds := by
  induction eventIds generalizing db with
  | nil => exact Or.inl hmem
  | cons first rest ih =>
    rcases ih hmem with hfirst | hrest
    · refine (mem_purchase_processed.mp hfirst).imp_right ?_
      rintro ⟨rfl, -⟩
      exact List.mem_cons_self
    · exact Or.inr (List.mem_cons_of_mem first hrest)

theorem processed_foldl_purchase (hmem : eventId ∈ db.processed) :
    eventId ∈ (eventIds.foldl (purchase cfg) db).processed := by
  induction eventIds generalizing db with
  | nil => exact hmem
  | cons first rest ih => exact ih (mem_purchase_processed.mpr (Or.inl hmem))

/-! ## What the columns of the stats take -/

theorem countable_iff {payload : PurchaseCompletedPayload} (h : 1 ≤ payload.amountKobo) :
    db.Countable payload ↔ Int4.Fits ↑(db.purchaseCount payload.userId + 1) ∧
      Int4.Fits ↑(db.totalSpendKobo payload.userId + payload.amountKobo) := by
  have hset : (db.stats.row payload.userId).all
        (·.purchaseCount ≠ db.purchaseCount payload.userId + 1) = true ∧
      (db.stats.row payload.userId).all
        (·.totalSpendKobo ≠ db.totalSpendKobo payload.userId + payload.amountKobo) = true := by
    cases hrow : db.stats.row payload.userId with
    | none => exact ⟨rfl, rfl⟩
    | some row =>
      simp only [Database.purchaseCount, Database.totalSpendKobo, hrow, Option.all_some,
        Option.map_some, Option.getD_some, decide_eq_true_eq]
      omega
  rw [Database.Countable, countPurchase_eq, UserStats.outOfRange, hset.1, hset.2]
  simp only [Bool.true_and, Bool.or_eq_false_iff, Bool.not_eq_false', decide_eq_true_eq]

/-- The columns of the user's stats take all of these events. -/
def FitTogether (cfg : Config) (db : Database) (userId : String) (taken : Finset ReadableId) : Prop :=
  taken.Nonempty → Int4.Fits ↑(db.purchaseCount userId + taken.card) ∧
    Int4.Fits ↑(db.totalSpendKobo userId + ∑ eventId ∈ taken, (cfg.payload eventId).amountKobo)

instance (cfg : Config) (db : Database) (userId : String) :
    DecidablePred (FitTogether cfg db userId) := fun _ => inferInstanceAs (Decidable (_ → _))

theorem fitTogether_empty (cfg : Config) (db : Database) (userId : String) :
    FitTogether cfg db userId ∅ := fun hsome => absurd hsome Finset.not_nonempty_empty

theorem fitTogether_lower (cfg : Config) (db : Database) (userId : String) :
    IsLowerSet {taken | FitTogether cfg db userId taken} := by
  intro taken fewer hsub hfits hsome
  obtain ⟨hcount, htotal⟩ := hfits (hsome.mono hsub)
  rw [Int4.fits_natCast_iff] at hcount htotal ⊢
  rw [Int4.fits_natCast_iff]
  have hcard : fewer.card ≤ taken.card := Finset.card_le_card hsub
  have hsum : ∑ eventId ∈ fewer, (cfg.payload eventId).amountKobo ≤
      ∑ eventId ∈ taken, (cfg.payload eventId).amountKobo := Finset.sum_le_sum_of_subset hsub
  omega

/-! ## What is counted of a list of purchases -/

/-- What these purchases of a user, if any, make of a database. -/
def Gains (cfg : Config) (userId : String) (eventIds : List ReadableId) (db db' : Database) : Prop :=
  if eventIds = [] then db.SameFor userId db' else Accrues cfg userId eventIds db db'

theorem Gains.counters (h : Gains cfg userId eventIds db db') :
    db'.purchaseCount userId = db.purchaseCount userId + eventIds.length ∧
      db'.totalSpendKobo userId = db.totalSpendKobo userId +
        (eventIds.map fun eventId => (cfg.payload eventId).amountKobo).sum := by
  unfold Gains at h
  split at h
  · next hnone =>
    rw [hnone, Database.purchaseCount, Database.totalSpendKobo, h.stats]
    exact ⟨rfl, rfl⟩
  · exact h.counters

theorem Gains.same (h : Gains cfg userId eventIds db db') (h' : db'.SameFor userId db'') :
    Gains cfg userId eventIds db db'' := by
  unfold Gains at h ⊢
  split at h
  · next hnone => exact (if_pos hnone).mpr (h.trans h')
  · next hsome => exact (if_neg hsome).mpr (h.same h')

theorem Gains.snoc (h : Gains cfg userId eventIds db db')
    (h' : Accrues cfg userId [eventId] db' db'') : Gains cfg userId (eventIds ++ [eventId]) db db'' := by
  have hsome : eventIds ++ [eventId] ≠ [] := List.append_ne_nil_of_right_ne_nil _ (by simp)
  rw [Gains, if_neg hsome]
  unfold Gains at h
  split at h
  · next hnone =>
    rw [hnone]
    exact h.accrues h'
  · exact h.trans h'

/-- Of the purchases only their number and their sum occur in what they make of a database. -/
theorem Gains.unique (h : Gains cfg userId eventIds db db') (h' : Gains cfg userId eventIds' db db'')
    (hlength : eventIds.length = eventIds'.length)
    (hsum : (eventIds.map fun eventId => (cfg.payload eventId).amountKobo).sum =
      (eventIds'.map fun eventId => (cfg.payload eventId).amountKobo).sum) :
    db'.stats.row userId = db''.stats.row userId ∧
      (∀ id, id ∈ db'.achievementIds userId ↔ id ∈ db''.achievementIds userId) ∧
      ∀ id, id ∈ db'.badgeIds userId ↔ id ∈ db''.badgeIds userId := by
  by_cases hnone : eventIds = []
  · have hnone' : eventIds' = [] := List.eq_nil_of_length_eq_zero (by rw [← hlength, hnone]; rfl)
    rw [Gains, if_pos hnone] at h
    rw [Gains, if_pos hnone'] at h'
    rw [h.stats, h'.stats, h.achievements, h'.achievements, h.badges, h'.badges]
    exact ⟨rfl, fun _ => Iff.rfl, fun _ => Iff.rfl⟩
  · have hsome : eventIds' ≠ [] := by
      rintro rfl
      exact hnone (List.eq_nil_of_length_eq_zero hlength)
    rw [Gains, if_neg hnone] at h
    rw [Gains, if_neg hsome] at h'
    exact h.unique h' hlength hsum

/-- After the purchases `taken`, one more is counted exactly if it fits with them. -/
theorem countable_after {taken : List ReadableId} (hgains : Gains cfg userId taken db db')
    (hnodup : taken.Nodup) (hnotin : eventId ∉ taken)
    (huser : (cfg.payload eventId).userId = userId) (hamount : 1 ≤ (cfg.payload eventId).amountKobo) :
    db'.Countable (cfg.payload eventId) ↔
      FitTogether cfg db userId (insert eventId taken.toFinset) := by
  obtain ⟨hcount, htotal⟩ := hgains.counters
  have hnotin' : eventId ∉ taken.toFinset := fun hmem => hnotin (List.mem_toFinset.mp hmem)
  rw [countable_iff hamount, huser, FitTogether, Finset.card_insert_of_notMem hnotin',
    Finset.sum_insert hnotin', List.toFinset_card_of_nodup hnodup, List.sum_toFinset _ hnodup, hcount,
    htotal, forall_prop_of_true (Finset.insert_nonempty _ _), Nat.add_assoc, Nat.add_assoc,
    Nat.add_comm (List.sum _)]

/-- Of a list of distinct events, a user gains the own ones that are not processed yet, each if the
stats still take it. -/
theorem foldl_purchase_accrues (db : Database) (hcfg : cfg.Keyed) (userId : String)
    (hdistinct : eventIds.Nodup) (hamount : ∀ eventId ∈ eventIds, 1 ≤ (cfg.payload eventId).amountKobo) :
    ∃ taken : List ReadableId, taken.Nodup ∧
      taken.toFinset = greedy (FitTogether cfg db userId) (pending cfg db userId eventIds) ∧
      Gains cfg userId taken db (eventIds.foldl (purchase cfg) db) := by
  induction eventIds using List.reverseRecOn with
  | nil => exact ⟨[], List.nodup_nil, rfl, (if_pos rfl).mpr ⟨rfl, rfl, rfl⟩⟩
  | append_singleton eventIds eventId ih =>
    obtain ⟨hdistinct', -, hdisjoint⟩ := List.nodup_append'.mp hdistinct
    have hnotin : eventId ∉ eventIds := fun hmem => hdisjoint hmem List.mem_cons_self
    obtain ⟨taken, hnodup, hgreedy, hgains⟩ := ih hdistinct' fun eventId' hmem =>
      hamount eventId' (List.mem_append_left _ hmem)
    have hone := hamount eventId (List.mem_append_right _ List.mem_cons_self)
    have hsplit : pending cfg db userId (eventIds ++ [eventId]) =
        pending cfg db userId eventIds ++ pending cfg db userId [eventId] := List.filter_append ..
    rw [List.foldl_append, List.foldl_cons, List.foldl_nil, hsplit]
    by_cases hdone : eventId ∈ db.processed
    · have hskip : pending cfg db userId [eventId] = [] :=
        List.filter_cons_of_neg (by simp [hdone])
      rw [hskip, List.append_nil, purchase, if_pos (Or.inl (processed_foldl_purchase hdone))]
      exact ⟨taken, hnodup, hgreedy, hgains⟩
    by_cases huser : (cfg.payload eventId).userId = userId
    · have hlast : pending cfg db userId [eventId] = [eventId] :=
        List.filter_cons_of_pos (by simp [hdone, huser])
      have hnew : eventId ∉ (eventIds.foldl (purchase cfg) db).processed := fun hmem =>
        (foldl_purchase_processed hmem).elim hdone hnotin
      have huntaken : eventId ∉ taken := by
        intro hmem
        have hpending := greedy_subset _ (hgreedy ▸ List.mem_toFinset.mpr hmem)
        exact hnotin (List.mem_filter.mp (List.mem_toFinset.mp hpending)).1
      have hiff := countable_after hgains hnodup huntaken huser hone
      rw [hlast, greedy_snoc, takeIfFits, ← hgreedy]
      by_cases hfits : FitTogether cfg db userId (insert eventId taken.toFinset)
      · rw [if_pos hfits, purchase_counted hnew (hiff.mpr hfits)]
        refine ⟨taken ++ [eventId], List.nodup_append_comm.mp (List.nodup_cons.mpr ⟨huntaken, hnodup⟩),
          ?_, hgains.snoc (purchaseTx_accrues hcfg _ huser)⟩
        rw [List.toFinset_append, Finset.union_comm]
        rfl
      · rw [if_neg hfits, purchase, if_pos (Or.inr (fun h => hfits (hiff.mp h)))]
        exact ⟨taken, hnodup, rfl, hgains⟩
    · have hskip : pending cfg db userId [eventId] = [] :=
        List.filter_cons_of_neg (by simp [huser])
      rw [hskip, List.append_nil]
      exact ⟨taken, hnodup, hgreedy, hgains.same (purchase_other cfg _ huser)⟩

end Accrual

theorem Database.SameUpToIds.sameFor {db db' : Database} (h : db.SameUpToIds db') (userId : String) :
    db'.SameFor userId db :=
  ⟨congrFun h.stats userId, h.achievementIds userId, h.badgeIds userId⟩

/-! ## The order of the events -/

/-- Whatever the order of the events, each delivered after the other is done, the deliveries
complete, and leave every user with the same stats, achievements and badges. -/
def OrderIrrelevant (cfg : Config) (w : World) (eventIds : List ReadableId) : Prop :=
  ∀ eventIds₁ eventIds₂, eventIds₁.Perm eventIds → eventIds₂.Perm eventIds →
    ∃ w₁ w₂, (∀ w', Processes cfg w eventIds₁ w' ↔ w' = w₁) ∧
      (∀ w', Processes cfg w eventIds₂ w' ↔ w' = w₂) ∧
      ∀ userId, w₁.db.stats.row userId = w₂.db.stats.row userId ∧
        (∀ id, id ∈ w₁.db.achievementIds userId ↔ id ∈ w₂.db.achievementIds userId) ∧
        ∀ id, id ∈ w₁.db.badgeIds userId ↔ id ∈ w₂.db.badgeIds userId

/-- The user's stats take these of the events that are new, and no other one with them. -/
def FillsUp (cfg : Config) (db : Database) (userId : String) (eventIds : List ReadableId)
    (taken : Finset ReadableId) : Prop :=
  Maximal (fun taken => taken ⊆ (pending cfg db userId eventIds).toFinset ∧
    FitTogether cfg db userId taken) taken

section Order
variable {cfg : Config} {w : World} {db : Database} {userId : String}
  {eventIds eventIds' : List ReadableId} {taken : Finset ReadableId}

theorem pending_perm (h : eventIds'.Perm eventIds) :
    (pending cfg db userId eventIds').Perm (pending cfg db userId eventIds) := h.filter _

theorem fillsUp_greedy (h : eventIds'.Perm eventIds) : FillsUp cfg db userId eventIds
    (greedy (FitTogether cfg db userId) (pending cfg db userId eventIds')) := by
  rw [FillsUp, ← List.toFinset_eq_of_perm _ _ (pending_perm h)]
  exact greedy_maximal (fitTogether_lower cfg db userId) (fitTogether_empty cfg db userId) _

/-- The events of such a collection come first. -/
theorem FillsUp.exists_order (h : FillsUp cfg db userId eventIds taken) (hdistinct : eventIds.Nodup) :
    ∃ eventIds', eventIds'.Perm eventIds ∧
      greedy (FitTogether cfg db userId) (pending cfg db userId eventIds') = taken := by
  have hpending : ∀ eventId ∈ taken, eventId ∈ pending cfg db userId eventIds := fun _ hmem =>
    List.mem_toFinset.mp (h.1.1 hmem)
  have hmem : taken.toList.Perm (eventIds.filter (· ∈ taken)) := by
    refine (List.perm_ext_iff_of_nodup taken.nodup_toList (hdistinct.filter _)).mpr fun eventId => ?_
    rw [Finset.mem_toList, List.mem_filter, decide_eq_true_eq]
    exact ⟨fun hin => ⟨(List.mem_filter.mp (hpending eventId hin)).1, hin⟩, And.right⟩
  have hperm : (taken.toList ++ eventIds.filter (· ∉ taken)).Perm eventIds := by
    refine (hmem.append_right _).trans ?_
    simpa using List.filter_append_perm (fun eventId => decide (eventId ∈ taken)) eventIds
  refine ⟨_, hperm, ?_⟩
  have hfirst : pending cfg db userId taken.toList = taken.toList :=
    List.filter_eq_self.mpr fun eventId hin =>
      (List.mem_filter.mp (hpending eventId (Finset.mem_toList.mp hin))).2
  have hsplit : pending cfg db userId (taken.toList ++ eventIds.filter (· ∉ taken)) =
      taken.toList ++ pending cfg db userId (eventIds.filter (· ∉ taken)) := by
    rw [pending, List.filter_append]
    exact congrArg (· ++ _) hfirst
  have hsame : (pending cfg db userId (taken.toList ++ eventIds.filter (· ∉ taken))).toFinset =
      (pending cfg db userId eventIds).toFinset := List.toFinset_eq_of_perm _ _ (pending_perm hperm)
  rw [hsplit] at hsame ⊢
  have hmaximal : Maximal (fun s => s ⊆ (taken.toList ++
      pending cfg db userId (eventIds.filter (· ∉ taken))).toFinset ∧ FitTogether cfg db userId s)
      taken.toList.toFinset := by
    rw [taken.toList_toFinset, hsame]
    exact h
  rw [greedy_of_maximal (fitTogether_lower cfg db userId) (fitTogether_empty cfg db userId) hmaximal,
    taken.toList_toFinset]

/-- What deliveries of the events in some order leave. -/
theorem processes_gains (hcfg : cfg.Keyed) (hdistinct : eventIds.Nodup)
    (hamount : ∀ eventId ∈ eventIds, 1 ≤ (cfg.payload eventId).amountKobo) {w w' : World}
    (h : Processes cfg w eventIds w') (userId : String) : ∃ taken : List ReadableId, taken.Nodup ∧
      taken.toFinset = greedy (FitTogether cfg w.db userId) (pending cfg w.db userId eventIds) ∧
      Gains cfg userId taken w.db w'.db := by
  obtain ⟨w'', hrun, hsame⟩ := processes_purchases hcfg w eventIds
  obtain rfl := h.unique hrun
  obtain ⟨taken, hnodup, hgreedy, hgains⟩ := foldl_purchase_accrues w.db hcfg userId hdistinct hamount
  exact ⟨taken, hnodup, hgreedy, hgains.same (hsame.sameFor userId)⟩

/-- The stats tell the number and the sum of what was counted. -/
theorem processes_counters (hcfg : cfg.Keyed) (hdistinct : eventIds.Nodup)
    (hamount : ∀ eventId ∈ eventIds, 1 ≤ (cfg.payload eventId).amountKobo) {w w' : World}
    (h : Processes cfg w eventIds w')
    (htaken : greedy (FitTogether cfg w.db userId) (pending cfg w.db userId eventIds) = taken) :
    w'.db.purchaseCount userId = w.db.purchaseCount userId + taken.card ∧
      w'.db.totalSpendKobo userId = w.db.totalSpendKobo userId +
        ∑ eventId ∈ taken, (cfg.payload eventId).amountKobo := by
  obtain ⟨counted, hnodup, hgreedy, hgains⟩ := processes_gains hcfg hdistinct hamount h userId
  rw [← htaken, ← hgreedy, List.toFinset_card_of_nodup hnodup, List.sum_toFinset _ hnodup]
  exact hgains.counters

/-- The order of distinct purchases makes no difference to any user exactly if any two collections
that fill up a user's stats have the same number and the same sum. -/
theorem purchase_order_irrelevant_iff (hcfg : cfg.Keyed) (w : World) (hdistinct : eventIds.Nodup)
    (hamount : ∀ eventId ∈ eventIds, 1 ≤ (cfg.payload eventId).amountKobo) :
    OrderIrrelevant cfg w eventIds ↔ ∀ userId taken taken',
      FillsUp cfg w.db userId eventIds taken → FillsUp cfg w.db userId eventIds taken' →
        taken.card = taken'.card ∧ ∑ eventId ∈ taken, (cfg.payload eventId).amountKobo =
          ∑ eventId ∈ taken', (cfg.payload eventId).amountKobo := by
  constructor
  · intro hall userId taken₁ taken₂ hfills₁ hfills₂
    obtain ⟨eventIds₁, hperm₁, htaken₁⟩ := hfills₁.exists_order hdistinct
    obtain ⟨eventIds₂, hperm₂, htaken₂⟩ := hfills₂.exists_order hdistinct
    obtain ⟨w₁, w₂, hrun₁, hrun₂, hsame⟩ := hall eventIds₁ eventIds₂ hperm₁ hperm₂
    obtain ⟨hcount₁, htotal₁⟩ := processes_counters hcfg (hperm₁.nodup_iff.mpr hdistinct)
      (fun eventId hmem => hamount eventId (hperm₁.mem_iff.mp hmem)) ((hrun₁ w₁).mpr rfl) htaken₁
    obtain ⟨hcount₂, htotal₂⟩ := processes_counters hcfg (hperm₂.nodup_iff.mpr hdistinct)
      (fun eventId hmem => hamount eventId (hperm₂.mem_iff.mp hmem)) ((hrun₂ w₂).mpr rfl) htaken₂
    have hrow := (hsame userId).1
    have hcount : w₁.db.purchaseCount userId = w₂.db.purchaseCount userId := by
      rw [Database.purchaseCount, Database.purchaseCount, hrow]
    have htotal : w₁.db.totalSpendKobo userId = w₂.db.totalSpendKobo userId := by
      rw [Database.totalSpendKobo, Database.totalSpendKobo, hrow]
    omega
  · intro hsame eventIds₁ eventIds₂ hperm₁ hperm₂
    obtain ⟨w₁, hrun₁, -⟩ := processes_purchases hcfg w eventIds₁
    obtain ⟨w₂, hrun₂, -⟩ := processes_purchases hcfg w eventIds₂
    refine ⟨w₁, w₂, fun w' => ⟨fun h => h.unique hrun₁, fun h => h ▸ hrun₁⟩,
      fun w' => ⟨fun h => h.unique hrun₂, fun h => h ▸ hrun₂⟩, fun userId => ?_⟩
    obtain ⟨taken₁, hnodup₁, hgreedy₁, hgains₁⟩ := processes_gains hcfg
      (hperm₁.nodup_iff.mpr hdistinct)
      (fun eventId hmem => hamount eventId (hperm₁.mem_iff.mp hmem)) hrun₁ userId
    obtain ⟨taken₂, hnodup₂, hgreedy₂, hgains₂⟩ := processes_gains hcfg
      (hperm₂.nodup_iff.mpr hdistinct)
      (fun eventId hmem => hamount eventId (hperm₂.mem_iff.mp hmem)) hrun₂ userId
    obtain ⟨hcard, hsum⟩ := hsame userId taken₁.toFinset taken₂.toFinset
      (hgreedy₁ ▸ fillsUp_greedy hperm₁) (hgreedy₂ ▸ fillsUp_greedy hperm₂)
    rw [List.toFinset_card_of_nodup hnodup₁, List.toFinset_card_of_nodup hnodup₂] at hcard
    rw [List.sum_toFinset _ hnodup₁, List.sum_toFinset _ hnodup₂] at hsum
    exact hgains₁.unique hgains₂ hcard hsum

/-- If a user's new events all fit, they are the one collection that fills up the stats. -/
theorem FillsUp.eq_of_fit (h : FillsUp cfg db userId eventIds taken)
    (hfit : FitTogether cfg db userId (pending cfg db userId eventIds).toFinset) :
    taken = (pending cfg db userId eventIds).toFinset :=
  h.eq_of_le ⟨Finset.Subset.refl _, hfit⟩ h.1.1

end Order

/-- The larger purchase unlocks both achievements at once, the smaller one only the second. -/
def spenderConfig : Config where
  payload := fun eventId =>
    ⟨"usr", eventId, 1000 * (eventId + 1), ⟨"usr", "user@example.com", "Amina", none, none⟩⟩
  correlationId := id
  achievements := [⟨"ach_spender", "Spender", "spend", 1, .sum 2000 "GTE", true⟩,
    ⟨"ach_first_purchase", "First Purchase", "purchases", 1, .count 1 "GTE", true⟩]
  badges := [⟨"bdg_bronze", "Bronze", 1, 1, ["ach_first_purchase"], 30000, "NGN", true⟩,
    ⟨"bdg_silver", "Silver", 2, 2, [], 50000, "NGN", true⟩]

theorem spender_fit (userId : String) : FitTogether spenderConfig initial.world.db userId
    (pending spenderConfig initial.world.db userId [0, 1]).toFinset := by
  have hboth : FitTogether spenderConfig initial.world.db "usr" {0, 1} := by decide
  have hsub : (pending spenderConfig initial.world.db userId [0, 1]).toFinset ⊆ {0, 1} :=
    fun eventId hmem => by
      have hlisted := (List.mem_filter.mp (List.mem_toFinset.mp hmem)).1
      exact List.mem_toFinset.mpr hlisted
  exact fitTogether_lower spenderConfig initial.world.db userId hsub hboth

theorem purchase_order_spender : OrderIrrelevant spenderConfig initial.world [0, 1] :=
  (purchase_order_irrelevant_iff ⟨by decide, by decide⟩ initial.world (by decide)
    (by decide)).mpr fun userId taken taken' htaken htaken' => by
      rw [htaken.eq_of_fit (spender_fit userId), htaken'.eq_of_fit (spender_fit userId)]
      exact ⟨rfl, rfl⟩

/-- Purchases of 20 and of 10 million naira by one user: the column takes either, and not both. -/
def wholesaleConfig : Config where
  payload := fun eventId => ⟨"usr", eventId, if eventId = 0 then 2000000000 else 1000000000,
    ⟨"usr", "user@example.com", "Amina", none, none⟩⟩
  correlationId := id
  achievements := []
  badges := []

/-- Whichever is handled first is counted, and the other one is refused. -/
theorem purchase_order_matters : ¬∀ (cfg : Config) (w : World) (eventIds : List ReadableId),
    cfg.Keyed → eventIds.Nodup → (∀ eventId ∈ eventIds, 1 ≤ (cfg.payload eventId).amountKobo) →
      OrderIrrelevant cfg w eventIds := by
  intro hall
  obtain ⟨w₁, w₂, hrun₁, hrun₂, hsame⟩ := hall wholesaleConfig initial.world [0, 1]
    ⟨by decide, by decide⟩ (by decide) (by decide) [0, 1] [1, 0] (by decide) (by decide)
  have hlarger : greedy (FitTogether wholesaleConfig initial.world.db "usr")
    (pending wholesaleConfig initial.world.db "usr" [0, 1]) = {0} := by decide
  have hsmaller : greedy (FitTogether wholesaleConfig initial.world.db "usr")
    (pending wholesaleConfig initial.world.db "usr" [1, 0]) = {1} := by decide
  have hkeyed : wholesaleConfig.Keyed := ⟨by decide, by decide⟩
  obtain ⟨-, htotal₁⟩ := processes_counters hkeyed (by decide) (by decide)
    ((hrun₁ w₁).mpr rfl) hlarger
  obtain ⟨-, htotal₂⟩ := processes_counters hkeyed (by decide) (by decide)
    ((hrun₂ w₂).mpr rfl) hsmaller
  rw [Database.totalSpendKobo, (hsame "usr").1, ← Database.totalSpendKobo, htotal₂] at htotal₁
  exact absurd htotal₁ (by decide)

end Bumpa.Loyalty
