import Bumpa.Loyalty.Isolation
import Bumpa.Loyalty.UnlockLoop

/-! # The transaction of a purchase as one step

`purchaseTx` is what the transaction of a purchase event writes when it runs on a database that
nobody else changes for its user: a function of the event and of the database, with no statement
order and without the fresh ids, which are 0 in it.

`Thread.Follows` says, statement by statement, how far a transaction has come in writing it.
`statement_follows` is the step, `follows_commit` the result: what a transaction that has reached
its COMMIT has written is `purchaseTx`, up to ids.
-/
namespace Bumpa.Loyalty
open Bumpa.Events Bumpa.Relational Bumpa.Transition
set_option autoImplicit false

/-! ## Rows without their ids -/

def UserAchievement.anonymous (row : UserAchievement) : UserAchievement := { row with id := 0 }

def UserBadge.anonymous (row : UserBadge) : UserBadge := { row with id := 0 }

def UnlockEvent.anonymous : UnlockEvent → UnlockEvent
  | .achievement event => .achievement { event with eventId := 0 }
  | .badge event => .badge { event with eventId := 0 }

def OutboxEvent.anonymous (row : OutboxEvent) : OutboxEvent := ⟨0, row.payload.anonymous⟩

def Tx.anonymous (tx : Tx) : Tx :=
  { tx with
    achievements := tx.achievements.map (·.anonymous)
    badges := tx.badges.map (·.anonymous)
    outbox := tx.outbox.map (·.anonymous) }

/-- Two databases that differ in fresh ids only. -/
structure Database.SameUpToIds (db db' : Database) : Prop where
  projections : db.projections.row = db'.projections.row
  stats : db.stats.row = db'.stats.row
  achievements : db.achievements.map (·.anonymous) = db'.achievements.map (·.anonymous)
  badges : db.badges.map (·.anonymous) = db'.badges.map (·.anonymous)
  outbox : db.outbox.map (·.anonymous) = db'.outbox.map (·.anonymous)
  processed : db.processed = db'.processed

theorem Database.SameUpToIds.refl (db : Database) : db.SameUpToIds db :=
  ⟨rfl, rfl, rfl, rfl, rfl, rfl⟩

theorem Database.SameUpToIds.symm {db db' : Database} (h : db.SameUpToIds db') :
    db'.SameUpToIds db :=
  ⟨h.projections.symm, h.stats.symm, h.achievements.symm, h.badges.symm, h.outbox.symm,
    h.processed.symm⟩

theorem Database.SameUpToIds.trans {db db' db'' : Database} (h : db.SameUpToIds db')
    (h' : db'.SameUpToIds db'') : db.SameUpToIds db'' :=
  ⟨h.projections.trans h'.projections, h.stats.trans h'.stats,
    h.achievements.trans h'.achievements, h.badges.trans h'.badges, h.outbox.trans h'.outbox,
    h.processed.trans h'.processed⟩

theorem view_sameUpToIds {db db' : Database} {tx tx' : Tx} (hdb : db.SameUpToIds db')
    (htx : tx.anonymous = tx'.anonymous) : (tx.view db).SameUpToIds (tx'.view db') := by
  simp only [Tx.anonymous, Tx.mk.injEq] at htx
  obtain ⟨hprojection, hstats, hachievements, hbadges, houtbox, hprocessed⟩ := htx
  refine ⟨?_, ?_, ?_, ?_, ?_, ?_⟩
  · rw [Tx.view, Tx.view, hprojection]
    cases tx'.projection with
    | none => exact hdb.projections
    | some row =>
      funext k
      simp only [Option.elim, Table.put_row, hdb.projections]
  · rw [Tx.view, Tx.view, hstats]
    cases tx'.stats with
    | none => exact hdb.stats
    | some row =>
      funext k
      simp only [Option.elim, Table.put_row, hdb.stats]
  · simp only [Tx.view, List.map_append, hdb.achievements, hachievements]
  · simp only [Tx.view, List.map_append, hdb.badges, hbadges]
  · simp only [Tx.view, List.map_append, hdb.outbox, houtbox]
  · simp only [Tx.view, hdb.processed, hprocessed]

theorem anonymous_achievementIds (rows : List UserAchievement) (userId : String) :
    ((rows.map (·.anonymous)).filter (·.userId = userId)).map (·.achievementId) =
      (rows.filter (·.userId = userId)).map (·.achievementId) := by
  rw [List.filter_map, List.map_map]
  rfl

theorem anonymous_badgeIds (rows : List UserBadge) (userId : String) :
    ((rows.map (·.anonymous)).filter (·.userId = userId)).map (·.badgeId) =
      (rows.filter (·.userId = userId)).map (·.badgeId) := by
  rw [List.filter_map, List.map_map]
  rfl

theorem Database.SameUpToIds.achievementIds {db db' : Database} (h : db.SameUpToIds db')
    (userId : String) : db.achievementIds userId = db'.achievementIds userId := by
  rw [Database.achievementIds, Database.achievementIds, ← anonymous_achievementIds, h.achievements,
    anonymous_achievementIds]

theorem Database.SameUpToIds.badgeIds {db db' : Database} (h : db.SameUpToIds db')
    (userId : String) : db.badgeIds userId = db'.badgeIds userId := by
  rw [Database.badgeIds, Database.badgeIds, ← anonymous_badgeIds, h.badges, anonymous_badgeIds]

/-! ## What a purchase writes -/

/-- The ids of the configs are primary keys. -/
structure Config.Keyed (cfg : Config) : Prop where
  achievements : (cfg.achievements.map (·.id)).Nodup
  badges : (cfg.badges.map (·.id)).Nodup

def achievementRow (event : PurchaseCompletedEvent) (config : AchievementConfig) :
    UserAchievement :=
  ⟨0, event.payload.userId, config.id⟩

def badgeRow (event : PurchaseCompletedEvent) (badge : BadgeConfig) : UserBadge :=
  ⟨0, event.payload.userId, badge.id⟩

def achievementOutbox (event : PurchaseCompletedEvent) (config : AchievementConfig) : OutboxEvent :=
  ⟨0, .achievement (createDomainEvent .achievementUnlocked ⟨config.name, event.payload.user⟩
    event.correlationId 0)⟩

def badgeOutbox (event : PurchaseCompletedEvent) (badge : BadgeConfig) : OutboxEvent :=
  ⟨0, .badge (createDomainEvent .badgeUnlocked
    ⟨badge.name, some badge.rewardAmountKobo, badge.rewardCurrency, event.payload.user⟩
    event.correlationId 0)⟩

section Purchase
variable (cfg : Config) (db : Database) (event : PurchaseCompletedEvent)

def newAchievements : List AchievementConfig :=
  unlockAchievements (countPurchase db event.payload).counters cfg.activeAchievements
    (db.achievementIds event.payload.userId)

/-- The achievements the badges are decided from. -/
def achievementIdsAfter : List String :=
  db.achievementIds event.payload.userId ++ (newAchievements cfg db event).map (·.id)

def newBadges : List BadgeConfig :=
  cfg.activeBadges.filter fun badge => badge.id ∉ db.badgeIds event.payload.userId &&
    meetsBadgeRequirement badge (achievementIdsAfter cfg db event).length
      (achievementIdsAfter cfg db event)

def marker : Option ReadableId :=
  if event.eventId ∈ db.processed then none else some event.eventId

def purchaseTx : Tx where
  projection := some (upsertProjection db event.payload.user)
  stats := some (countPurchase db event.payload)
  achievements := (newAchievements cfg db event).map (achievementRow event)
  badges := (newBadges cfg db event).map (badgeRow event)
  outbox := (newAchievements cfg db event).map (achievementOutbox event) ++
    (newBadges cfg db event).map (badgeOutbox event)
  processed := marker db event

/-- What handling the event makes of the database, once it is done. -/
def purchase (eventId : ReadableId) : Database :=
  if eventId ∈ db.processed ∨ ¬db.Countable (cfg.payload eventId) then db
  else (purchaseTx cfg db (cfg.event eventId)).view db

/-- What the transaction has written, its stats and its marker left aside: the rows of these
achievements and badges, and the events of these. -/
structure Tx.Wrote (tx : Tx) (saved announced : List AchievementConfig)
    (savedBadges announcedBadges : List BadgeConfig) : Prop where
  projection : tx.projection = some (upsertProjection db event.payload.user)
  achievements : tx.achievements.map (·.anonymous) = saved.map (achievementRow event)
  badges : tx.badges.map (·.anonymous) = savedBadges.map (badgeRow event)
  outbox : tx.outbox.map (·.anonymous) =
    announced.map (achievementOutbox event) ++ announcedBadges.map (badgeOutbox event)

/-- How far the transaction has come when it is about to issue a statement. -/
def Pc.Follows (tx : Tx) : Pc → Prop
  | .upsert => tx = Tx.begin
  | .findStats | .selectStats _ | .writeStats _ _ =>
    tx.processed = none ∧ tx.Wrote db event [] [] [] []
  | .findConfigs stats =>
    tx.processed = none ∧ tx.Wrote db event [] [] [] [] ∧ stats = countPurchase db event.payload
  | .findAchievements stats configs =>
    tx.processed = none ∧ tx.Wrote db event [] [] [] [] ∧
      stats = countPurchase db event.payload ∧ configs = cfg.activeAchievements
  | .saveAchievement loop config =>
    tx.processed = none ∧ ∃ saved, tx.Wrote db event saved saved [] [] ∧
      (loop.unlocked config).Finishes (saved ++ [config]) (newAchievements cfg db event)
  | .saveAchievementEvent loop config =>
    tx.processed = none ∧ ∃ saved, tx.Wrote db event (saved ++ [config]) saved [] [] ∧
      loop.Finishes (saved ++ [config]) (newAchievements cfg db event)
  | .findUnlocked =>
    tx.processed = none ∧
      tx.Wrote db event (newAchievements cfg db event) (newAchievements cfg db event) [] []
  | .findBadges achievementIds =>
    tx.processed = none ∧
      tx.Wrote db event (newAchievements cfg db event) (newAchievements cfg db event) [] [] ∧
      achievementIds = achievementIdsAfter cfg db event
  | .findUserBadges achievementIds badges =>
    tx.processed = none ∧
      tx.Wrote db event (newAchievements cfg db event) (newAchievements cfg db event) [] [] ∧
      achievementIds = achievementIdsAfter cfg db event ∧ badges = cfg.activeBadges
  | .saveBadge badge rest =>
    tx.processed = none ∧ ∃ saved, saved ++ badge :: rest = newBadges cfg db event ∧
      tx.Wrote db event (newAchievements cfg db event) (newAchievements cfg db event) saved saved
  | .saveBadgeEvent badge rest =>
    tx.processed = none ∧ ∃ saved, saved ++ badge :: rest = newBadges cfg db event ∧
      tx.Wrote db event (newAchievements cfg db event) (newAchievements cfg db event)
        (saved ++ [badge]) saved
  | .selectMarker =>
    tx.processed = none ∧ tx.Wrote db event (newAchievements cfg db event)
      (newAchievements cfg db event) (newBadges cfg db event) (newBadges cfg db event)
  | .writeMarker found =>
    tx.processed = none ∧ tx.Wrote db event (newAchievements cfg db event)
      (newAchievements cfg db event) (newBadges cfg db event) (newBadges cfg db event) ∧
      found = decide (event.eventId ∈ db.processed)
  | .commit =>
    tx.processed = marker db event ∧ tx.Wrote db event (newAchievements cfg db event)
      (newAchievements cfg db event) (newBadges cfg db event) (newBadges cfg db event)

end Purchase

theorem purchaseTx_anonymous (cfg : Config) (db : Database) (event : PurchaseCompletedEvent) :
    (purchaseTx cfg db event).anonymous = purchaseTx cfg db event := by
  simp only [Tx.anonymous, purchaseTx, List.map_append, List.map_map]
  rfl

theorem purchaseTx_congr {cfg : Config} {db db' : Database} (h : db.SameUpToIds db')
    (event : PurchaseCompletedEvent) : purchaseTx cfg db event = purchaseTx cfg db' event := by
  have hprojection : upsertProjection db event.payload.user =
      upsertProjection db' event.payload.user := by
    simp only [upsertProjection, h.projections]
  have hstats : countPurchase db event.payload = countPurchase db' event.payload :=
    countPurchase_congr (congrFun h.stats _)
  simp only [purchaseTx, newBadges, achievementIdsAfter, newAchievements, marker, hprojection,
    hstats, h.achievementIds, h.badgeIds, h.processed]

theorem purchase_congr {cfg : Config} {db db' : Database} (h : db.SameUpToIds db')
    (eventId : ReadableId) : (purchase cfg db eventId).SameUpToIds (purchase cfg db' eventId) := by
  have hcountable : db.Countable (cfg.payload eventId) ↔ db'.Countable (cfg.payload eventId) :=
    countable_congr (congrFun h.stats _)
  simp only [purchase, h.processed, hcountable, purchaseTx_congr h]
  split
  · exact h
  · exact view_sameUpToIds h rfl

theorem foldl_purchase_congr {cfg : Config} {db db' : Database} (h : db.SameUpToIds db')
    (eventIds : List ReadableId) :
    (eventIds.foldl (purchase cfg) db).SameUpToIds (eventIds.foldl (purchase cfg) db') := by
  induction eventIds generalizing db db' with
  | nil => exact h
  | cons eventId rest ih => exact ih (purchase_congr h eventId)

/-- A transaction writes what its event writes on this database. -/
def Thread.Follows (cfg : Config) (db : Database) : Thread → Prop
  | .transaction event tx pc => pc.Follows cfg db event tx
  | _ => True

/-! ## One statement -/

section Statement
variable {cfg : Config} {db : Database} {event : PurchaseCompletedEvent} {tx : Tx}
  {saved announced : List AchievementConfig} {savedBadges announcedBadges : List BadgeConfig}

theorem Tx.Wrote.achievementIds
    (h : tx.Wrote db event saved announced savedBadges announcedBadges) :
    (tx.view db).achievementIds event.payload.userId =
      db.achievementIds event.payload.userId ++ saved.map (·.id) := by
  have hown : ∀ row ∈ saved.map (achievementRow event),
      decide (row.userId = event.payload.userId) = true := by
    rw [List.forall_mem_map]
    exact fun _ _ => decide_eq_true rfl
  simp only [Database.achievementIds, Tx.view, List.filter_append, List.map_append]
  rw [← anonymous_achievementIds tx.achievements, h.achievements, List.filter_eq_self.mpr hown,
    List.map_map]
  rfl

theorem Tx.Wrote.badgeIds (h : tx.Wrote db event saved announced savedBadges announcedBadges) :
    (tx.view db).badgeIds event.payload.userId =
      db.badgeIds event.payload.userId ++ savedBadges.map (·.id) := by
  have hown : ∀ row ∈ savedBadges.map (badgeRow event),
      decide (row.userId = event.payload.userId) = true := by
    rw [List.forall_mem_map]
    exact fun _ _ => decide_eq_true rfl
  simp only [Database.badgeIds, Tx.view, List.filter_append, List.map_append]
  rw [← anonymous_badgeIds tx.badges, h.badges, List.filter_eq_self.mpr hown, List.map_map]
  rfl

/-- The rows of other users are left as they are. -/
theorem Tx.Wrote.other (h : tx.Wrote db event saved announced savedBadges announcedBadges)
    {userId : String} (hne : userId ≠ event.payload.userId) :
    (tx.view db).achievementIds userId = db.achievementIds userId ∧
      (tx.view db).badgeIds userId = db.badgeIds userId := by
  have hachievements : (saved.map (achievementRow event)).filter (·.userId = userId) = [] := by
    rw [List.filter_eq_nil_iff, List.forall_mem_map]
    exact fun _ _ heq => hne (of_decide_eq_true heq).symm
  have hbadges : (savedBadges.map (badgeRow event)).filter (·.userId = userId) = [] := by
    rw [List.filter_eq_nil_iff, List.forall_mem_map]
    exact fun _ _ heq => hne (of_decide_eq_true heq).symm
  simp only [Database.achievementIds, Database.badgeIds, Tx.view, List.filter_append,
    List.map_append]
  rw [← anonymous_achievementIds tx.achievements, h.achievements, hachievements,
    ← anonymous_badgeIds tx.badges, h.badges, hbadges]
  exact ⟨List.append_nil _, List.append_nil _⟩

theorem view_processed (h : tx.processed = none) : (tx.view db).processed = db.processed := by
  rw [Tx.view, h]
  exact List.append_nil _

theorem unlockNext_follows {loop : UnlockLoop} (hprocessed : tx.processed = none)
    (hwrote : tx.Wrote db event saved saved [] [])
    (hf : loop.Finishes saved (newAchievements cfg db event)) :
    (unlockNext loop).Follows cfg db event tx := by
  unfold unlockNext
  split
  · next hnext => exact ⟨hprocessed, saved, hwrote, hf.next hnext⟩
  · next hnext =>
    have hall := hf.done hnext
    exact ⟨hprocessed, hall ▸ hwrote⟩

theorem badgeNext_follows (savedBadges : List BadgeConfig) {rest : List BadgeConfig}
    (hprocessed : tx.processed = none)
    (hwrote : tx.Wrote db event (newAchievements cfg db event) (newAchievements cfg db event)
      savedBadges savedBadges) (hrest : savedBadges ++ rest = newBadges cfg db event) :
    (badgeNext rest).Follows cfg db event tx := by
  cases rest with
  | nil =>
    rw [List.append_nil] at hrest
    exact ⟨hprocessed, hrest ▸ hwrote⟩
  | cons badge rest => exact ⟨hprocessed, savedBadges, hrest, hwrote⟩

theorem activeAchievements_nodup (hcfg : cfg.Keyed) : (cfg.activeAchievements.map (·.id)).Nodup := by
  rw [Config.activeAchievements, ((List.perm_insertionSort _ _).map _).nodup_iff]
  exact hcfg.achievements.sublist (List.filter_sublist.map _)

theorem activeBadges_nodup (hcfg : cfg.Keyed) : (cfg.activeBadges.map (·.id)).Nodup := by
  rw [Config.activeBadges, ((List.perm_insertionSort _ _).map _).nodup_iff]
  exact hcfg.badges.sublist (List.filter_sublist.map _)

theorem statement_follows {w w' : World} {others : List Tx} {pc : Pc} {th' : Thread}
    (hcfg : cfg.Keyed) (h : statement cfg w others event tx pc = some (w', th'))
    (hpc : pc ≠ .commit) (hcounts : (Thread.transaction event tx pc).Counts w.db)
    (hf : pc.Follows cfg w.db event tx) : th'.Follows cfg w.db := by
  cases pc with
  | upsert =>
    cases hf
    simp only [statement] at h
    split at h
    · cases h
      exact ⟨rfl, rfl, rfl, rfl, rfl⟩
    · cases h
  | findStats =>
    cases h
    exact hf
  | selectStats stats =>
    cases h
    exact hf
  | writeStats stats selected =>
    obtain ⟨hprocessed, hwrote⟩ := hf
    obtain ⟨_, rfl, _⟩ := hcounts
    have hnext : ∀ stats', Pc.Follows cfg w.db event { tx with stats := stats' }
        (.findConfigs (countPurchase w.db event.payload)) := fun stats' =>
      ⟨hprocessed, ⟨hwrote.projection, hwrote.achievements, hwrote.badges, hwrote.outbox⟩, rfl⟩
    simp only [statement] at h
    split at h
    · cases h
      exact hnext tx.stats
    · split at h
      · cases h
        trivial
      · split at h
        · split at h <;> cases h
          · exact hnext _
          · trivial
          · exact hnext tx.stats
          · exact hnext _
        · cases h
  | findConfigs stats =>
    cases h
    exact ⟨hf.1, hf.2.1, hf.2.2, rfl⟩
  | findAchievements stats configs =>
    obtain ⟨hprocessed, hwrote, rfl, rfl⟩ := hf
    cases h
    refine unlockNext_follows hprocessed hwrote ?_
    rw [hwrote.achievementIds, List.map_nil, List.append_nil]
    exact UnlockLoop.finishes_start (activeAchievements_nodup hcfg) _ _
  | saveAchievement loop config =>
    obtain ⟨hprocessed, saved, hwrote, hfinishes⟩ := hf
    simp only [statement] at h
    split at h
    · cases h
    · split at h <;> cases h
      · trivial
      · refine ⟨hprocessed, saved, ⟨hwrote.projection, ?_, hwrote.badges, hwrote.outbox⟩, hfinishes⟩
        rw [List.map_append, List.map_append, hwrote.achievements]
        rfl
  | saveAchievementEvent loop config =>
    obtain ⟨hprocessed, saved, hwrote, hfinishes⟩ := hf
    cases h
    refine unlockNext_follows hprocessed
      ⟨hwrote.projection, hwrote.achievements, hwrote.badges, ?_⟩ hfinishes
    rw [List.map_append, hwrote.outbox, List.map_append, List.map_nil, List.append_nil,
      List.append_nil]
    rfl
  | findUnlocked =>
    cases h
    exact ⟨hf.1, hf.2, hf.2.achievementIds⟩
  | findBadges achievementIds =>
    cases h
    exact ⟨hf.1, hf.2.1, hf.2.2, rfl⟩
  | findUserBadges achievementIds badges =>
    obtain ⟨hprocessed, hwrote, rfl, rfl⟩ := hf
    cases h
    refine badgeNext_follows [] hprocessed hwrote ?_
    rw [hwrote.badgeIds, List.map_nil, List.append_nil]
    rfl
  | saveBadge badge rest =>
    obtain ⟨hprocessed, saved, hrest, hwrote⟩ := hf
    simp only [statement] at h
    split at h
    · cases h
    · split at h <;> cases h
      · trivial
      · refine ⟨hprocessed, saved, hrest, hwrote.projection, hwrote.achievements, ?_, hwrote.outbox⟩
        rw [List.map_append, List.map_append, hwrote.badges]
        rfl
  | saveBadgeEvent badge rest =>
    obtain ⟨hprocessed, saved, hrest, hwrote⟩ := hf
    cases h
    refine badgeNext_follows (saved ++ [badge]) hprocessed
      ⟨hwrote.projection, hwrote.achievements, hwrote.badges, ?_⟩ ?_
    · rw [List.map_append, hwrote.outbox, List.map_append, List.append_assoc]
      rfl
    · rw [List.append_assoc]
      exact hrest
  | selectMarker =>
    cases h
    refine ⟨hf.1, hf.2, ?_⟩
    rw [view_processed hf.1]
  | writeMarker found =>
    obtain ⟨hprocessed, hwrote, rfl⟩ := hf
    simp only [statement, decide_eq_true_eq] at h
    split at h
    · next hfound =>
      cases h
      exact ⟨hprocessed.trans (if_pos hfound).symm, hwrote⟩
    · next hfound =>
      split at h
      · split at h <;> cases h
        · trivial
        · exact ⟨(if_neg hfound).symm, hwrote.projection, hwrote.achievements, hwrote.badges,
            hwrote.outbox⟩
      · cases h
  | commit => exact absurd rfl hpc

/-- What a transaction has written when it commits. -/
theorem follows_commit (hcounts : (Thread.transaction event tx .commit).Counts db)
    (hf : (Thread.transaction event tx .commit).Follows cfg db) :
    tx.anonymous = purchaseTx cfg db event := by
  obtain ⟨hprocessed, hwrote⟩ := hf
  have hstats : tx.stats = some (countPurchase db event.payload) := hcounts.1
  simp only [Tx.anonymous, purchaseTx, Tx.mk.injEq]
  exact ⟨hwrote.projection, hstats, hwrote.achievements, hwrote.badges, hwrote.outbox, hprocessed⟩

end Statement

end Bumpa.Loyalty
