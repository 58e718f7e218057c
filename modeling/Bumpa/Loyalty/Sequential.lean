import Bumpa.Loyalty.PurchaseTransaction

/-! # Purchases one after another

`Processes` runs deliveries of `handlePurchaseCompleted` on a database that nobody else uses. Each
of them completes (`alone_purchase`) and does what `purchase` says, up to fresh ids: nothing for an
event that is processed already or that the stats have no room for, and `purchaseTx` for another one.
-/
namespace Bumpa.Loyalty
open Bumpa.Events Bumpa.Relational Bumpa.Transition
set_option autoImplicit false

/-- An execution from here to its end, while no other transaction is open and no call fails but for
what the database refuses. -/
inductive Alone (cfg : Config) : World → Thread → World → Prop
  | done {w : World} : Alone cfg w .done w
  | step {w w' w'' : World} {th th' : Thread} (first : advance cfg w [] th .ok = some (w', th'))
      (rest : Alone cfg w' th' w'') : Alone cfg w th w''

/-- Deliveries of these events, each after the end of the one before. -/
inductive Processes (cfg : Config) : World → List ReadableId → World → Prop
  | nil {w : World} : Processes cfg w [] w
  | cons {w w' w'' : World} {eventId : ReadableId} {eventIds : List ReadableId}
      (first : Alone cfg w (.alreadyProcessed (cfg.event eventId)) w')
      (rest : Processes cfg w' eventIds w'') : Processes cfg w (eventId :: eventIds) w''

theorem Alone.unique {cfg : Config} {w w₁ w₂ : World} {th : Thread} (h₁ : Alone cfg w th w₁)
    (h₂ : Alone cfg w th w₂) : w₁ = w₂ := by
  induction h₁ with
  | done =>
    cases h₂ with
    | done => rfl
    | step first _ => cases first
  | step first _ ih =>
    cases h₂ with
    | done => cases first
    | step first' rest' =>
      obtain ⟨rfl, rfl⟩ := Prod.mk.inj (Option.some.inj (first.symm.trans first'))
      exact ih rest'

theorem Processes.unique {cfg : Config} {w w₁ w₂ : World} {eventIds : List ReadableId}
    (h₁ : Processes cfg w eventIds w₁) (h₂ : Processes cfg w eventIds w₂) : w₁ = w₂ := by
  induction h₁ with
  | nil =>
    cases h₂
    rfl
  | cons first _ ih =>
    cases h₂ with
    | cons first' rest' =>
      cases first.unique first'
      exact ih rest'

/-! ## A transaction completes -/

/-- The achievements the loop has yet to save. -/
def achievementsLeft (cfg : Config) (db : Database) (event : PurchaseCompletedEvent) (tx : Tx) : ℕ :=
  (newAchievements cfg db event).length - tx.achievements.length

/-- A bound on the statements before the COMMIT. -/
def Pc.remaining (cfg : Config) (db : Database) (event : PurchaseCompletedEvent) (tx : Tx) :
    Pc → ℕ
  | .upsert => 2 * (achievementsLeft cfg db event tx + cfg.activeBadges.length) + 15
  | .findStats => 2 * (achievementsLeft cfg db event tx + cfg.activeBadges.length) + 14
  | .selectStats _ => 2 * (achievementsLeft cfg db event tx + cfg.activeBadges.length) + 13
  | .writeStats _ _ => 2 * (achievementsLeft cfg db event tx + cfg.activeBadges.length) + 12
  | .findConfigs _ => 2 * (achievementsLeft cfg db event tx + cfg.activeBadges.length) + 11
  | .findAchievements _ _ => 2 * (achievementsLeft cfg db event tx + cfg.activeBadges.length) + 10
  | .saveAchievementEvent _ _ =>
    2 * (achievementsLeft cfg db event tx + cfg.activeBadges.length) + 9
  | .saveAchievement _ _ => 2 * (achievementsLeft cfg db event tx + cfg.activeBadges.length) + 8
  | .findUnlocked => 2 * cfg.activeBadges.length + 7
  | .findBadges _ => 2 * cfg.activeBadges.length + 6
  | .findUserBadges _ badges => 2 * badges.length + 5
  | .saveBadge _ rest => 2 * rest.length + 4
  | .saveBadgeEvent _ rest => 2 * rest.length + 3
  | .selectMarker => 2
  | .writeMarker _ => 1
  | .commit => 0

section Transaction
variable {cfg : Config} {w : World} {event : PurchaseCompletedEvent} {tx : Tx} {pc : Pc}

theorem unlockNext_remaining (cfg : Config) (db : Database) (event : PurchaseCompletedEvent)
    (tx : Tx) (loop : UnlockLoop) : (unlockNext loop).remaining cfg db event tx ≤
      2 * (achievementsLeft cfg db event tx + cfg.activeBadges.length) + 8 := by
  unfold unlockNext
  split <;> simp only [Pc.remaining] <;> omega

theorem badgeNext_remaining (cfg : Config) (db : Database) (event : PurchaseCompletedEvent)
    (tx : Tx) (badges : List BadgeConfig) :
    (badgeNext badges).remaining cfg db event tx ≤ 2 * badges.length + 2 := by
  cases badges with
  | nil => exact Nat.le_refl _
  | cons badge rest =>
    simp only [badgeNext, Pc.remaining, List.length_cons]
    omega

/-- The config that the loop saves next is new. -/
theorem next_achievement (hcfg : cfg.Keyed) {saved later : List AchievementConfig}
    {config : AchievementConfig} {db : Database}
    (hall : saved ++ [config] ++ later = newAchievements cfg db event) :
    config.id ∉ db.achievementIds event.payload.userId ++ saved.map (·.id) ∧
      saved.length < (newAchievements cfg db event).length := by
  have hnew := unlockAchievements_new (countPurchase db event.payload).counters
    (activeAchievements_nodup hcfg) (db.achievementIds event.payload.userId)
  rw [← newAchievements, ← hall, List.append_assoc, List.map_append, List.nodup_append'] at hnew
  obtain ⟨⟨_, _, hdisjoint⟩, hfresh⟩ := hnew
  have hmem : config.id ∈ ([config] ++ later).map (·.id) := List.mem_cons_self
  constructor
  · rw [List.mem_append, not_or]
    exact ⟨hfresh _ (List.mem_append_right _ hmem), fun hsaved => hdisjoint hsaved hmem⟩
  · rw [← hall, List.append_assoc, List.length_append, List.length_append, List.length_singleton]
    omega

theorem next_badge (hcfg : cfg.Keyed) {saved rest : List BadgeConfig} {badge : BadgeConfig}
    {db : Database} (hall : saved ++ badge :: rest = newBadges cfg db event) :
    badge.id ∉ db.badgeIds event.payload.userId ++ saved.map (·.id) := by
  have hmem : badge ∈ newBadges cfg db event := by
    rw [← hall]
    exact List.mem_append_right _ List.mem_cons_self
  have hdistinct : ((newBadges cfg db event).map (·.id)).Nodup :=
    (activeBadges_nodup hcfg).sublist (List.filter_sublist.map _)
  rw [← hall, List.map_append, List.nodup_append'] at hdistinct
  have hnew := (List.mem_filter.mp hmem).2
  rw [Bool.and_eq_true, decide_eq_true_eq] at hnew
  rw [List.mem_append, not_or]
  exact ⟨hnew.1, fun hsaved => hdistinct.2.2 hsaved List.mem_cons_self⟩

/-- Alone, a transaction whose purchase fits neither waits nor fails, and comes closer to its
COMMIT. -/
theorem statement_alone (hcfg : cfg.Keyed) (hpc : pc ≠ .commit)
    (hcountable : w.db.Countable event.payload) (hcounts : (Thread.transaction event tx pc).Counts w.db) (hf : pc.Follows cfg w.db event tx) :
    ∃ w' tx' pc', statement cfg w [] event tx pc = some (w', .transaction event tx' pc') ∧
      pc'.remaining cfg w.db event tx' < pc.remaining cfg w.db event tx := by
  cases pc with
  | upsert => exact ⟨_, _, _, rfl, Nat.lt_succ_self _⟩
  | writeStats stats selected =>
    obtain ⟨hnone, rfl, rfl⟩ := hcounts
    have hne := counted_ne w.db event.payload
    refine ⟨w, { tx with stats := some (countPurchase w.db event.payload) },
      .findConfigs (countPurchase w.db event.payload), ?_, Nat.lt_succ_self _⟩
    have hrange : UserStats.outOfRange (w.db.stats.row event.payload.userId)
        (countPurchase w.db event.payload) = false := hcountable
    simp only [statement, view_stats hnone, countPurchase_userId, hne, if_false, hrange,
      Bool.false_eq_true, List.all_nil, if_true]
    cases hrow : w.db.stats.row event.payload.userId with
    | none => rfl
    | some row => simp only [updated_counted hrow]
  | findAchievements stats configs =>
    refine ⟨_, _, _, rfl, Nat.lt_of_le_of_lt (unlockNext_remaining cfg w.db event tx _) ?_⟩
    simp only [Pc.remaining]
    omega
  | saveAchievement loop config =>
    obtain ⟨_, saved, hwrote, hfinishes⟩ := hf
    obtain ⟨later, hlater⟩ := hfinishes.adds
    obtain ⟨hfree, hlt⟩ := next_achievement hcfg hlater
    have hlength := congrArg List.length hwrote.achievements
    rw [List.length_map, List.length_map] at hlength
    rw [← hwrote.achievementIds] at hfree
    have hsave : statement cfg w [] event tx (.saveAchievement loop config) =
        some ({ w with nextId := w.nextId + 1 }, .transaction event
          { tx with achievements :=
              tx.achievements ++ [⟨w.nextId, event.payload.userId, config.id⟩] }
          (.saveAchievementEvent (loop.unlocked config) config)) := by
      simp only [statement, List.any_nil, Bool.false_eq_true, if_false, hfree]
    refine ⟨_, _, _, hsave, ?_⟩
    simp only [Pc.remaining, achievementsLeft, List.length_append, List.length_singleton]
    omega
  | saveAchievementEvent loop config =>
    refine ⟨_, _, _, rfl, Nat.lt_of_le_of_lt (unlockNext_remaining cfg w.db event _ _) ?_⟩
    simp only [Pc.remaining, achievementsLeft]
    omega
  | findUserBadges achievementIds badges =>
    refine ⟨_, _, _, rfl, Nat.lt_of_le_of_lt (badgeNext_remaining cfg w.db event tx _) ?_⟩
    have hle := List.length_filter_le (fun badge : BadgeConfig =>
      badge.id ∉ (tx.view w.db).badgeIds event.payload.userId &&
        meetsBadgeRequirement badge achievementIds.length achievementIds) badges
    simp only [Pc.remaining]
    omega
  | saveBadge badge rest =>
    obtain ⟨_, saved, hrest, hwrote⟩ := hf
    have hfree := next_badge hcfg hrest
    rw [← hwrote.badgeIds] at hfree
    have hsave : statement cfg w [] event tx (.saveBadge badge rest) =
        some ({ w with nextId := w.nextId + 1 }, .transaction event
          { tx with badges := tx.badges ++ [⟨w.nextId, event.payload.userId, badge.id⟩] }
          (.saveBadgeEvent badge rest)) := by
      simp only [statement, List.any_nil, Bool.false_eq_true, if_false, hfree]
    exact ⟨_, _, _, hsave, Nat.lt_succ_self _⟩
  | saveBadgeEvent badge rest =>
    refine ⟨_, _, _, rfl, Nat.lt_of_le_of_lt (badgeNext_remaining cfg w.db event _ _) ?_⟩
    exact Nat.lt_succ_self _
  | writeMarker found =>
    obtain ⟨hprocessed, _, rfl⟩ := hf
    by_cases hfound : event.eventId ∈ w.db.processed
    · exact ⟨_, _, _, if_pos (decide_eq_true hfound), Nat.zero_lt_one⟩
    · have hmark : statement cfg w [] event tx (.writeMarker (event.eventId ∈ w.db.processed)) =
          some (w, .transaction event { tx with processed := some event.eventId } .commit) := by
        simp only [statement, hfound, decide_false, Bool.false_eq_true, if_false, List.all_nil,
          if_true, view_processed hprocessed]
      exact ⟨_, _, _, hmark, Nat.zero_lt_one⟩
  | commit => exact absurd rfl hpc
  | _ => exact ⟨_, _, _, rfl, by simp only [Pc.remaining]; omega⟩

theorem alone_transaction (hcfg : cfg.Keyed) (hcountable : w.db.Countable event.payload)
    (hcounts : (Thread.transaction event tx pc).Counts w.db) (hf : pc.Follows cfg w.db event tx) :
    ∃ w', Alone cfg w (.transaction event tx pc) w' ∧
      w'.db.SameUpToIds ((purchaseTx cfg w.db event).view w.db) := by
  induction hn : pc.remaining cfg w.db event tx using Nat.strong_induction_on
    generalizing w tx pc with
  | _ n ih =>
    by_cases hpc : pc = .commit
    · subst hpc
      refine ⟨_, .step rfl (.step rfl .done), view_sameUpToIds (.refl w.db) ?_⟩
      rw [purchaseTx_anonymous, follows_commit hcounts hf]
    · obtain ⟨w', tx', pc', hstatement, hlt⟩ := statement_alone hcfg hpc hcountable hcounts hf
      have hcounts' := statement_counts hstatement hpc hcounts
      have hf' := statement_follows hcfg hstatement hpc hcounts hf
      have hdb : w'.db = w.db := by
        rcases statement_frame hstatement with ⟨hcommit, _⟩ | ⟨_, hdb, _⟩
        · exact absurd hcommit hpc
        · exact hdb
      rw [← hdb] at hcountable hcounts' hf' hlt
      obtain ⟨w'', hrest, hsame⟩ := ih _ (hn ▸ hdb ▸ hlt) hcountable hcounts' hf' rfl
      rw [hdb] at hsame
      exact ⟨w'', .step hstatement hrest, hsame⟩

end Transaction

/-! ## A delivery completes -/

/-- A purchase that the stats have no room for is rolled back when they are saved. -/
theorem alone_refused {cfg : Config} {w : World} {eventId : ReadableId}
    (hnew : eventId ∉ w.db.processed) (hrange : ¬w.db.Countable (cfg.payload eventId)) :
    Alone cfg w (.alreadyProcessed (cfg.event eventId)) w := by
  have hbegin : advance cfg w [] (.alreadyProcessed (cfg.event eventId)) .ok =
      some (w, .transaction (cfg.event eventId) Tx.begin .upsert) := if_neg hnew
  refine .step hbegin (.step rfl (.step rfl (.step rfl (.step ?_ .done))))
  have hout : UserStats.outOfRange (w.db.stats.row (cfg.payload eventId).userId)
      (countPurchase w.db (cfg.payload eventId)) = true := by
    rwa [Database.Countable, Bool.not_eq_false] at hrange
  have hne := counted_ne w.db (cfg.payload eventId)
  rw [← countPurchase_userId w.db (cfg.payload eventId)] at hout hne
  exact (if_neg hne).trans (if_pos hout)

theorem alone_purchase {cfg : Config} (hcfg : cfg.Keyed) (w : World) (eventId : ReadableId) :
    ∃ w', Alone cfg w (.alreadyProcessed (cfg.event eventId)) w' ∧
      w'.db.SameUpToIds (purchase cfg w.db eventId) := by
  by_cases hmarked : eventId ∈ w.db.processed
  · have hskip : advance cfg w [] (.alreadyProcessed (cfg.event eventId)) .ok = some (w, .done) :=
      if_pos hmarked
    rw [purchase, if_pos (Or.inl hmarked)]
    exact ⟨w, .step hskip .done, .refl _⟩
  by_cases hcountable : w.db.Countable (cfg.payload eventId)
  · have hbegin : advance cfg w [] (.alreadyProcessed (cfg.event eventId)) .ok =
        some (w, .transaction (cfg.event eventId) Tx.begin .upsert) := if_neg hmarked
    have hcounts : (Thread.transaction (cfg.event eventId) Tx.begin .upsert).Counts w.db := rfl
    have hf : Pc.upsert.Follows cfg w.db (cfg.event eventId) Tx.begin := rfl
    obtain ⟨w', hrest, hsame⟩ := alone_transaction hcfg hcountable hcounts hf
    rw [purchase, if_neg (not_or.mpr ⟨hmarked, not_not_intro hcountable⟩)]
    exact ⟨w', .step hbegin hrest, hsame⟩
  · rw [purchase, if_pos (Or.inr hcountable)]
    exact ⟨w, alone_refused hmarked hcountable, .refl _⟩

/-- Deliveries one after another complete, and fold `purchase`. -/
theorem processes_purchases {cfg : Config} (hcfg : cfg.Keyed) (w : World)
    (eventIds : List ReadableId) : ∃ w', Processes cfg w eventIds w' ∧
      w'.db.SameUpToIds (eventIds.foldl (purchase cfg) w.db) := by
  induction eventIds generalizing w with
  | nil => exact ⟨w, .nil, .refl _⟩
  | cons eventId rest ih =>
    obtain ⟨w', hfirst, hsame⟩ := alone_purchase hcfg w eventId
    obtain ⟨w'', hrest, hsame'⟩ := ih w'
    exact ⟨w'', .cons hfirst hrest, hsame'.trans (foldl_purchase_congr hsame rest)⟩

end Bumpa.Loyalty
