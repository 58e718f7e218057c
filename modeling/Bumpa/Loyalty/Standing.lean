import Bumpa.Loyalty.AchievementState
import Bumpa.Loyalty.EarnedBadges

/-! # What the state of a user shows

`getAchievementState` reads what transactions have left at some time, and others may commit before it
reads the badges. The number and the sum of the user's purchases at both times say what is shown
(`standing`): the achievements that the rules derived, the first one of each group that they did not
derive, the first badge that is not earned later, and what it lacked before.

`shown_standing`: with deliveries at any point, before, after and between the reads, it is what a user
with a purchase is shown; nothing that is shown as available could be unlocked by then.
-/
namespace Bumpa.Loyalty
open Bumpa.Relational Bumpa.Transition
set_option autoImplicit false

/-! ## The standing of a user -/

structure Standing where
  nextAvailableAchievements : List String
  nextBadge : String
  remainingToUnlockNextBadge : ℤ

def AchievementStateResponse.standing (response : AchievementStateResponse) : Standing where
  nextAvailableAchievements := response.nextAvailableAchievements
  nextBadge := response.nextBadge
  remainingToUnlockNextBadge := response.remainingToUnlockNextBadge

section Standing
open Classical

/-- The first achievement of each group that is not achieved. -/
noncomputable def nextOf (configs : List AchievementConfig) (unlocked : Set String) : List String :=
  (configs.map (·.groupKey)).eraseDups.filterMap fun groupKey =>
    ((configs.filter (·.groupKey = groupKey)).find? (·.id ∉ unlocked)).map (·.name)

/-- The first badge that is not earned. -/
noncomputable def nextEarned (cfg : Config) (counters : Counters) : Option BadgeConfig :=
  cfg.activeBadges.find? fun badge => ¬ Earns cfg counters badge

/-- How many achievements a badge lacks, of any and of the required ones. -/
noncomputable def lacking (badge : BadgeConfig) (unlocked : Set String) : ℤ :=
  max (max (badge.requiredAchievementCount - unlocked.ncard : ℤ)
    (badge.requiredAchievementIds.filter (· ∉ unlocked)).length) 0

/-- `counters`: when the achievements are read. `later`: when the badges are read. -/
noncomputable def standing (cfg : Config) (counters later : Counters) : Standing where
  nextAvailableAchievements := nextOf cfg.activeAchievements (achieved cfg counters)
  nextBadge := ((nextEarned cfg later).map (·.name)).getD ""
  remainingToUnlockNextBadge :=
    ((nextEarned cfg later).map fun badge => lacking badge (achieved cfg counters)).getD 0

variable {cfg : Config} {counters : Counters} {ids : List String} {badge : BadgeConfig}

theorem nextAvailable_eq (configs : List AchievementConfig) (ids : List String) :
    nextAvailableAchievements configs ids = nextOf configs (idSet ids) := by
  unfold nextAvailableAchievements nextOf
  congr 1
  funext groupKey
  congr 2
  funext config
  exact decide_eq_decide.mpr Iff.rfl

theorem remaining_eq_lacking (hnodup : ids.Nodup) (badge : BadgeConfig) :
    remainingToUnlock badge ids.length ids = lacking badge (idSet ids) := by
  have hmissing : missingRequiredAchievementIds badge ids =
      badge.requiredAchievementIds.filter (· ∉ idSet ids) :=
    List.filter_congr fun id _ => decide_eq_decide.mpr Iff.rfl
  rw [remainingToUnlock, lacking, idSet_ncard hnodup, hmissing]

/-- What is not achieved has a rule that does not hold. -/
theorem not_achieved {config : AchievementConfig} (hmem : config ∈ cfg.activeAchievements)
    (h : config.id ∉ achieved cfg counters) :
    ¬ Holds counters (achieved cfg counters) config.rule := by
  have hclosed : unlocks counters cfg.activeAchievements (achieved cfg counters) ≤
    achieved cfg counters := Order.map_saturation_le
  exact fun hholds => h (hclosed ⟨config, hmem, rfl, hholds⟩)

/-- Of a badge that is not earned something is lacking. -/
theorem lacking_eq_zero (hids : idSet ids = achieved cfg counters) (hnodup : ids.Nodup)
    (badge : BadgeConfig) :
    lacking badge (achieved cfg counters) = 0 ↔ Earns cfg counters badge := by
  rw [← hids, ← remaining_eq_lacking hnodup, remaining_eq_zero, earns_iff hids hnodup]

theorem nextEarned_eq_none :
    nextEarned cfg counters = none ↔ ∀ badge ∈ cfg.activeBadges, Earns cfg counters badge := by
  simp [nextEarned, List.find?_eq_none]

theorem nextEarned_eq_some (h : nextEarned cfg counters = some badge) :
    badge ∈ cfg.activeBadges ∧ ¬ Earns cfg counters badge :=
  ⟨List.mem_of_find?_eq_some h, by simpa using List.find?_some h⟩

end Standing

/-! ## What is shown -/

/-- The configuration is what the tables hold. -/
structure Config.Stored (cfg : Config) (c : Catalog) : Prop where
  achievements : cfg.achievements = c.achievements.rows
  badges : cfg.badges = c.badges.rows

section Shown
variable {cfg : Config} {c : Catalog} {db first third : Database} {userId : String}
  {counters later : Counters} {unlockedAt : UnlockedAt}

theorem Config.Stored.activeAchievements (h : cfg.Stored c) :
    cfg.activeAchievements = c.activeAchievements := by
  rw [Config.activeAchievements, Catalog.activeAchievements, h.achievements]

theorem Config.Stored.activeBadges (h : cfg.Stored c) : cfg.activeBadges = c.activeBadges := by
  rw [Config.activeBadges, Catalog.activeBadges, h.badges]

/-- What a user has unlocked is what these counters earn. -/
structure EarnedAt (cfg : Config) (db : Database) (userId : String) (counters : Counters) : Prop where
  achievements : idSet (db.achievementIds userId) = achieved cfg counters
  distinct : (db.achievementIds userId).Nodup
  badges : ∀ id, id ∈ db.badgeIds userId ↔
    ∃ badge ∈ cfg.activeBadges, badge.id = id ∧ Earns cfg counters badge

theorem reaches_earnedAt {tr : List (Move State Label)} {s : State} (hkeyed : cfg.Keyed)
    (hcfg : cfg.OwnSnapshots) (h : Reaches cfg tr s) (hsome : commitsFor cfg s userId ≠ []) :
    EarnedAt cfg s.world.db userId (s.world.db.counters userId) where
  achievements := (reaches_achieved hkeyed hcfg h hsome).1
  distinct := (reaches_achieved hkeyed hcfg h hsome).2
  badges := fun id =>
    (reaches_badges hkeyed hcfg h userId id).trans (and_iff_right hsome)

theorem nextBadge_earned (hc : cfg.Stored c) (h : EarnedAt cfg db userId counters) :
    c.nextBadge (db.badgeIds userId) = nextEarned cfg counters := by
  rw [Catalog.nextBadge, nextEarned, hc.activeBadges, ← List.head?_filter, ← List.head?_filter]
  refine congrArg _ (List.filter_congr fun badge hmem => decide_eq_decide.mpr (not_congr ?_))
  rw [h.badges]
  constructor
  · rintro ⟨badge', hmem', hid, hearns⟩
    rw [hc.activeBadges] at hmem'
    exact activeBadges_eq hmem' hmem hid ▸ hearns
  · exact fun hearns => ⟨badge, hc.activeBadges ▸ hmem, rfl, hearns⟩

/-- The ids of the achievements of a user, in the order in which they are shown. -/
def shownIds (db : Database) (unlockedAt : UnlockedAt) (userId : String) : List String :=
  ((db.achievements.filter (·.userId = userId)).insertionSort fun a b =>
    unlockedAt.achievement a ≤ unlockedAt.achievement b).map (·.achievementId)

theorem shownIds_perm (db : Database) (unlockedAt : UnlockedAt) (userId : String) :
    (shownIds db unlockedAt userId).Perm (db.achievementIds userId) :=
  (List.perm_insertionSort _ _).map _

theorem shownBadgeIds_perm (db : Database) (unlockedAt : UnlockedAt) (userId : String) :
    (((db.badges.filter (·.userId = userId)).insertionSort fun a b =>
      unlockedAt.badge a ≤ unlockedAt.badge b).map (·.badgeId)).Perm (db.badgeIds userId) :=
  (List.perm_insertionSort _ _).map _

theorem EarnedAt.shownIds (h : EarnedAt cfg db userId counters) (unlockedAt : UnlockedAt) :
    idSet (shownIds db unlockedAt userId) = achieved cfg counters ∧
      (Loyalty.shownIds db unlockedAt userId).Nodup := by
  have hperm := shownIds_perm db unlockedAt userId
  refine ⟨?_, hperm.nodup_iff.mpr h.distinct⟩
  rw [← h.achievements]
  ext id
  exact hperm.mem_iff

theorem shown_next (hc : cfg.Stored c) (h : EarnedAt cfg first userId counters)
    (h' : EarnedAt cfg third userId later) (unlockedAt : UnlockedAt) :
    (getAchievementState c first third unlockedAt userId).standing = standing cfg counters later := by
  obtain ⟨hset, hnodup⟩ := h.shownIds unlockedAt
  have hnext := nextBadge_earned hc h'
  rw [← nextBadge_congr fun id => (shownBadgeIds_perm third unlockedAt userId).mem_iff] at hnext
  have hremaining : ∀ badge, remainingToUnlock badge (shownIds first unlockedAt userId).length
      (shownIds first unlockedAt userId) = lacking badge (achieved cfg counters) := fun badge => by
    rw [← hset, remaining_eq_lacking hnodup]
  have hachievements : nextAvailableAchievements c.activeAchievements
      (shownIds first unlockedAt userId) = nextOf cfg.activeAchievements (achieved cfg counters) := by
    rw [nextAvailable_eq, hset, hc.activeAchievements]
  rw [shownIds, List.length_map] at hremaining
  simp only [AchievementStateResponse.standing, standing, getAchievementState, getBadgeState, hnext,
    Standing.mk.injEq, hremaining]
  exact ⟨hachievements, trivial, trivial⟩

open Classical in
/-- Every achievement that is achieved is shown once, and no other. -/
theorem shown_unlocked (hkeyed : cfg.Keyed) (hc : cfg.Stored c)
    (h : EarnedAt cfg first userId counters) :
    (getAchievementState c first third unlockedAt userId).unlockedAchievements.Perm
      ((cfg.activeAchievements.filter (·.id ∈ achieved cfg counters)).map (·.name)) := by
  obtain ⟨hset, hnodup⟩ := h.shownIds unlockedAt
  have hrows : ((first.achievements.filter (·.userId = userId)).insertionSort fun a b =>
      unlockedAt.achievement a ≤ unlockedAt.achievement b).filterMap
        (fun item => c.achievements.row item.achievementId) =
      (shownIds first unlockedAt userId).filterMap c.achievements.row := by
    rw [shownIds, List.filterMap_map]
    rfl
  simp only [getAchievementState, hrows]
  refine List.Perm.map _ ((List.perm_ext_iff_of_nodup ?_ ?_).mpr fun config => ?_)
  · refine hnodup.filterMap fun id id' config hid hid' => ?_
    rw [← c.achievements.key_eq hid, ← c.achievements.key_eq hid']
  · exact (activeAchievements_nodup hkeyed).of_map.filter _
  · rw [List.mem_filterMap, List.mem_filter, decide_eq_true_eq, ← hset]
    constructor
    · rintro ⟨id, hid, hrow⟩
      have hkey := c.achievements.key_eq hrow
      have hachieved : id ∈ achieved cfg counters := hset ▸ hid
      obtain ⟨config', hmem, hid'⟩ := List.mem_map.mp (achieved_subset cfg counters hachieved)
      have hrow' := hmem
      rw [hc.activeAchievements, Catalog.activeAchievements, List.mem_insertionSort, List.mem_filter,
        Table.mem_rows, hid', hrow, Option.some.injEq] at hrow'
      exact ⟨hrow'.1 ▸ hmem, hkey ▸ hid⟩
    · rintro ⟨hmem, hid⟩
      rw [hc.activeAchievements, Catalog.activeAchievements, List.mem_insertionSort, List.mem_filter,
        Table.mem_rows] at hmem
      exact ⟨config.id, hid, hmem.1⟩

theorem mem_shownBadges (hc : cfg.Stored c) (h : EarnedAt cfg db userId counters)
    (unlockedAt : UnlockedAt) (badge : BadgeConfig) :
    badge ∈ ((db.badges.filter (·.userId = userId)).insertionSort fun a b =>
      unlockedAt.badge a ≤ unlockedAt.badge b).filterMap (fun item => c.badges.row item.badgeId) ↔
        badge ∈ cfg.activeBadges ∧ Earns cfg counters badge := by
  have hids : badge ∈ ((db.badges.filter (·.userId = userId)).insertionSort fun a b =>
      unlockedAt.badge a ≤ unlockedAt.badge b).filterMap (fun item => c.badges.row item.badgeId) ↔
        ∃ id ∈ db.badgeIds userId, c.badges.row id = some badge := by
    rw [← Function.comp_def c.badges.row UserBadge.badgeId, ← List.filterMap_map,
      List.mem_filterMap]
    simp only [(shownBadgeIds_perm db unlockedAt userId).mem_iff]
  rw [hids]
  constructor
  · rintro ⟨id, hid, hrow⟩
    obtain ⟨badge', hmem, rfl, hearns⟩ := (h.badges id).mp hid
    have hrow' := hmem
    rw [hc.activeBadges, Catalog.activeBadges, List.mem_insertionSort, List.mem_filter,
      Table.mem_rows, hrow, Option.some.injEq] at hrow'
    rw [hrow'.1]
    exact ⟨hmem, hearns⟩
  · rintro ⟨hmem, hearns⟩
    refine ⟨badge.id, (h.badges _).mpr ⟨badge, hmem, rfl, hearns⟩, ?_⟩
    rw [hc.activeBadges, Catalog.activeBadges, List.mem_insertionSort, List.mem_filter,
      Table.mem_rows] at hmem
    exact hmem.1

theorem head_of_sorted {α : Type} {r : α → α → Prop} {x : α} {xs : List α}
    (hsorted : (x :: xs).Pairwise r) (hrefl : r x x) : ∀ y ∈ x :: xs, r x y := by
  intro y hy
  obtain rfl | hy := List.mem_cons.mp hy
  · exact hrefl
  · exact (List.pairwise_cons.mp hsorted).1 y hy

/-- No badge that is earned comes after the one that is shown as the current one. -/
inductive CurrentBadge (cfg : Config) (counters : Counters) : String → Prop
  | none (h : ∀ badge ∈ cfg.activeBadges, ¬ Earns cfg counters badge) : CurrentBadge cfg counters ""
  | some (badge : BadgeConfig) (hmem : badge ∈ cfg.activeBadges) (hearns : Earns cfg counters badge)
      (hlast : ∀ badge' ∈ cfg.activeBadges, Earns cfg counters badge' →
        badge'.sortOrder ≤ badge.sortOrder) : CurrentBadge cfg counters badge.name

theorem shown_current (hc : cfg.Stored c) (h : EarnedAt cfg third userId later) :
    CurrentBadge cfg later (getAchievementState c first third unlockedAt userId).currentBadge := by
  have htotal : Std.Total fun left right : BadgeConfig => right.sortOrder ≤ left.sortOrder :=
    ⟨fun left right => Nat.le_total right.sortOrder left.sortOrder⟩
  have htrans : IsTrans BadgeConfig fun left right => right.sortOrder ≤ left.sortOrder :=
    ⟨fun _ _ _ hle hle' => Nat.le_trans hle' hle⟩
  have hmem := mem_shownBadges hc h unlockedAt
  generalize hshown : ((third.badges.filter (·.userId = userId)).insertionSort fun a b =>
    unlockedAt.badge a ≤ unlockedAt.badge b).filterMap (fun item => c.badges.row item.badgeId) =
      shown at hmem
  have hsorted := List.pairwise_insertionSort
    (fun left right : BadgeConfig => right.sortOrder ≤ left.sortOrder) shown
  have hperm := List.perm_insertionSort
    (fun left right : BadgeConfig => right.sortOrder ≤ left.sortOrder) shown
  simp only [getAchievementState, getBadgeState, hshown]
  generalize shown.insertionSort (fun left right : BadgeConfig =>
    right.sortOrder ≤ left.sortOrder) = sorted at hsorted hperm
  cases sorted with
  | nil =>
    refine .none fun badge hactive hearns => ?_
    have hin := hperm.mem_iff.mpr ((hmem badge).mpr ⟨hactive, hearns⟩)
    exact absurd hin List.not_mem_nil
  | cons badge rest =>
    obtain ⟨hactive, hearns⟩ := (hmem badge).mp (hperm.mem_iff.mp List.mem_cons_self)
    refine .some badge hactive hearns fun badge' hactive' hearns' => ?_
    exact head_of_sorted hsorted le_rfl badge' (hperm.mem_iff.mpr ((hmem badge').mpr ⟨hactive', hearns'⟩))

/-- Nothing is left to unlock: a badge that is not earned later lacked something before. -/
theorem shown_complete (hc : cfg.Stored c) (h : EarnedAt cfg first userId counters)
    (h' : EarnedAt cfg third userId later) (hle : counters ≤ later) :
    (getAchievementState c first third unlockedAt userId).remainingToUnlockNextBadge = 0 ↔
      ∀ badge ∈ cfg.activeBadges, Earns cfg later badge := by
  have hremaining := congrArg Standing.remainingToUnlockNextBadge (shown_next hc h h' unlockedAt)
  change (getAchievementState c first third unlockedAt userId).remainingToUnlockNextBadge = _
    at hremaining
  rw [hremaining, ← nextEarned_eq_none, standing]
  cases hnext : nextEarned cfg later with
  | none => exact iff_of_true rfl rfl
  | some badge =>
    refine iff_of_false (fun hzero => ?_) (by simp)
    have hearns := (lacking_eq_zero h.achievements h.distinct badge).mp hzero
    exact (nextEarned_eq_some hnext).2 (hearns.mono hle)

/-- No achievement that is shown as available has a rule that holds by then. -/
theorem available_locked (hc : cfg.Stored c) (h : EarnedAt cfg first userId counters)
    (h' : EarnedAt cfg third userId later) {name : String}
    (hname : name ∈ (getAchievementState c first third unlockedAt userId).nextAvailableAchievements) :
    ∃ config ∈ cfg.activeAchievements, config.name = name ∧
      config.id ∉ first.achievementIds userId ∧
      evaluate (counters.context (first.achievementIds userId)) config.rule ≠ .ok true := by
  have hnext := congrArg Standing.nextAvailableAchievements (shown_next hc h h' unlockedAt)
  change (getAchievementState c first third unlockedAt userId).nextAvailableAchievements = _ at hnext
  rw [hnext, standing, nextOf] at hname
  obtain ⟨groupKey, -, hfirst⟩ := List.mem_filterMap.mp hname
  obtain ⟨config, hfind, rfl⟩ := Option.map_eq_some_iff.mp hfirst
  have hmem := (List.mem_filter.mp (List.mem_of_find?_eq_some hfind)).1
  have hnot : config.id ∉ achieved cfg counters := by simpa using List.find?_some hfind
  refine ⟨config, hmem, rfl, fun hin => hnot (h.achievements ▸ hin), fun heval => ?_⟩
  have hholds := (evaluate_eq_true_iff _ _).mp heval
  exact not_achieved hmem hnot (h.achievements ▸ hholds)

end Shown

/-! ## Between the reads -/

section Between
variable {cfg : Config} {tr tr' : List (Move State Label)} {s s' : State} {userId : String}

/-- Commits are only added. -/
theorem run_commits (hcfg : cfg.OwnSnapshots) (h : Reaches cfg tr s)
    (h' : Run (step cfg) s tr' s') : s.world.commits <+: s'.world.commits := by
  have hboth := Run.invariant (fun t => Serial cfg t ∧ s.world.commits <+: t.world.commits)
    (fun t l t' ht hstep => ?_) h' ⟨reaches_serial hcfg h, List.prefix_refl _⟩
  · exact hboth.2
  · obtain ⟨hserial, ⟨hsame, -⟩ | ⟨eventId, hnew, -⟩⟩ := step_serial hcfg ht.1 hstep
    · exact ⟨hserial, hsame ▸ ht.2⟩
    · exact ⟨hserial, hnew ▸ ht.2.trans (List.prefix_append _ _)⟩

theorem run_counters (hcfg : cfg.OwnSnapshots) (h : Reaches cfg tr s)
    (h' : Run (step cfg) s tr' s') :
    s.world.db.counters userId ≤ s'.world.db.counters userId := by
  have hs := reaches_serial hcfg h
  have hs' := reaches_serial hcfg (h.trans h')
  have hearlier : commitsFor cfg s userId <+: commitsFor cfg s' userId :=
    (run_commits hcfg h h').filter _
  refine ⟨?_, ?_⟩
  · change s.world.db.purchaseCount userId ≤ s'.world.db.purchaseCount userId
    rw [hs.purchaseCount, hs'.purchaseCount]
    exact hearlier.length_le
  · change s.world.db.totalSpendKobo userId ≤ s'.world.db.totalSpendKobo userId
    rw [hs.totalSpendKobo, hs'.totalSpendKobo]
    exact Int4.sum_le_of_prefix (hearlier.map _)

end Between

section Shows
open Classical

/-- What is shown is what the counters of the user earn: as to achievements those of the first read,
as to badges those of the third one. -/
structure Shows (cfg : Config) (first third : Database) (userId : String)
    (response : AchievementStateResponse) : Prop where
  unlocked : response.unlockedAchievements.Perm ((cfg.activeAchievements.filter
    (·.id ∈ achieved cfg (first.counters userId))).map (·.name))
  current : CurrentBadge cfg (third.counters userId) response.currentBadge
  next : response.standing = standing cfg (first.counters userId) (third.counters userId)
  complete : response.remainingToUnlockNextBadge = 0 ↔
    ∀ badge ∈ cfg.activeBadges, Earns cfg (third.counters userId) badge
  locked : ∀ name ∈ response.nextAvailableAchievements, ∃ config ∈ cfg.activeAchievements,
    config.name = name ∧ config.id ∉ first.achievementIds userId ∧
      evaluate ((first.counters userId).context (first.achievementIds userId)) config.rule ≠ .ok true

/-- Whatever is committed between the reads, a user with a purchase is shown what the rules derive
from their purchases. -/
theorem shown_standing {cfg : Config} {c : Catalog} {tr tr' : List (Move State Label)} {s s' : State}
    {userId : String} (hkeyed : cfg.Keyed) (hcfg : cfg.OwnSnapshots) (hc : cfg.Stored c)
    (h : Reaches cfg tr s) (h' : Run (step cfg) s tr' s') (hsome : commitsFor cfg s userId ≠ [])
    (unlockedAt : UnlockedAt) : Shows cfg s.world.db s'.world.db userId
      (getAchievementState c s.world.db s'.world.db unlockedAt userId) := by
  have hearlier : commitsFor cfg s userId <+: commitsFor cfg s' userId :=
    (run_commits hcfg h h').filter _
  have hfirst := reaches_earnedAt hkeyed hcfg h hsome
  have hthird := reaches_earnedAt hkeyed hcfg (h.trans h') (hearlier.ne_nil hsome)
  exact ⟨shown_unlocked hkeyed hc hfirst, shown_current hc hthird, shown_next hc hfirst hthird _,
    shown_complete hc hfirst hthird (run_counters hcfg h h'),
    fun _ => available_locked hc hfirst hthird⟩

end Shows

/-- The tables that hold the configuration. -/
def firstPurchaseCatalog : Catalog :=
  ⟨Table.empty, insertAll firstPurchaseConfig.achievements, insertAll firstPurchaseConfig.badges⟩

theorem firstPurchase_stored : firstPurchaseConfig.Stored firstPurchaseCatalog := ⟨rfl, rfl⟩

/-- One purchase, and a second one that is committed between the reads. -/
theorem shown_standing_purchased : ∃ tr s tr' s', Reaches firstPurchaseConfig tr s ∧
    Run (step firstPurchaseConfig) s tr' s' ∧
    s.world.db.purchaseCount "usr" = 1 ∧ s'.world.db.purchaseCount "usr" = 2 ∧
    Shows firstPurchaseConfig s.world.db s'.world.db "usr"
      (getAchievementState firstPurchaseCatalog s.world.db s'.world.db ⟨fun _ => 0, fun _ => 0⟩
        "usr") := by
  obtain ⟨tr, s, h, hp⟩ := exists_run_of_trace (step firstPurchaseConfig) initial
    (.deliver 0 :: Label.oks 0 18)
    (fun r => decide (commitsFor firstPurchaseConfig r.2 "usr" ≠ []) &&
      decide (r.2.world.db.purchaseCount "usr" = 1) &&
      (trace (step firstPurchaseConfig) r.2 (.deliver 1 :: Label.oks 1 14)).any
        fun r' : List (Move State Label) × State =>
          decide (r'.2.world.db.purchaseCount "usr" = 2)) (by decide +kernel)
  simp only [Bool.and_eq_true, decide_eq_true_eq] at hp
  obtain ⟨⟨hsome, hcount⟩, hlater⟩ := hp
  obtain ⟨tr', s', h', hcount'⟩ := exists_run_of_trace (step firstPurchaseConfig) s
    (.deliver 1 :: Label.oks 1 14) (fun r => decide (r.2.world.db.purchaseCount "usr" = 2)) hlater
  exact ⟨tr, s, tr', s', h, h', hcount, of_decide_eq_true hcount',
    shown_standing ⟨by decide, by decide⟩ firstPurchase_ownSnapshots firstPurchase_stored h h' hsome _⟩

end Bumpa.Loyalty
