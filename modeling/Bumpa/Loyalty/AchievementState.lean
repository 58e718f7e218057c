import Bumpa.Loyalty.AdminConfigs
import Bumpa.Loyalty.DefaultConfig
import Mathlib.Data.Fintype.EquivFin
import Mathlib.Order.Bounds.Basic

/-! # `LoyaltyService.getAchievementState`

What a user sees of their achievements and badges. `remaining_to_unlock_next_badge` is the larger of
two deficits, of the count and of the required achievements, where `unlockBadges` asks for both.

`remaining_exact_iff`: it is the least number of further achievements with which the next badge is
met, whatever users have unlocked, exactly if no active badge requires an id twice. It is about
requests with nothing committed between their SELECTs.
-/
namespace Bumpa.Loyalty
open Bumpa.Relational
set_option autoImplicit false

structure BadgeState where
  currentBadge : String
  nextBadge : String
  remainingToUnlockNextBadge : ℤ
  deriving DecidableEq, Repr

structure AchievementStateResponse where
  unlockedAchievements : List String
  nextAvailableAchievements : List String
  currentBadge : String
  nextBadge : String
  remainingToUnlockNextBadge : ℤ
  deriving DecidableEq, Repr

/-- The columns `unlockedAt`. -/
structure UnlockedAt where
  achievement : UserAchievement → ℕ
  badge : UserBadge → ℕ

def Catalog.activeAchievements (c : Catalog) : List AchievementConfig :=
  (c.achievements.rows.filter (·.active)).insertionSort fun a b =>
    a.groupKey < b.groupKey ∨ (a.groupKey = b.groupKey ∧ a.sortOrder ≤ b.sortOrder)

def Catalog.activeBadges (c : Catalog) : List BadgeConfig :=
  (c.badges.rows.filter (·.active)).insertionSort (·.sortOrder ≤ ·.sortOrder)

def Catalog.nextBadge (c : Catalog) (unlockedBadgeIds : List String) : Option BadgeConfig :=
  c.activeBadges.find? (·.id ∉ unlockedBadgeIds)

def missingRequiredAchievementIds (badge : BadgeConfig) (unlockedAchievementIds : List String) :
    List String :=
  badge.requiredAchievementIds.filter (· ∉ unlockedAchievementIds)

def remainingToUnlock (badge : BadgeConfig) (achievementCount : ℕ)
    (unlockedAchievementIds : List String) : ℤ :=
  max (max (badge.requiredAchievementCount - achievementCount : ℤ)
    (missingRequiredAchievementIds badge unlockedAchievementIds).length) 0

def getBadgeState (c : Catalog) (db : Database) (unlockedAt : UnlockedAt) (userId : String)
    (achievementCount : ℕ) (unlockedAchievementIds : List String) : BadgeState :=
  let unlockedBadges := (db.badges.filter (·.userId = userId)).insertionSort fun a b =>
    unlockedAt.badge a ≤ unlockedAt.badge b
  let current := ((unlockedBadges.filterMap fun item => c.badges.row item.badgeId).insertionSort
    fun left right => right.sortOrder ≤ left.sortOrder).head?
  let nextBadge := c.nextBadge (unlockedBadges.map (·.badgeId))
  { currentBadge := (current.map (·.name)).getD ""
    nextBadge := (nextBadge.map (·.name)).getD ""
    remainingToUnlockNextBadge := (nextBadge.map fun badge =>
      remainingToUnlock badge achievementCount unlockedAchievementIds).getD 0 }

/-- The groups are in the order of their first achievements. -/
def nextAvailableAchievements (configs : List AchievementConfig)
    (unlockedAchievementIds : List String) : List String :=
  (configs.map (·.groupKey)).eraseDups.filterMap fun groupKey =>
    ((configs.filter (·.groupKey = groupKey)).find? (·.id ∉ unlockedAchievementIds)).map (·.name)

/-- The answer to a request whose SELECTs are of several states: `first` has the user's achievements,
`third` the badges. The configuration, of the second and the fourth one, stays. -/
def getAchievementState (c : Catalog) (first third : Database) (unlockedAt : UnlockedAt)
    (userId : String) : AchievementStateResponse :=
  let unlockedAchievements := (first.achievements.filter (·.userId = userId)).insertionSort
    fun a b => unlockedAt.achievement a ≤ unlockedAt.achievement b
  let unlockedAchievementIds := unlockedAchievements.map (·.achievementId)
  let badgeState := getBadgeState c third unlockedAt userId unlockedAchievements.length
    unlockedAchievementIds
  { unlockedAchievements := (unlockedAchievements.filterMap fun item =>
      c.achievements.row item.achievementId).map (·.name)
    nextAvailableAchievements :=
      nextAvailableAchievements c.activeAchievements unlockedAchievementIds
    currentBadge := badgeState.currentBadge
    nextBadge := badgeState.nextBadge
    remainingToUnlockNextBadge := badgeState.remainingToUnlockNextBadge }

/-! ## What remains -/

/-- The badges `unlockBadges` would grant. -/
def grantedBadges (badges : List BadgeConfig) (badgeIds achievementIds : List String) :
    List BadgeConfig :=
  badges.filter fun badge =>
    badge.id ∉ badgeIds && meetsBadgeRequirement badge achievementIds.length achievementIds

theorem statement_findUserBadges (cfg : Config) (w : World) (others : List Tx)
    (event : Events.PurchaseCompletedEvent) (tx : Tx) (achievementIds : List String)
    (badges : List BadgeConfig) :
    statement cfg w others event tx (.findUserBadges achievementIds badges) =
      some (w, .transaction event tx (badgeNext (grantedBadges badges
        ((tx.view w.db).badgeIds event.payload.userId) achievementIds))) :=
  rfl

/-- So many further achievements, all different, meet the badge. -/
def MetWith (badge : BadgeConfig) (achievementIds : List String) (n : ℤ) : Prop :=
  ∃ further : List String, (achievementIds ++ further).Nodup ∧ (further.length : ℤ) = n ∧
    meetsBadgeRequirement badge (achievementIds ++ further).length (achievementIds ++ further) = true

/-- `UNIQUE (userId, achievementId)`. -/
def Database.UniqueAchievements (db : Database) : Prop :=
  ∀ userId, (db.achievementIds userId).Nodup

/-- What the user is shown for the next badge is exact. -/
structure Exact (c : Catalog) (db : Database) (userId : String) (badge : BadgeConfig)
    (remaining : ℤ) : Prop where
  least : IsLeast {n | MetWith badge (db.achievementIds userId) n} remaining
  granted : remaining = 0 ↔
    badge ∈ grantedBadges c.activeBadges (db.badgeIds userId) (db.achievementIds userId)

theorem meets_iff {badge : BadgeConfig} {ids : List String} :
    meetsBadgeRequirement badge ids.length ids = true ↔
      badge.requiredAchievementCount ≤ ids.length ∧ badge.requiredAchievementIds ⊆ ids := by
  rw [meetsBadgeRequirement, Bool.and_eq_true, decide_eq_true_eq, List.all_eq_true]
  exact and_congr_right' ⟨fun h id hid => of_decide_eq_true (h id hid),
    fun h id hid => decide_eq_true (h hid)⟩

theorem mem_missing {badge : BadgeConfig} {ids : List String} {id : String} :
    id ∈ missingRequiredAchievementIds badge ids ↔
      id ∈ badge.requiredAchievementIds ∧ id ∉ ids := by
  rw [missingRequiredAchievementIds, List.mem_filter, decide_eq_true_eq]

/-- There are as many further achievements as one likes. -/
theorem exists_further (ids : List String) (hids : ids.Nodup) (n : ℕ) :
    ∃ further : List String, (ids ++ further).Nodup ∧ further.length = n := by
  induction n generalizing ids with
  | zero => exact ⟨[], by rwa [List.append_nil], rfl⟩
  | succ n ih =>
    obtain ⟨id, hid⟩ := Infinite.exists_notMem_finset ids.toFinset
    rw [List.mem_toFinset] at hid
    obtain ⟨further, hnodup, hlength⟩ := ih (ids ++ [id])
      (hids.append (List.nodup_singleton id) (List.disjoint_singleton.mpr hid))
    rw [List.append_assoc, List.singleton_append] at hnodup
    exact ⟨id :: further, hnodup, by rw [List.length_cons, hlength]⟩

section Remaining
variable {badge : BadgeConfig} {ids : List String}

/-- No fewer achievements meet the badge. -/
theorem remaining_le (hnodup : badge.requiredAchievementIds.Nodup) {n : ℤ}
    (h : MetWith badge ids n) : remainingToUnlock badge ids.length ids ≤ n := by
  obtain ⟨further, _, rfl, hmeets⟩ := h
  obtain ⟨hcount, hrequired⟩ := meets_iff.mp hmeets
  have hmissing : missingRequiredAchievementIds badge ids ⊆ further := fun id hid => by
    obtain ⟨hrequires, hlacks⟩ := mem_missing.mp hid
    exact (List.mem_append.mp (hrequired hrequires)).resolve_left hlacks
  have hlength : (missingRequiredAchievementIds badge ids).length ≤ further.length :=
    ((hnodup.filter _).subperm hmissing).length_le
  rw [List.length_append] at hcount
  rw [remainingToUnlock]
  omega

/-- So many do: the missing ones, and others up to the count. -/
theorem remaining_met (hnodup : badge.requiredAchievementIds.Nodup) (hids : ids.Nodup) :
    MetWith badge ids (remainingToUnlock badge ids.length ids) := by
  have hdisjoint : ids.Disjoint (missingRequiredAchievementIds badge ids) :=
    fun id hid hmissing => (mem_missing.mp hmissing).2 hid
  obtain ⟨others, hothers, hlength⟩ := exists_further (ids ++ missingRequiredAchievementIds badge ids)
    (hids.append (hnodup.filter _) hdisjoint)
    (badge.requiredAchievementCount - (ids ++ missingRequiredAchievementIds badge ids).length)
  rw [List.append_assoc] at hothers
  rw [List.length_append] at hlength
  refine ⟨missingRequiredAchievementIds badge ids ++ others, hothers, ?_, meets_iff.mpr ⟨?_, ?_⟩⟩
  · rw [List.length_append, remainingToUnlock]
    omega
  · simp only [List.length_append]
    omega
  · intro id hid
    by_cases hunlocked : id ∈ ids
    · exact List.mem_append_left _ hunlocked
    · exact List.mem_append_right _
        (List.mem_append_left _ (mem_missing.mpr ⟨hid, hunlocked⟩))

theorem remaining_least (hnodup : badge.requiredAchievementIds.Nodup) (hids : ids.Nodup) :
    IsLeast {n | MetWith badge ids n} (remainingToUnlock badge ids.length ids) :=
  ⟨remaining_met hnodup hids, fun _ h => remaining_le hnodup h⟩

theorem remaining_eq_zero : remainingToUnlock badge ids.length ids = 0 ↔
    meetsBadgeRequirement badge ids.length ids = true := by
  rw [meets_iff, remainingToUnlock]
  constructor
  · intro hzero
    refine ⟨by omega, fun id hid => ?_⟩
    by_contra hlacks
    have hpos := List.length_pos_of_mem (mem_missing.mpr ⟨hid, hlacks⟩)
    omega
  · rintro ⟨hcount, hrequired⟩
    have hnone : missingRequiredAchievementIds badge ids = [] :=
      List.filter_eq_nil_iff.mpr fun id hid => by simpa using hrequired hid
    rw [hnone, List.length_nil]
    omega

/-- A repeated id counts twice for a user who lacks nothing but the required achievements. -/
theorem not_least_of_repeats (hrepeats : ¬ badge.requiredAchievementIds.Nodup) :
    ∃ ids : List String, ids.Nodup ∧
      ¬ IsLeast {n | MetWith badge ids n} (remainingToUnlock badge ids.length ids) := by
  obtain ⟨others, hothers, hlength⟩ := exists_further badge.requiredAchievementIds.dedup
    (List.nodup_dedup _) badge.requiredAchievementCount
  obtain ⟨_, hnodup, hdisjoint⟩ := List.nodup_append'.mp hothers
  refine ⟨others, hnodup, fun hleast => ?_⟩
  have hmissing : missingRequiredAchievementIds badge others = badge.requiredAchievementIds :=
    List.filter_eq_self.mpr fun id hid =>
      decide_eq_true (hdisjoint (List.mem_dedup.mpr hid))
  have hmet : MetWith badge others badge.requiredAchievementIds.dedup.length := by
    refine ⟨_, List.nodup_append_comm.mp hothers, rfl, meets_iff.mpr ⟨?_, fun id hid => ?_⟩⟩
    · rw [List.length_append]
      omega
    · exact List.mem_append_right _ (List.mem_dedup.mpr hid)
  have hle := hleast.2 hmet
  have hlt : badge.requiredAchievementIds.dedup.length < badge.requiredAchievementIds.length :=
    (List.dedup_sublist _).length_le.lt_of_ne fun heq =>
      hrepeats (List.dedup_eq_self.mp ((List.dedup_sublist _).eq_of_length heq))
  rw [remainingToUnlock, hmissing] at hle
  omega

end Remaining

/-! ## What a user is shown -/

section Reads
variable {c : Catalog} {db : Database} {userId : String} {badge : BadgeConfig}

theorem nextBadge_congr {badgeIds badgeIds' : List String}
    (h : ∀ id, id ∈ badgeIds ↔ id ∈ badgeIds') : c.nextBadge badgeIds = c.nextBadge badgeIds' := by
  simp only [Catalog.nextBadge, h]

theorem remaining_congr {ids ids' : List String} (h : ids.Perm ids') :
    remainingToUnlock badge ids.length ids = remainingToUnlock badge ids'.length ids' := by
  simp only [remainingToUnlock, missingRequiredAchievementIds, h.mem_iff, h.length_eq]

theorem shown_remaining (unlockedAt : UnlockedAt)
    (h : c.nextBadge (db.badgeIds userId) = some badge) :
    (getAchievementState c db db unlockedAt userId).remainingToUnlockNextBadge =
      remainingToUnlock badge (db.achievementIds userId).length (db.achievementIds userId) := by
  have hbadges : ((db.badges.filter (·.userId = userId)).insertionSort fun a b =>
      unlockedAt.badge a ≤ unlockedAt.badge b).Perm (db.badges.filter (·.userId = userId)) :=
    List.perm_insertionSort _ _
  have hachievements : ((db.achievements.filter (·.userId = userId)).insertionSort fun a b =>
      unlockedAt.achievement a ≤ unlockedAt.achievement b).Perm
        (db.achievements.filter (·.userId = userId)) := List.perm_insertionSort _ _
  rw [Database.achievementIds, ← remaining_congr (hachievements.map (·.achievementId)),
    List.length_map]
  rw [Database.badgeIds, ← nextBadge_congr fun id => (hbadges.map (·.badgeId)).mem_iff] at h
  simp only [getAchievementState, getBadgeState, h, Option.map_some, Option.getD_some]

theorem nextBadge_mem (h : c.nextBadge (db.badgeIds userId) = some badge) :
    badge ∈ c.activeBadges ∧ badge.id ∉ db.badgeIds userId :=
  ⟨List.mem_of_find?_eq_some h, by simpa using List.find?_some h⟩

theorem exact_iff (h : c.nextBadge (db.badgeIds userId) = some badge) :
    Exact c db userId badge
        (remainingToUnlock badge (db.achievementIds userId).length (db.achievementIds userId)) ↔
      IsLeast {n | MetWith badge (db.achievementIds userId) n}
        (remainingToUnlock badge (db.achievementIds userId).length (db.achievementIds userId)) := by
  obtain ⟨hactive, hnew⟩ := nextBadge_mem h
  refine ⟨Exact.least, fun hleast => ⟨hleast, ?_⟩⟩
  rw [remaining_eq_zero, grantedBadges, List.mem_filter, Bool.and_eq_true, decide_eq_true_eq]
  exact ⟨fun hmeets => ⟨hactive, hnew, hmeets⟩, fun hgranted => hgranted.2.2⟩

theorem activeBadges_eq {badge' : BadgeConfig} (h : badge ∈ c.activeBadges)
    (h' : badge' ∈ c.activeBadges) (hid : badge.id = badge'.id) : badge = badge' := by
  rw [Catalog.activeBadges, List.mem_insertionSort, List.mem_filter, Table.mem_rows] at h h'
  have hrow := h.1
  rw [hid, h'.1] at hrow
  exact (Option.some.inj hrow).symm

/-- A user with these achievements and every active badge but this one. -/
def lacksBadge (c : Catalog) (badge : BadgeConfig) (achievementIds : List String) : Database where
  projections := Table.empty
  stats := Table.empty
  achievements := achievementIds.map (⟨0, "", ·⟩)
  badges := (c.activeBadges.filter (·.id ≠ badge.id)).map (⟨0, "", ·.id⟩)
  outbox := []
  processed := []

theorem lacksBadge_achievementIds (ids : List String) (userId : String) :
    (lacksBadge c badge ids).achievementIds userId = if userId = "" then ids else [] := by
  rw [Database.achievementIds, lacksBadge]
  split
  · next heq => simp [heq, List.filter_map, Function.comp_def]
  · next hne => simp [List.filter_map, Function.comp_def, Ne.symm hne]

theorem mem_lacksBadge (ids : List String) {id : String} :
    id ∈ (lacksBadge c badge ids).badgeIds "" ↔
      id ≠ badge.id ∧ ∃ other ∈ c.activeBadges, other.id = id := by
  simp only [Database.badgeIds, lacksBadge, List.filter_map, Function.comp_def, decide_true,
    List.filter_true, List.map_map, List.mem_map, List.mem_filter, decide_eq_true_eq]
  constructor
  · rintro ⟨other, ⟨hactive, hne⟩, rfl⟩
    exact ⟨hne, other, hactive, rfl⟩
  · rintro ⟨hne, other, hactive, rfl⟩
    exact ⟨other, ⟨hactive, hne⟩, rfl⟩

theorem lacksBadge_next (hactive : badge ∈ c.activeBadges) (ids : List String) :
    c.nextBadge ((lacksBadge c badge ids).badgeIds "") = some badge := by
  cases hnext : c.nextBadge ((lacksBadge c badge ids).badgeIds "") with
  | none =>
    have hunlocked := List.find?_eq_none.mp hnext badge hactive
    rw [decide_eq_true_eq, not_not, mem_lacksBadge] at hunlocked
    exact absurd rfl hunlocked.1
  | some other =>
    obtain ⟨hother, hnew⟩ := nextBadge_mem hnext
    rw [mem_lacksBadge] at hnew
    have hid : other.id = badge.id := by
      by_contra hne
      exact hnew ⟨hne, other, hother, rfl⟩
    rw [activeBadges_eq hother hactive hid]

end Reads

/-- What users are shown is exact, whatever they have unlocked, exactly if no active badge requires
an achievement twice. It is asked of every database with unique rows, also of those that no purchases
lead to; a user with all required achievements but those that are required twice need not exist. -/
theorem remaining_exact_iff (c : Catalog) :
    (∀ db unlockedAt userId badge, db.UniqueAchievements →
      c.nextBadge (db.badgeIds userId) = some badge → Exact c db userId badge
        (getAchievementState c db db unlockedAt userId).remainingToUnlockNextBadge) ↔
    ∀ badge ∈ c.activeBadges, badge.requiredAchievementIds.Nodup := by
  constructor
  · intro hall badge hactive
    by_contra hrepeats
    obtain ⟨ids, hids, hnot⟩ := not_least_of_repeats hrepeats
    have hnext := lacksBadge_next hactive ids
    have hunlocked : ∀ userId, (lacksBadge c badge ids).achievementIds userId =
        if userId = "" then ids else [] := lacksBadge_achievementIds ids
    have hexact := hall (lacksBadge c badge ids) ⟨fun _ => 0, fun _ => 0⟩ "" badge ?_ hnext
    · rw [shown_remaining _ hnext, exact_iff hnext, hunlocked, if_pos rfl] at hexact
      exact hnot hexact
    · intro userId
      rw [hunlocked]
      split
      · exact hids
      · exact List.nodup_nil
  · intro hnodup db unlockedAt userId badge hunique hnext
    rw [shown_remaining unlockedAt hnext, exact_iff hnext]
    exact remaining_least (hnodup badge (nextBadge_mem hnext).1) (hunique userId)

def welcomeDto : CreateBadgeConfigDto :=
  ⟨"bdg_welcome", "Welcome", 1, 1, some ["ach_first_purchase", "ach_first_purchase"], none, none,
    none⟩

def welcome : BadgeConfig :=
  ⟨"bdg_welcome", "Welcome", 1, 1, ["ach_first_purchase", "ach_first_purchase"], 30000, "NGN", true⟩

def noUnlocks : Database := ⟨Table.empty, Table.empty, [], [], [], []⟩

/-- A badge that requires one achievement twice is stored, and a new user is shown that two remain. -/
theorem welcome_remaining : ∃ badges,
    createBadge seeded.achievements.rows seeded.badges welcomeDto = .ok badges ∧
    ¬ ∀ db unlockedAt userId badge, db.UniqueAchievements →
      Catalog.nextBadge { seeded with badges } (db.badgeIds userId) = some badge →
      Exact { seeded with badges } db userId badge
        (getAchievementState { seeded with badges } db db unlockedAt userId).remainingToUnlockNextBadge := by
  refine ⟨_, rfl, fun hall => ?_⟩
  have hexact := hall noUnlocks ⟨fun _ => 0, fun _ => 0⟩ "" welcome (fun _ => List.nodup_nil) rfl
  have hone : MetWith welcome [] 1 := ⟨["ach_first_purchase"], by decide, rfl, rfl⟩
  have hle := hexact.least.2 hone
  rw [shown_remaining _ rfl] at hle
  exact absurd hle (by decide)

end Bumpa.Loyalty
