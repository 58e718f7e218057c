import Bumpa.Loyalty.AdminConfigs
import Bumpa.Loyalty.DefaultConfig
import Bumpa.Loyalty.RuleShape
import Mathlib.Algebra.Order.Floor.Defs
import Mathlib.Data.Rat.Floor
import Mathlib.Data.Finset.Card

/-! # What an ACHIEVEMENT_SET counts

By the documentation an ACHIEVEMENT_SET counts listed achievements that are unlocked. The engine
counts list entries, and neither the validator nor `assertAchievementsExist` refuses an id that is
listed twice.

`achievementSets_count_iff`: the sets of an accepted rule count achievements, whatever is unlocked,
exactly if each of them repeats no id or has a `minRequired` that one unlocked achievement meets,
that the entries together do not meet, or that is absent (`countsEach`).
-/
namespace Bumpa.Loyalty
set_option autoImplicit false

mutual

/-- The ids and thresholds of the ACHIEVEMENT_SETs of a rule, nested ones included. -/
def AchievementRule.achievementSets : AchievementRule → List (List String × Option Rat)
  | .achievementSet achievementIds minRequired => [(achievementIds, minRequired)]
  | .combination rules => allAchievementSets rules
  | _ => []

def allAchievementSets : List AchievementRule → List (List String × Option Rat)
  | [] => []
  | rule :: rules => rule.achievementSets ++ allAchievementSets rules

end

/-- The achievements that are listed and unlocked. -/
def unlockedListed (unlocked achievementIds : List String) : Finset String :=
  achievementIds.toFinset.filter (· ∈ unlocked)

/-- What an ACHIEVEMENT_SET asks for. -/
def SetRequirement (unlocked achievementIds : List String) : Option Rat → Prop
  | none => ∀ id ∈ achievementIds, id ∈ unlocked
  | some minRequired => minRequired ≤ (unlockedListed unlocked achievementIds).card

def CountsAchievements (context : RuleContext) (achievementSet : List String × Option Rat) : Prop :=
  evaluate context (.achievementSet achievementSet.1 achievementSet.2) = .ok true ↔
    SetRequirement context.unlockedAchievementIds achievementSet.1 achievementSet.2

/-- No entry counts twice, or it makes no difference. -/
def countsEach : List String × Option Rat → Bool
  | (_, none) => true
  | (achievementIds, some minRequired) =>
    decide (achievementIds.Nodup ∨ minRequired ≤ 1 ∨ (achievementIds.length : Rat) < minRequired)

theorem evaluate_achievementSet (context : RuleContext) (achievementIds : List String)
    (minRequired : Option Rat) :
    evaluate context (.achievementSet achievementIds minRequired) = .ok true ↔
      minRequired.getD achievementIds.length ≤
        (achievementIds.filter (· ∈ context.unlockedAchievementIds)).length := by
  rw [evaluate, Except.ok.injEq, decide_eq_true_eq]

theorem toFinset_filter (unlocked achievementIds : List String) :
    (achievementIds.filter (· ∈ unlocked)).toFinset = unlockedListed unlocked achievementIds := by
  ext id
  simp [unlockedListed]

/-- Entries that are unlocked are at least as many as achievements. -/
theorem unlockedListed_le (unlocked achievementIds : List String) :
    (unlockedListed unlocked achievementIds).card ≤
      (achievementIds.filter (· ∈ unlocked)).length := by
  rw [← toFinset_filter]
  exact List.toFinset_card_le _

theorem unlockedListed_nodup {unlocked achievementIds : List String} (h : achievementIds.Nodup) :
    (unlockedListed unlocked achievementIds).card =
      (achievementIds.filter (· ∈ unlocked)).length := by
  rw [← toFinset_filter]
  exact List.toFinset_card_of_nodup (h.filter _)

/-- With a repeated id unlocked there are more entries than achievements. -/
theorem unlockedListed_lt {unlocked achievementIds : List String} {id : String}
    (hid : 1 < achievementIds.count id) (hunlocked : id ∈ unlocked) :
    (unlockedListed unlocked achievementIds).card <
      (achievementIds.filter (· ∈ unlocked)).length := by
  refine Nat.lt_of_le_of_ne (unlockedListed_le unlocked achievementIds) fun heq => ?_
  rw [← toFinset_filter] at heq
  have hnodup : (achievementIds.filter (· ∈ unlocked)).Nodup :=
    Multiset.coe_nodup.mp (Multiset.toFinset_card_eq_card_iff_nodup.mp heq)
  have hcount := List.nodup_iff_count_le_one.mp hnodup id
  rw [List.count_filter (by simpa using hunlocked)] at hcount
  omega

theorem unlockedListed_self {unlocked : Finset String} {achievementIds : List String}
    (h : unlocked ⊆ achievementIds.toFinset) :
    unlockedListed unlocked.toList achievementIds = unlocked := by
  ext id
  simp only [unlockedListed, Finset.mem_filter, Finset.mem_toList, and_iff_right_iff_imp]
  exact fun hid => h hid

theorem unlockedListed_pos {unlocked achievementIds : List String}
    (h : 0 < (achievementIds.filter (· ∈ unlocked)).length) :
    0 < (unlockedListed unlocked achievementIds).card := by
  obtain ⟨id, hid⟩ := List.exists_mem_of_length_pos h
  refine Finset.card_pos.mpr ⟨id, ?_⟩
  rw [← toFinset_filter]
  exact List.mem_toFinset.mpr hid

/-! ## One set -/

theorem counts_of_countsEach {achievementSet : List String × Option Rat}
    (h : countsEach achievementSet = true) (context : RuleContext) :
    CountsAchievements context achievementSet := by
  obtain ⟨achievementIds, minRequired⟩ := achievementSet
  have hentries := List.length_filter_le (· ∈ context.unlockedAchievementIds) achievementIds
  have hle := unlockedListed_le context.unlockedAchievementIds achievementIds
  rw [CountsAchievements, evaluate_achievementSet]
  cases minRequired with
  | none =>
    rw [SetRequirement, Option.getD_none, Nat.cast_le]
    constructor
    · intro hall id hid
      have heq := Nat.le_antisymm hentries hall
      simpa using List.length_filter_eq_length_iff.mp heq id hid
    · intro hall
      exact Nat.le_of_eq (List.length_filter_eq_length_iff.mpr fun id hid => by
        simpa using hall id hid).symm
  | some minRequired =>
    rw [SetRequirement, Option.getD_some]
    rcases of_decide_eq_true h with hnodup | hone | hmany
    · rw [unlockedListed_nodup hnodup]
    · refine ⟨fun hreached => ?_, fun hreached => hreached.trans (Nat.cast_le.mpr hle)⟩
      rcases Nat.eq_zero_or_pos
        (achievementIds.filter (· ∈ context.unlockedAchievementIds)).length with hnone | hsome
      · rw [hnone] at hreached
        exact hreached.trans (Nat.cast_le.mpr (Nat.zero_le _))
      · exact hone.trans (Nat.one_le_cast.mpr (unlockedListed_pos hsome))
    · refine iff_of_false ?_ ?_
      · exact not_le.mpr ((Nat.cast_le.mpr hentries).trans_lt hmany)
      · exact not_le.mpr ((Nat.cast_le.mpr (hle.trans hentries)).trans_lt hmany)

/-- A repeated id makes a difference for some users: they have unlocked it, and fewer achievements
than `minRequired` but at least as many entries. -/
theorem exists_miscount {achievementIds : List String} {minRequired : Rat} {id : String}
    (hid : 1 < achievementIds.count id) (hone : 1 < minRequired)
    (hmany : minRequired ≤ achievementIds.length) :
    ∃ unlocked : List String, (unlockedListed unlocked achievementIds).card < minRequired ∧
      minRequired ≤ (achievementIds.filter (· ∈ unlocked)).length := by
  have hlisted : {id} ⊆ achievementIds.toFinset := by
    rw [Finset.singleton_subset_iff, List.mem_toFinset]
    exact List.count_pos_iff.mp (Nat.lt_of_succ_lt hid)
  have hceil : 1 < ⌈minRequired⌉₊ := Nat.lt_ceil.mpr (by exact_mod_cast hone)
  have hsome : 1 ≤ achievementIds.toFinset.card :=
    (Finset.card_singleton id).symm.trans_le (Finset.card_le_card hlisted)
  obtain ⟨unlocked, hsub, hsup, hcard⟩ := Finset.exists_subsuperset_card_eq hlisted
    (n := min achievementIds.toFinset.card (⌈minRequired⌉₊ - 1))
    (by rw [Finset.card_singleton]; omega) (Nat.min_le_left _ _)
  have hmem : id ∈ unlocked.toList := Finset.mem_toList.mpr (Finset.singleton_subset_iff.mp hsub)
  have hlt := unlockedListed_lt hid hmem
  rw [unlockedListed_self hsup] at hlt
  refine ⟨unlocked.toList, ?_, ?_⟩
  · rw [unlockedListed_self hsup]
    exact Nat.lt_ceil.mp (by omega)
  · rcases Nat.lt_or_ge achievementIds.toFinset.card (⌈minRequired⌉₊ - 1) with hall | hfew
    · -- all listed achievements are too few, all entries are enough
      have heq : unlocked = achievementIds.toFinset :=
        Finset.eq_of_subset_of_card_le hsup (by omega)
      have hself : achievementIds.filter (· ∈ unlocked.toList) = achievementIds := by
        refine List.filter_eq_self.mpr fun id' hid' => ?_
        simpa [heq] using hid'
      rw [hself]
      exact hmany
    · have hreached : ⌈minRequired⌉₊ ≤ (achievementIds.filter (· ∈ unlocked.toList)).length := by
        omega
      exact Nat.ceil_le.mp hreached

theorem countsEach_of_counts {achievementSet : List String × Option Rat}
    (h : ∀ context, CountsAchievements context achievementSet) :
    countsEach achievementSet = true := by
  obtain ⟨achievementIds, _ | minRequired⟩ := achievementSet
  · rfl
  · refine decide_eq_true ?_
    by_contra hnot
    simp only [not_or, not_le, not_lt] at hnot
    obtain ⟨hrepeats, hone, hmany⟩ := hnot
    obtain ⟨id, hid⟩ : ∃ id, 1 < achievementIds.count id := by
      by_contra hnone
      exact hrepeats (List.nodup_iff_count_le_one.mpr fun id =>
        Nat.le_of_not_lt fun hid => hnone ⟨id, hid⟩)
    obtain ⟨unlocked, hfew, henough⟩ := exists_miscount hid hone hmany
    have hcounts := h ⟨0, 0, unlocked⟩
    rw [CountsAchievements, evaluate_achievementSet, SetRequirement, Option.getD_some] at hcounts
    exact not_le.mpr hfew (hcounts.mp henough)

/-! ## Rules -/

/-- The ACHIEVEMENT_SETs of a rule count achievements, whatever is unlocked, exactly if in each of
them no entry counts twice or it makes no difference. -/
theorem achievementSets_count_iff (rule : AchievementRule) :
    (∀ context, ∀ achievementSet ∈ rule.achievementSets,
      CountsAchievements context achievementSet) ↔
    ∀ achievementSet ∈ rule.achievementSets, countsEach achievementSet = true := by
  constructor
  · intro hall achievementSet hmem
    exact countsEach_of_counts fun context => hall context achievementSet hmem
  · intro hall context achievementSet hmem
    exact counts_of_countsEach (hall achievementSet hmem) context

def firstPurchaseTwice : Json :=
  .object (.cons "type" (.string "ACHIEVEMENT_SET") (.cons "achievementIds"
    (.array [.string "ach_first_purchase", .string "ach_first_purchase"])
    (.cons "minRequired" (.number 2) .nil)))

def firstPurchaseTwiceRule : AchievementRule :=
  .achievementSet ["ach_first_purchase", "ach_first_purchase"] (some 2)

/-- A rule that asks for two achievements and lists one twice is stored, and is true of the users
with that one. -/
theorem firstPurchaseTwice_miscounts :
    isValidAchievementRuleShape firstPurchaseTwice = true ∧
    ruleOf firstPurchaseTwice = some firstPurchaseTwiceRule ∧
    (∃ achievements, createAchievement seeded.groups seeded.achievements
      ⟨"ach_two", "Two", "milestones", 2, firstPurchaseTwiceRule, .absent⟩ = .ok achievements) ∧
    ¬ ∀ context, ∀ achievementSet ∈ firstPurchaseTwiceRule.achievementSets,
      CountsAchievements context achievementSet := by
  refine ⟨by decide, rfl, ⟨_, rfl⟩, fun hall => ?_⟩
  have hmiscounts := (hall ⟨0, 0, ["ach_first_purchase"]⟩ _ (List.mem_singleton_self _)).mp rfl
  exact absurd (Nat.ofNat_le_cast.mp hmiscounts) (by decide)

end Bumpa.Loyalty
