import Bumpa.Loyalty.RuleEngine
import Bumpa.Order.Saturation
import Mathlib.Data.Set.Basic
import Mathlib.Data.Rat.Cast.Order

/-! # What an achievement rule means

`Holds` is the meaning of a rule over any set of unlocked achievements, without an evaluation
order: a rule that throws holds nowhere. `evaluate_eq_true_iff`: the engine answers true exactly
if the rule holds of the set it reads; `not_holds_of_error`: a rule on which it throws once holds
under no stats and no set.

`Holds` is monotone in the stats and in the set (`Holds.mono`), so what a list of rules unlocks is
a saturation (`unlocks`).
-/
namespace Bumpa.Loyalty
open Bumpa.Order
set_option autoImplicit false

/-- The numbers a rule reads. -/
structure Counters where
  purchaseCount : ℕ
  totalSpendKobo : ℕ
  deriving DecidableEq, Repr

instance : LE Counters where
  le c d := c.purchaseCount ≤ d.purchaseCount ∧ c.totalSpendKobo ≤ d.totalSpendKobo

/-- At least as many of the listed ids are in the set. -/
def HasAtLeast (unlocked : Set String) (achievementIds : List String) (required : Rat) : Prop :=
  ∃ found : List String, found.Sublist achievementIds ∧ (∀ id ∈ found, id ∈ unlocked) ∧
    required ≤ found.length

mutual

def Holds (counters : Counters) (unlocked : Set String) : AchievementRule → Prop
  | .count value operator => compare counters.purchaseCount value operator = true
  | .sum value operator => compare counters.totalSpendKobo value operator = true
  | .achievementSet achievementIds minRequired =>
    HasAtLeast unlocked achievementIds (minRequired.getD achievementIds.length)
  | .combination rules => AllHold counters unlocked rules
  | .throwing _ => False

def AllHold (counters : Counters) (unlocked : Set String) : List AchievementRule → Prop
  | [] => True
  | rule :: rules => Holds counters unlocked rule ∧ AllHold counters unlocked rules

end

theorem compare_mono {actual actual' : ℕ} (h : actual ≤ actual') {expected : Rat}
    {operator : String} (hc : compare actual expected operator = true) :
    compare actual' expected operator = true := by
  simp only [compare, Bool.and_eq_true, decide_eq_true_eq] at hc ⊢
  exact ⟨hc.1, hc.2.trans (Nat.cast_le.mpr h)⟩

theorem HasAtLeast.mono {unlocked unlocked' : Set String} (h : unlocked ⊆ unlocked')
    {achievementIds : List String} {required : Rat}
    (hr : HasAtLeast unlocked achievementIds required) :
    HasAtLeast unlocked' achievementIds required := by
  obtain ⟨found, hsub, hmem, hle⟩ := hr
  exact ⟨found, hsub, fun id hid => h (hmem id hid), hle⟩

mutual

theorem Holds.mono {counters counters' : Counters} (hc : counters ≤ counters')
    {unlocked unlocked' : Set String} (h : unlocked ⊆ unlocked') : ∀ {rule : AchievementRule},
    Holds counters unlocked rule → Holds counters' unlocked' rule
  | .count _ _, hr => compare_mono hc.1 hr
  | .sum _ _, hr => compare_mono hc.2 hr
  | .achievementSet _ _, hr => HasAtLeast.mono h hr
  | .combination _, hr => AllHold.mono hc h hr
  | .throwing _, hr => hr

theorem AllHold.mono {counters counters' : Counters} (hc : counters ≤ counters')
    {unlocked unlocked' : Set String} (h : unlocked ⊆ unlocked') : ∀ {rules : List AchievementRule},
    AllHold counters unlocked rules → AllHold counters' unlocked' rules
  | [], _ => trivial
  | _ :: _, hr => ⟨Holds.mono hc h hr.1, AllHold.mono hc h hr.2⟩

end

/-! ## The engine and the meaning -/

def RuleContext.counters (context : RuleContext) : Counters :=
  ⟨context.purchaseCount, context.totalSpendKobo⟩

def RuleContext.unlocked (context : RuleContext) : Set String :=
  {id | id ∈ context.unlockedAchievementIds}

/-- Counting the listed ids that are in the set finds as many as there are. -/
theorem hasAtLeast_iff (ids achievementIds : List String) (required : Rat) :
    HasAtLeast {id | id ∈ ids} achievementIds required ↔
      required ≤ (achievementIds.filter (· ∈ ids)).length := by
  constructor
  · rintro ⟨found, hsub, hmem, hle⟩
    have hself : found.filter (· ∈ ids) = found :=
      List.filter_eq_self.mpr fun id hid => decide_eq_true (hmem id hid)
    have hlen : found.length ≤ (achievementIds.filter (· ∈ ids)).length := by
      rw [← hself]
      exact (hsub.filter _).length_le
    exact hle.trans (Nat.cast_le.mpr hlen)
  · intro hle
    refine ⟨_, List.filter_sublist, fun id hid => ?_, hle⟩
    exact of_decide_eq_true (List.mem_filter.mp hid).2

mutual

theorem evaluate_eq_true_iff (context : RuleContext) : ∀ rule : AchievementRule,
    evaluate context rule = .ok true ↔ Holds context.counters context.unlocked rule
  | .count value operator => by simp [evaluate, Holds, RuleContext.counters]
  | .sum value operator => by simp [evaluate, Holds, RuleContext.counters]
  | .achievementSet achievementIds minRequired => by
    simp only [evaluate, Holds, RuleContext.unlocked, hasAtLeast_iff, Except.ok.injEq,
      decide_eq_true_eq]
  | .combination rules => by
    rw [evaluate, Holds]
    exact every_eq_true_iff context rules
  | .throwing error => by simp [evaluate, Holds]

theorem every_eq_true_iff (context : RuleContext) : ∀ rules : List AchievementRule,
    every context rules = .ok true ↔ AllHold context.counters context.unlocked rules
  | [] => by simp [every, AllHold]
  | rule :: rules => by
    have hrule := evaluate_eq_true_iff context rule
    have hrules := every_eq_true_iff context rules
    rw [AllHold, ← hrule, ← hrules, every]
    split
    · next heq => simp [heq]
    · next heq => simp [heq]
    · next heq => simp [heq]

end

mutual

theorem not_holds_of_error {context : RuleContext} {error : String} {counters : Counters}
    {unlocked : Set String} : ∀ {rule : AchievementRule}, evaluate context rule = .error error →
    ¬ Holds counters unlocked rule
  | .count _ _, h => by simp [evaluate] at h
  | .sum _ _, h => by simp [evaluate] at h
  | .achievementSet _ _, h => by simp [evaluate] at h
  | .combination rules, h => by
    rw [evaluate] at h
    rw [Holds]
    exact not_allHold_of_error h
  | .throwing _, _ => id

theorem not_allHold_of_error {context : RuleContext} {error : String} {counters : Counters}
    {unlocked : Set String} : ∀ {rules : List AchievementRule}, every context rules = .error error →
    ¬ AllHold counters unlocked rules
  | [], h => by simp [every] at h
  | rule :: rules, h => by
    rw [every] at h
    rw [AllHold]
    split at h
    · exact fun hall => not_allHold_of_error h hall.2
    · cases h
    · next heq => exact fun hall => not_holds_of_error heq hall.1

end

end Bumpa.Loyalty
