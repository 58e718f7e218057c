import Bumpa.Loyalty.RuleSemantics
import Bumpa.Loyalty.RuleShape

/-! # The engine on accepted rules

`accepted_evaluates`: on a rule that `isValidAchievementRuleShape` accepts the engine answers under
every context, and what it answers true to stays true when counters and unlocked achievements grow.
-/
namespace Bumpa.Loyalty
set_option autoImplicit false

/-- No number is smaller, and nothing unlocked is missing. -/
instance : LE RuleContext where
  le context context' := context.purchaseCount ≤ context'.purchaseCount ∧
    context.totalSpendKobo ≤ context'.totalSpendKobo ∧
    context.unlockedAchievementIds ⊆ context'.unlockedAchievementIds

mutual

/-- A rule with parts that the engine knows makes it throw nowhere. -/
theorem wellFormed_evaluates (context : RuleContext) : ∀ {rule : AchievementRule},
    rule.wellFormed = true → ∃ answer, evaluate context rule = .ok answer
  | .count _ _, _ => ⟨_, rfl⟩
  | .sum _ _, _ => ⟨_, rfl⟩
  | .achievementSet _ _, _ => ⟨_, rfl⟩
  | .combination rules, h => by
    rw [AchievementRule.wellFormed, Bool.and_eq_true] at h
    rw [evaluate]
    exact allWellFormed_every context h.2
  | .throwing _, h => by cases h

theorem allWellFormed_every (context : RuleContext) : ∀ {rules : List AchievementRule},
    allWellFormed rules = true → ∃ answer, every context rules = .ok answer
  | [], _ => ⟨true, rfl⟩
  | rule :: rules, h => by
    rw [allWellFormed, Bool.and_eq_true] at h
    obtain ⟨answer, hrule⟩ := wellFormed_evaluates context h.1
    rw [every, hrule]
    cases answer with
    | false => exact ⟨false, rfl⟩
    | true => exact allWellFormed_every context h.2

end

theorem evaluate_mono {context context' : RuleContext} (h : context ≤ context')
    {rule : AchievementRule} (hrule : evaluate context rule = .ok true) :
    evaluate context' rule = .ok true := by
  obtain ⟨hcount, hspend, hunlocked⟩ := h
  rw [evaluate_eq_true_iff] at hrule ⊢
  have hcounters : context.counters ≤ context'.counters := ⟨hcount, hspend⟩
  exact hrule.mono hcounters fun _ hid => hunlocked hid

/-- The engine answers on every accepted rule, and growth turns no answer from true to false. -/
theorem accepted_evaluates {json : Json} (h : isValidAchievementRuleShape json = true) :
    ∃ rule, ruleOf json = some rule ∧
      (∀ context, ∃ answer, evaluate context rule = .ok answer) ∧
      ∀ context context', context ≤ context' → evaluate context rule = .ok true →
        evaluate context' rule = .ok true := by
  obtain ⟨rule, hrule, hwell⟩ := accepted_shape h
  exact ⟨rule, hrule, fun context => wellFormed_evaluates context hwell,
    fun _ _ hle htrue => evaluate_mono hle htrue⟩

/-- Five purchases and one of two achievements. -/
def nestedRule : Json :=
  .object (.cons "type" (.string "COMBINATION") (.cons "operator" (.string "AND")
    (.cons "rules" (.array [
      .object (.cons "type" (.string "COUNT") (.cons "field" (.string "purchase_count")
        (.cons "operator" (.string "GTE") (.cons "value" (.number 5) .nil)))),
      .object (.cons "type" (.string "COMBINATION") (.cons "operator" (.string "AND")
        (.cons "rules" (.array [.object (.cons "type" (.string "ACHIEVEMENT_SET")
          (.cons "achievementIds" (.array [.string "ach_5_purchases", .string "ach_big_spender"])
            (.cons "minRequired" (.number 1) .nil)))]) .nil)))]) .nil)))

theorem accepted_evaluates_nested : ∃ rule, ruleOf nestedRule = some rule ∧
    (∀ context, ∃ answer, evaluate context rule = .ok answer) ∧
    ∀ context context', context ≤ context' → evaluate context rule = .ok true →
      evaluate context' rule = .ok true :=
  accepted_evaluates (by decide)

end Bumpa.Loyalty
