import Mathlib.Data.Nat.Notation

/-! # `RuleEngineService` (`apps/loyalty-service/src/rules`)

`AchievementRule` is the union of `rule.types.ts` with one more constructor: a stored JSON value
may have another shape, and `evaluate` throws on it. `field` is never read, and is left out; a
threshold is a rational number.
-/
namespace Bumpa.Loyalty
set_option autoImplicit false

inductive AchievementRule where
  | count (value : Rat) (operator : String)
  | sum (value : Rat) (operator : String)
  | achievementSet (achievementIds : List String) (minRequired : Option Rat)
  | combination (rules : List AchievementRule)
  | throwing (error : String)
  deriving Repr

structure RuleContext where
  purchaseCount : ℕ
  totalSpendKobo : ℕ
  unlockedAchievementIds : List String
  deriving DecidableEq, Repr

def compare (actual : ℕ) (expected : Rat) (operator : String) : Bool :=
  operator = "GTE" && decide (expected ≤ actual)

mutual

def evaluate (context : RuleContext) : AchievementRule → Except String Bool
  | .count value operator => .ok (compare context.purchaseCount value operator)
  | .sum value operator => .ok (compare context.totalSpendKobo value operator)
  | .achievementSet achievementIds minRequired =>
    let unlockedRequiredCount := (achievementIds.filter (· ∈ context.unlockedAchievementIds)).length
    .ok (decide (minRequired.getD achievementIds.length ≤ unlockedRequiredCount))
  | .combination rules => every context rules
  | .throwing error => .error error

/-- `rules.every`: stops at the first rule that is false or throws. -/
def every (context : RuleContext) : List AchievementRule → Except String Bool
  | [] => .ok true
  | rule :: rules =>
    match evaluate context rule with
    | .ok true => every context rules
    | .ok false => .ok false
    | .error error => .error error

end

end Bumpa.Loyalty
