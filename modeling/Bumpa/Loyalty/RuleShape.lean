import Bumpa.Loyalty.RuleEngine
import Mathlib.Data.Rat.Defs

/-! # The shape of a rule (`apps/loyalty-service/src/rules/rule-shape.validator.ts`)

`isValidAchievementRuleShape` decides on any JSON value of a request body, `ruleOf` is the rule
that the engine sees in one. A number that is too large for a double is read as an infinity.

`accepted_shape`: a value that is accepted is a rule, and every operator in it is one the engine
knows.
-/
namespace Bumpa.Loyalty
set_option autoImplicit false

mutual

inductive Json where
  | null
  | bool (value : Bool)
  | number (value : Rat)
  | infinity (negative : Bool)
  | string (value : String)
  | array (elements : List Json)
  | object (properties : Properties)

/-- The properties of an object; each name occurs once. -/
inductive Properties where
  | nil
  | cons (name : String) (value : Json) (rest : Properties)

end

/-- A property, or `none` for `undefined`. -/
def Properties.get (name : String) : Properties → Option Json
  | .nil => none
  | .cons name' value rest => if name' = name then some value else rest.get name

namespace Json

def isString (json : Json) (expected : String) : Bool :=
  match json with
  | .string value => value = expected
  | _ => false

/-- `typeof value === 'number' && Number.isFinite(value)`. -/
def finite : Json → Option Rat
  | .number value => some value
  | _ => none

def stringValue : Json → Option String
  | .string value => some value
  | _ => none

def elements : Json → Option (List Json)
  | .array elements => some elements
  | _ => none

end Json

/-- `rule[name] === expected`. -/
def Properties.is (rule : Properties) (name expected : String) : Bool :=
  (rule.get name).any (·.isString expected)

/-- The conditions on a COUNT and on a SUM. -/
def isThreshold (rule : Properties) (field : String) : Bool :=
  rule.is "field" field && rule.is "operator" "GTE" &&
    ((rule.get "value").bind (·.finite)).any fun value => decide (0 ≤ value)

def isAchievementSet (rule : Properties) : Bool :=
  ((rule.get "achievementIds").bind (·.elements)).any (fun achievementIds =>
    !achievementIds.isEmpty && achievementIds.all (·.stringValue.isSome)) &&
    (rule.get "minRequired").all (·.finite.isSome)

mutual

def isValidAchievementRuleShape : Json → Bool
  | .object rule =>
    if rule.is "type" "COUNT" then isThreshold rule "purchase_count"
    else if rule.is "type" "SUM" then isThreshold rule "total_spend_kobo"
    else if rule.is "type" "COMBINATION" then rule.is "operator" "AND" && isCombination rule
    else if rule.is "type" "ACHIEVEMENT_SET" then isAchievementSet rule
    else false
  | _ => false

/-- The condition on the property `rules`. -/
def isCombination : Properties → Bool
  | .nil => false
  | .cons name value rest => if name = "rules" then isRuleArray value else isCombination rest

def isRuleArray : Json → Bool
  | .array rules => !rules.isEmpty && everyValid rules
  | _ => false

def everyValid : List Json → Bool
  | [] => true
  | rule :: rules => isValidAchievementRuleShape rule && everyValid rules

end

/-! ## The rule in it -/

def thresholdOf (rule : Properties) : Option (Rat × String) := do
  let value ← (rule.get "value").bind (·.finite)
  let operator ← (rule.get "operator").bind (·.stringValue)
  return (value, operator)

def achievementSetOf (rule : Properties) : Option AchievementRule := do
  let achievementIds ← (rule.get "achievementIds").bind (·.elements)
  let ids ← achievementIds.mapM (·.stringValue)
  match rule.get "minRequired" with
  | none => return .achievementSet ids none
  | some minRequired => return .achievementSet ids (some (← minRequired.finite))

mutual

def ruleOf : Json → Option AchievementRule
  | .object rule =>
    if rule.is "type" "COUNT" then (thresholdOf rule).map fun t => .count t.1 t.2
    else if rule.is "type" "SUM" then (thresholdOf rule).map fun t => .sum t.1 t.2
    else if rule.is "type" "ACHIEVEMENT_SET" then achievementSetOf rule
    else if rule.is "type" "COMBINATION" then (combinationOf rule).map .combination
    else some (.throwing "Unsupported achievement rule type")
  | _ => some (.throwing "Unsupported achievement rule type")

def combinationOf : Properties → Option (List AchievementRule)
  | .nil => none
  | .cons name value rest => if name = "rules" then rulesOf value else combinationOf rest

def rulesOf : Json → Option (List AchievementRule)
  | .array rules => mapRules rules
  | _ => none

def mapRules : List Json → Option (List AchievementRule)
  | [] => some []
  | rule :: rules =>
    match ruleOf rule, mapRules rules with
    | some first, some rest => some (first :: rest)
    | _, _ => none

end

/-! ## What is accepted -/

mutual

/-- A rule of which every part is one that the engine knows. -/
def AchievementRule.wellFormed : AchievementRule → Bool
  | .count value operator => operator = "GTE" && decide (0 ≤ value)
  | .sum value operator => operator = "GTE" && decide (0 ≤ value)
  | .achievementSet achievementIds _ => !achievementIds.isEmpty
  | .combination rules => !rules.isEmpty && allWellFormed rules
  | .throwing _ => false

def allWellFormed : List AchievementRule → Bool
  | [] => true
  | rule :: rules => rule.wellFormed && allWellFormed rules

end

theorem is_eq_true {rule : Properties} {name expected : String} (h : rule.is name expected = true) :
    rule.get name = some (.string expected) := by
  unfold Properties.is at h
  cases hget : rule.get name with
  | none =>
    rw [hget] at h
    cases h
  | some json =>
    rw [hget, Option.any_some] at h
    cases json with
    | string value => rw [of_decide_eq_true h]
    | _ => cases h

theorem threshold_shape {rule : Properties} {field : String} (h : isThreshold rule field = true) :
    ∃ value, thresholdOf rule = some (value, "GTE") ∧ 0 ≤ value := by
  simp only [isThreshold, Bool.and_eq_true] at h
  obtain ⟨⟨_, hoperator⟩, hvalue⟩ := h
  cases hget : (rule.get "value").bind (·.finite) with
  | none =>
    rw [hget] at hvalue
    cases hvalue
  | some value =>
    rw [hget, Option.any_some] at hvalue
    refine ⟨value, ?_, of_decide_eq_true hvalue⟩
    rw [thresholdOf, hget, is_eq_true hoperator]
    rfl

theorem mapM_isSome {α β : Type} {f : α → Option β} {xs : List α}
    (h : ∀ x ∈ xs, (f x).isSome = true) : ∃ ys, xs.mapM f = some ys ∧ ys.length = xs.length := by
  induction xs with
  | nil => exact ⟨[], rfl, rfl⟩
  | cons x xs ih =>
    obtain ⟨ys, hys, hlength⟩ := ih fun x' hx' => h x' (List.mem_cons_of_mem x hx')
    obtain ⟨y, hy⟩ := Option.isSome_iff_exists.mp (h x List.mem_cons_self)
    refine ⟨y :: ys, ?_, congrArg Nat.succ hlength⟩
    rw [List.mapM_cons, hy, hys]
    rfl

theorem achievementSet_shape {rule : Properties} (h : isAchievementSet rule = true) :
    ∃ ids minRequired, achievementSetOf rule = some (.achievementSet ids minRequired) ∧
      ids ≠ [] := by
  simp only [isAchievementSet, Bool.and_eq_true] at h
  obtain ⟨hids, hrequired⟩ := h
  cases hget : (rule.get "achievementIds").bind (·.elements) with
  | none =>
    rw [hget] at hids
    cases hids
  | some achievementIds =>
    rw [hget, Option.any_some, Bool.and_eq_true, List.all_eq_true] at hids
    obtain ⟨ids, hmap, hlength⟩ := mapM_isSome hids.2
    have hne : ids ≠ [] := by
      rintro rfl
      have hnil := List.eq_nil_of_length_eq_zero hlength.symm
      rw [hnil] at hids
      exact absurd hids.1 (by decide)
    unfold achievementSetOf
    rw [hget]
    cases hmin : rule.get "minRequired" with
    | none =>
      refine ⟨ids, none, ?_, hne⟩
      simp [hmap]
    | some minRequired =>
      rw [hmin, Option.all_some] at hrequired
      obtain ⟨value, hvalue⟩ := Option.isSome_iff_exists.mp hrequired
      refine ⟨ids, some value, ?_, hne⟩
      simp [hmap, hvalue]

mutual

/-- What the validator accepts is a rule that the engine knows in all its parts. -/
theorem accepted_shape : ∀ {json : Json}, isValidAchievementRuleShape json = true →
    ∃ rule, ruleOf json = some rule ∧ rule.wellFormed = true
  | .object rule, h => by
    rw [isValidAchievementRuleShape] at h
    rw [ruleOf]
    split at h
    · next hcount =>
      obtain ⟨value, hvalue, hle⟩ := threshold_shape h
      rw [if_pos hcount, hvalue]
      exact ⟨_, rfl, by simpa [AchievementRule.wellFormed] using hle⟩
    · next hcount =>
      rw [if_neg hcount]
      split at h
      · next hsum =>
        obtain ⟨value, hvalue, hle⟩ := threshold_shape h
        rw [if_pos hsum, hvalue]
        exact ⟨_, rfl, by simpa [AchievementRule.wellFormed] using hle⟩
      · next hsum =>
        rw [if_neg hsum]
        split at h
        · next hcombination =>
          have hset : ¬rule.is "type" "ACHIEVEMENT_SET" = true := by
            rw [Properties.is, is_eq_true hcombination]
            decide
          rw [Bool.and_eq_true] at h
          obtain ⟨rules, hrules, hne, hall⟩ := combination_shape h.2
          rw [if_neg hset, if_pos hcombination, hrules]
          refine ⟨_, rfl, ?_⟩
          rw [AchievementRule.wellFormed, hall, Bool.and_true, Bool.not_eq_true',
            List.isEmpty_eq_false_iff]
          exact hne
        · split at h
          · next hset =>
            obtain ⟨ids, minRequired, hids, hne⟩ := achievementSet_shape h
            rw [if_pos hset, hids]
            refine ⟨_, rfl, ?_⟩
            rw [AchievementRule.wellFormed, Bool.not_eq_true', List.isEmpty_eq_false_iff]
            exact hne
          · cases h
  | .null, h => by cases h
  | .bool _, h => by cases h
  | .number _, h => by cases h
  | .infinity _, h => by cases h
  | .string _, h => by cases h
  | .array _, h => by cases h

theorem combination_shape : ∀ {rule : Properties}, isCombination rule = true →
    ∃ rules, combinationOf rule = some rules ∧ rules ≠ [] ∧ allWellFormed rules = true
  | .nil, h => by cases h
  | .cons name value rest, h => by
    rw [isCombination] at h
    rw [combinationOf]
    split at h
    · next hname =>
      rw [if_pos hname]
      exact ruleArray_shape h
    · next hname =>
      rw [if_neg hname]
      exact combination_shape h

theorem ruleArray_shape : ∀ {json : Json}, isRuleArray json = true →
    ∃ rules, rulesOf json = some rules ∧ rules ≠ [] ∧ allWellFormed rules = true
  | .array rules, h => by
    rw [isRuleArray, Bool.and_eq_true] at h
    obtain ⟨rules', hrules, hlength, hall⟩ := every_shape h.2
    refine ⟨rules', hrules, ?_, hall⟩
    rintro rfl
    have hnil := List.eq_nil_of_length_eq_zero hlength.symm
    rw [hnil] at h
    exact absurd h.1 (by decide)
  | .null, h => by cases h
  | .bool _, h => by cases h
  | .number _, h => by cases h
  | .infinity _, h => by cases h
  | .string _, h => by cases h
  | .object _, h => by cases h

theorem every_shape : ∀ {rules : List Json}, everyValid rules = true →
    ∃ rules', mapRules rules = some rules' ∧ rules'.length = rules.length ∧
      allWellFormed rules' = true
  | [], _ => ⟨[], rfl, rfl, rfl⟩
  | rule :: rules, h => by
    rw [everyValid, Bool.and_eq_true] at h
    obtain ⟨first, hfirst, hwell⟩ := accepted_shape h.1
    obtain ⟨rest, hrest, hlength, hall⟩ := every_shape h.2
    refine ⟨first :: rest, ?_, congrArg Nat.succ hlength, ?_⟩
    · rw [mapRules, hfirst, hrest]
    · rw [allWellFormed, hwell, hall]
      rfl

end

example : isValidAchievementRuleShape (.object (.cons "type" (.string "COMBINATION")
    (.cons "operator" (.string "AND") (.cons "rules" (.array [.object (.cons "type"
      (.string "ACHIEVEMENT_SET") (.cons "achievementIds" (.array [.string "a"]) .nil))]) .nil)))) =
        true := by decide

end Bumpa.Loyalty
