import Bumpa.Loyalty.AdminConfigs

/-! # The seeded configuration (`apps/loyalty-service/src/config`)

What `LoyaltyConfigSeederService` inserts into empty tables.
-/
namespace Bumpa.Loyalty
open Bumpa.Relational
set_option autoImplicit false

def DEFAULT_ACHIEVEMENT_GROUPS : List AchievementGroup :=
  [⟨"purchases", "Purchases", 1⟩, ⟨"spend", "Spend", 2⟩, ⟨"milestones", "Milestones", 3⟩]

def DEFAULT_ACHIEVEMENTS : List AchievementConfig :=
  [⟨"ach_first_purchase", "First Purchase", "purchases", 1, .count 1 "GTE", true⟩,
    ⟨"ach_5_purchases", "5 Purchases", "purchases", 2, .count 5 "GTE", true⟩,
    ⟨"ach_10_purchases", "10 Purchases", "purchases", 3, .count 10 "GTE", true⟩,
    ⟨"ach_big_spender", "Big Spender", "spend", 1, .sum 10000000 "GTE", true⟩,
    ⟨"ach_loyal_shopper", "Loyal Shopper", "milestones", 1,
      .combination [.count 5 "GTE", .sum 2500000 "GTE",
        .achievementSet ["ach_first_purchase", "ach_5_purchases"] none], true⟩,
    ⟨"ach_power_customer", "Power Customer", "milestones", 2,
      .achievementSet ["ach_first_purchase", "ach_5_purchases", "ach_10_purchases",
        "ach_big_spender", "ach_loyal_shopper"] (some 4), true⟩]

def DEFAULT_BADGES : List BadgeConfig :=
  [⟨"bdg_beginner", "Beginner", 1, 1, ["ach_first_purchase"], 30000, "NGN", true⟩,
    ⟨"bdg_intermediate", "Intermediate", 2, 3,
      ["ach_first_purchase", "ach_5_purchases", "ach_loyal_shopper"], 30000, "NGN", true⟩,
    ⟨"bdg_advanced", "Advanced", 3, 5, ["ach_first_purchase", "ach_5_purchases",
      "ach_10_purchases", "ach_big_spender", "ach_loyal_shopper"], 30000, "NGN", true⟩,
    ⟨"bdg_elite", "Elite", 4, 6, ["ach_first_purchase", "ach_5_purchases", "ach_10_purchases",
      "ach_big_spender", "ach_loyal_shopper", "ach_power_customer"], 30000, "NGN", true⟩]

def insertAll {V : Type} {key : V → String} (rows : List V) : Table String V key :=
  rows.foldl Table.put Table.empty

def seeded : Catalog :=
  ⟨insertAll DEFAULT_ACHIEVEMENT_GROUPS, insertAll DEFAULT_ACHIEVEMENTS, insertAll DEFAULT_BADGES⟩


/-- A row of the seeded configuration is one of the defaults. -/
theorem insertAll_mem {V : Type} {key : V → String} {rows : List V} {k : String} {v : V}
    (h : (insertAll rows : Table String V key).row k = some v) : v ∈ rows := by
  rcases Table.foldl_put_mem h with hmem | hempty
  · exact hmem
  · cases hempty

end Bumpa.Loyalty
