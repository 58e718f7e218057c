import Bumpa.Loyalty.StatsColumns
import Bumpa.Purchases.CreatePurchaseDto

/-! # What purchases can unlock

A purchase that the columns of the stats refuse leaves nothing behind. Of a fresh user the counters
end up below `maxCounters`, and the smallest purchases reach them; since unlocking is monotone, what
some purchases unlock is the saturation at `maxCounters` (`exists_purchases_iff`).
-/
namespace Bumpa.Loyalty
open Bumpa.Events Bumpa.Relational Bumpa.Order
set_option autoImplicit false

/-- The largest value of a column of type `integer`. -/
def maxInteger : ℕ := 2147483647

def maxCounters : Counters := ⟨maxInteger, maxInteger⟩

/-- Purchases of a user that have not been handled, of amounts that `CreatePurchaseDto` accepts. -/
structure PurchasesBy (cfg : Config) (w : World) (userId : String) (eventIds : List ReadableId) :
    Prop where
  user : ∀ eventId ∈ eventIds, (cfg.payload eventId).userId = userId
  amount : ∀ eventId ∈ eventIds, 1 ≤ (cfg.payload eventId).amountKobo ∧
    ((cfg.payload eventId).amountKobo : ℤ) ≤ Purchases.maxAmountKobo
  new : ∀ eventId ∈ eventIds, eventId ∉ w.db.processed
  distinct : eventIds.Nodup

/-- A user without a purchase. -/
structure World.Fresh (w : World) (userId : String) : Prop where
  stats : w.db.stats.row userId = none
  achievements : w.db.achievementIds userId = []

/-- What is counted of purchases keeps the counters in range. -/
theorem PurchasesBy.counters_le {cfg : Config} {w w' : World} {userId : String}
    {eventIds : List ReadableId} (hcfg : cfg.Keyed) (hpurchases : PurchasesBy cfg w userId eventIds)
    (h : Processes cfg w eventIds w') : ∃ taken, Gains cfg userId taken w.db w'.db ∧
      (taken ≠ [] → w'.db.counters userId ≤ maxCounters) := by
  obtain ⟨taken, hnodup, hgreedy, hgains⟩ := processes_gains hcfg hpurchases.distinct
    (fun eventId hmem => (hpurchases.amount eventId hmem).1) h userId
  refine ⟨taken, hgains, fun hsome => ?_⟩
  obtain ⟨hcount, htotal⟩ := hgains.counters
  have hfits : FitTogether cfg w.db userId (greedy (FitTogether cfg w.db userId)
    (pending cfg w.db userId eventIds)) := greedy_fits (fitTogether_empty _ _ _) _
  rw [← hgreedy] at hfits
  obtain ⟨hfewer, hless⟩ := hfits (List.toFinset_nonempty_iff _ |>.mpr hsome)
  rw [List.toFinset_card_of_nodup hnodup, Int4.fits_natCast_iff] at hfewer
  rw [List.sum_toFinset _ hnodup, Int4.fits_natCast_iff] at hless
  exact ⟨hcount.trans_le hfewer, htotal.trans_le hless⟩

/-! ## Fresh users -/

/-- One-kobo purchases of a user. -/
def koboConfig (userId : String) (achievements : List AchievementConfig)
    (badges : List BadgeConfig) : Config where
  payload := fun eventId => ⟨userId, eventId, 1, ⟨userId, "user@example.com", "User", none, none⟩⟩
  correlationId := id
  achievements := achievements
  badges := badges

theorem koboConfig_purchases (w : World) (userId : String) (achievements : List AchievementConfig)
    (badges : List BadgeConfig) (n : ℕ) : PurchasesBy (koboConfig userId achievements badges) w
      userId ((List.range n).map (· + (w.db.processed.sum + 1))) where
  user := fun _ _ => rfl
  amount := by
    have hmax : ((1 : ℕ) : ℤ) ≤ Purchases.maxAmountKobo := by decide
    exact fun _ _ => ⟨Nat.le_refl 1, hmax⟩
  new := by
    intro eventId hmem hdone
    obtain ⟨k, _, rfl⟩ := List.mem_map.mp hmem
    have hle := List.single_le_sum (fun _ _ => Nat.zero_le _) _ hdone
    omega
  distinct := List.Nodup.map (fun a b h => Nat.add_right_cancel h) List.nodup_range

section Fresh
variable {achievements : List AchievementConfig} {badges : List BadgeConfig} {w w' : World}
  {userId id : String} {eventIds : List ReadableId}

theorem koboConfig_sum (userId : String) (achievements : List AchievementConfig)
    (badges : List BadgeConfig) (eventIds : List ReadableId) : (eventIds.map fun eventId =>
      ((koboConfig userId achievements badges).payload eventId).amountKobo).sum = eventIds.length := by
  have hones : (eventIds.map fun _ => 1).sum = eventIds.length := by
    rw [List.map_const', List.sum_replicate, Nat.nsmul_eq_mul, Nat.mul_one]
  exact hones

/-- As many of them as the columns take reach the largest counters. -/
theorem koboConfig_accrues (hcfg : (koboConfig userId achievements badges).Keyed)
    (hfresh : w.Fresh userId)
    (hpurchases : PurchasesBy (koboConfig userId achievements badges) w userId eventIds)
    (hlength : eventIds.length = maxInteger)
    (h : Processes (koboConfig userId achievements badges) w eventIds w') :
    ∃ taken, Accrues (koboConfig userId achievements badges) userId taken w.db w'.db ∧
      w'.db.counters userId = maxCounters := by
  have hzero : w.db.purchaseCount userId = 0 ∧ w.db.totalSpendKobo userId = 0 := by
    simp only [Database.purchaseCount, Database.totalSpendKobo, hfresh.stats]
    exact ⟨rfl, rfl⟩
  have hfit : FitTogether (koboConfig userId achievements badges) w.db userId eventIds.toFinset := by
    intro _
    rw [List.toFinset_card_of_nodup hpurchases.distinct, List.sum_toFinset _ hpurchases.distinct,
      koboConfig_sum, hzero.1, hzero.2, hlength, Nat.zero_add, and_self]
    decide
  obtain ⟨taken, hperm, hgains, -⟩ := processes_fitting hcfg hpurchases.new hpurchases.user
    (fun eventId hmem => (hpurchases.amount eventId hmem).1) hpurchases.distinct hfit h
  obtain ⟨hcount, htotal⟩ := hgains.counters
  rw [hzero.1, Nat.zero_add, hperm.length_eq, hlength] at hcount
  rw [hzero.2, Nat.zero_add, koboConfig_sum, hperm.length_eq, hlength] at htotal
  have hsome : taken ≠ [] := by
    rintro rfl
    exact absurd (hperm.length_eq.trans hlength) (by decide)
  rw [Gains, if_neg hsome] at hgains
  refine ⟨taken, hgains, ?_⟩
  rw [Database.counters, hcount, htotal]
  rfl

/-- Some purchases of a fresh user unlock an achievement exactly if it follows from the rules at
the largest counters. -/
theorem exists_purchases_iff (hids : (achievements.map (·.id)).Nodup)
    (hbadges : (badges.map (·.id)).Nodup) (hfresh : w.Fresh userId) :
    (∃ payload correlationId eventIds w',
      PurchasesBy ⟨payload, correlationId, achievements, badges⟩ w userId eventIds ∧
        Processes ⟨payload, correlationId, achievements, badges⟩ w eventIds w' ∧
        id ∈ w'.db.achievementIds userId) ↔
      id ∈ saturation (unlocks maxCounters (koboConfig userId achievements badges).activeAchievements)
        ∅ := by
  have hempty : idSet (w.db.achievementIds userId) = ∅ := by
    rw [hfresh.achievements]
    exact Set.eq_empty_of_forall_notMem fun _ => List.not_mem_nil
  constructor
  · rintro ⟨payload, correlationId, eventIds, w', hpurchases, hrun, hid⟩
    obtain ⟨taken, hgains, hle⟩ := hpurchases.counters_le ⟨hids, hbadges⟩ hrun
    have hmem : id ∈ idSet (w'.db.achievementIds userId) := hid
    by_cases hnone : taken = []
    · rw [Gains, if_pos hnone] at hgains
      rw [hgains.achievements, hempty] at hmem
      exact hmem.elim
    · rw [Gains, if_neg hnone] at hgains
      rw [hgains.achievements, hempty] at hmem
      exact saturation_mono (unlocks_mono (hle hnone) _) le_rfl hmem
  · intro hid
    have hcfg : (koboConfig userId achievements badges).Keyed := ⟨hids, hbadges⟩
    have hpurchases := koboConfig_purchases w userId achievements badges maxInteger
    generalize hlist : (List.range maxInteger).map (· + (w.db.processed.sum + 1)) = eventIds
      at hpurchases
    have hlength : eventIds.length = maxInteger := by
      rw [← hlist, List.length_map, List.length_range]
    obtain ⟨w', hrun, -⟩ := processes_purchases hcfg w eventIds
    obtain ⟨taken, haccrues, hcounters⟩ := koboConfig_accrues hcfg hfresh hpurchases hlength hrun
    refine ⟨_, _, eventIds, w', hpurchases, hrun, ?_⟩
    have hset := haccrues.achievements
    rw [hcounters, hempty] at hset
    have hmem : id ∈ idSet (w'.db.achievementIds userId) := by
      rw [hset]
      exact hid
    exact hmem

end Fresh

end Bumpa.Loyalty
