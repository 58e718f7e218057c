import Bumpa.Loyalty.Serialization

/-! # What purchases earn

What a user gets can be said of the number and the sum of the user's purchases alone: the
achievements are those that the rules derive from none at these counters (`achieved`), and the badges
are those whose requirement they meet (`Earns`). Both grow with the counters.

`reaches_badges`: at any time, a user with a commit has the badges that the user's stats earn.
-/
namespace Bumpa.Loyalty
open Bumpa.Events Bumpa.Relational Bumpa.Transition Bumpa.Order
set_option autoImplicit false

variable {cfg : Config} {counters counters' : Counters} {badge : BadgeConfig}

/-- The achievements that the active rules derive at these counters. -/
def achieved (cfg : Config) (counters : Counters) : Set String :=
  saturation (unlocks counters cfg.activeAchievements) ∅

/-- The badge's requirement is met by what is achieved. -/
def Earns (cfg : Config) (counters : Counters) (badge : BadgeConfig) : Prop :=
  badge.requiredAchievementCount ≤ (achieved cfg counters).ncard ∧
    ∀ id ∈ badge.requiredAchievementIds, id ∈ achieved cfg counters

theorem achieved_subset (cfg : Config) (counters : Counters) :
    achieved cfg counters ⊆ idSet (cfg.activeAchievements.map (·.id)) := by
  refine saturation_le (Set.empty_subset _) ?_
  rintro id ⟨config, hmem, rfl, -⟩
  exact List.mem_map_of_mem hmem

theorem achieved_finite (cfg : Config) (counters : Counters) : (achieved cfg counters).Finite :=
  (List.finite_toSet _).subset (achieved_subset cfg counters)

theorem achieved_mono (h : counters ≤ counters') : achieved cfg counters ⊆ achieved cfg counters' :=
  saturation_mono (unlocks_mono h _) le_rfl

/-- More purchases earn no less. -/
theorem Earns.mono (h : Earns cfg counters badge) (hle : counters ≤ counters') :
    Earns cfg counters' badge :=
  ⟨h.1.trans (Set.ncard_le_ncard (achieved_mono hle) (achieved_finite cfg counters')),
    fun id hid => achieved_mono hle (h.2 id hid)⟩

theorem idSet_ncard {ids : List String} (hnodup : ids.Nodup) : (idSet ids).ncard = ids.length := by
  have hcoe : idSet ids = ↑ids.toFinset := by
    ext id
    simp [idSet]
  rw [hcoe, Set.ncard_coe_finset, List.toFinset_card_of_nodup hnodup]

/-- The requirement is checked against a list of the achievements without duplicates. -/
theorem earns_iff {ids : List String} (hids : idSet ids = achieved cfg counters) (hnodup : ids.Nodup) :
    meetsBadgeRequirement badge ids.length ids = true ↔ Earns cfg counters badge := by
  rw [Earns, ← hids, idSet_ncard hnodup]
  simp only [meetsBadgeRequirement, Bool.and_eq_true, decide_eq_true_eq, List.all_eq_true]
  exact Iff.rfl

section Runs
variable {tr : List (Move State Label)} {s : State}

/-- What a user has gained is that of the user's commits. -/
theorem reaches_gains (hkeyed : cfg.Keyed) (hcfg : cfg.OwnSnapshots) (h : Reaches cfg tr s)
    (userId : String) :
    Gains cfg userId (commitsFor cfg s userId) initial.world.db s.world.db := by
  have hs : Serialized cfg initial.world.db s := Run.invariant (Serialized cfg initial.world.db)
    (fun _ _ _ hs hstep => step_serialized hkeyed hcfg hs hstep) h
    (start_serialized cfg initial.world.db 0)
  exact (commitAll_gains hkeyed initial.world.db userId s.world.commits).same
    (hs.committed.sameFor userId)

/-- The achievements of a user with a commit are those that the stats earn, each once. -/
theorem reaches_achieved (hkeyed : cfg.Keyed) (hcfg : cfg.OwnSnapshots) (h : Reaches cfg tr s)
    {userId : String} (hsome : commitsFor cfg s userId ≠ []) :
    idSet (s.world.db.achievementIds userId) = achieved cfg (s.world.db.counters userId) ∧
      (s.world.db.achievementIds userId).Nodup := by
  have haccrued := reaches_gains hkeyed hcfg h userId
  rw [Gains, if_neg hsome] at haccrued
  obtain ⟨unlocked, hids, hnodup, -⟩ := haccrued.kept
  refine ⟨?_, hids ▸ hnodup⟩
  rw [haccrued.achievements]
  exact congrArg _ (Set.eq_empty_of_forall_notMem fun _ hmem => List.not_mem_nil hmem)

/-- At any time, a user has the badges that the user's stats earn. -/
theorem reaches_badges (hkeyed : cfg.Keyed) (hcfg : cfg.OwnSnapshots) (h : Reaches cfg tr s)
    (userId id : String) :
    id ∈ s.world.db.badgeIds userId ↔ commitsFor cfg s userId ≠ [] ∧
      ∃ badge ∈ cfg.activeBadges, badge.id = id ∧ Earns cfg (s.world.db.counters userId) badge := by
  have haccrued := reaches_gains hkeyed hcfg h userId
  unfold Gains at haccrued
  split at haccrued
  · next hnone =>
    rw [haccrued.badges]
    exact ⟨fun hmem => absurd hmem List.not_mem_nil, fun hsome => absurd hnone hsome.1⟩
  · next hsome =>
    obtain ⟨hset, hnodup⟩ := reaches_achieved hkeyed hcfg h hsome
    have hearned : ∀ badge, s.world.db.hasEarned userId badge ↔
        Earns cfg (s.world.db.counters userId) badge := fun badge => earns_iff hset hnodup
    simp only [haccrued.badges, hearned]
    exact ⟨fun hmem => ⟨hsome, hmem.resolve_left List.not_mem_nil⟩, fun hmem => Or.inr hmem.2⟩

end Runs

end Bumpa.Loyalty
