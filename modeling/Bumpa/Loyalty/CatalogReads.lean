import Bumpa.Loyalty.SeedingRuns
import Mathlib.Data.List.Sort

/-! # `AdminConfigService.getCatalog`

The catalog is read with three SELECTs, and calls and starts go on between them. `requiredAchievements`
holds the required achievements that the second one has found.

`catalog_resolved`: it lacks exactly those that are inserted before the third SELECT, and an
achievement is shown without its group exactly if the group is inserted before the second one.
-/
namespace Bumpa.Loyalty
open Bumpa.Relational Bumpa.Transition
set_option autoImplicit false

structure BadgeCatalogItem where
  badge : BadgeConfig
  requiredAchievements : List AchievementConfig

structure LoyaltyConfigCatalogResponse where
  groups : List AchievementGroup
  achievements : List AchievementConfig
  badges : List BadgeCatalogItem

def Catalog.findGroups (c : Catalog) : List AchievementGroup :=
  c.groups.rows.insertionSort (·.sortOrder ≤ ·.sortOrder)

def Catalog.findAchievements (c : Catalog) : List AchievementConfig :=
  c.achievements.rows.insertionSort fun a b =>
    a.groupKey < b.groupKey ∨ (a.groupKey = b.groupKey ∧ a.sortOrder ≤ b.sortOrder)

def Catalog.findBadges (c : Catalog) : List BadgeConfig :=
  c.badges.rows.insertionSort (·.sortOrder ≤ ·.sortOrder)

/-- `new Map(…)`: the last entry for an id counts. -/
def achievementsById (achievements : List AchievementConfig) (id : String) :
    Option AchievementConfig :=
  achievements.reverse.find? (·.id = id)

def toBadgeCatalogItem (achievements : List AchievementConfig) (badge : BadgeConfig) :
    BadgeCatalogItem where
  badge := badge
  requiredAchievements := badge.requiredAchievementIds.filterMap (achievementsById achievements)

/-- The answer to a request whose SELECTs are of three states. -/
def getCatalog (first second third : Catalog) : LoyaltyConfigCatalogResponse where
  groups := first.findGroups
  achievements := second.findAchievements
  badges := third.findBadges.map (toBadgeCatalogItem second.findAchievements)

section Reads
variable {first second third c : Catalog}

theorem mem_findGroups {group : AchievementGroup} :
    group ∈ c.findGroups ↔ c.groups.row group.key = some group := by
  rw [Catalog.findGroups, List.mem_insertionSort, Table.mem_rows]

theorem mem_findAchievements {achievement : AchievementConfig} :
    achievement ∈ c.findAchievements ↔ c.achievements.row achievement.id = some achievement := by
  rw [Catalog.findAchievements, List.mem_insertionSort, Table.mem_rows]

theorem achievementsById_eq (id : String) :
    achievementsById c.findAchievements id = c.achievements.row id := by
  unfold achievementsById
  cases hfind : c.findAchievements.reverse.find? (·.id = id) with
  | none =>
    rw [List.find?_eq_none] at hfind
    cases hrow : c.achievements.row id with
    | none => rfl
    | some achievement =>
      have hid := c.achievements.key_eq hrow
      have hmem : achievement ∈ c.findAchievements := mem_findAchievements.mpr (by rw [hid, hrow])
      exact absurd hid (by simpa using hfind achievement (List.mem_reverse.mpr hmem))
  | some achievement =>
    have hmem := List.mem_reverse.mp (List.mem_of_find?_eq_some hfind)
    have hid : achievement.id = id := by simpa using List.find?_some hfind
    rw [← hid, mem_findAchievements.mp hmem]

/-- The ids that are resolved, in the order of the badge. -/
theorem requiredAchievements_ids (badge : BadgeConfig) :
    (toBadgeCatalogItem c.findAchievements badge).requiredAchievements.map (·.id) =
      badge.requiredAchievementIds.filter fun id => (c.achievements.row id).isSome := by
  rw [toBadgeCatalogItem]
  simp only
  induction badge.requiredAchievementIds with
  | nil => rfl
  | cons id ids ih =>
    rw [List.filterMap_cons, List.filter_cons, achievementsById_eq]
    cases hrow : c.achievements.row id with
    | none => simpa using ih
    | some achievement => simpa [c.achievements.key_eq hrow] using ih

theorem mem_requiredAchievements {badge : BadgeConfig} {achievement : AchievementConfig}
    (h : achievement ∈ (toBadgeCatalogItem c.findAchievements badge).requiredAchievements) :
    achievement ∈ c.findAchievements := by
  obtain ⟨id, -, hid⟩ := List.mem_filterMap.mp h
  rw [achievementsById_eq] at hid
  rw [mem_findAchievements, c.achievements.key_eq hid, hid]

theorem exists_findGroups {key : String} :
    (∃ group ∈ c.findGroups, group.key = key) ↔ (c.groups.row key).isSome = true := by
  constructor
  · rintro ⟨group, hgroup, rfl⟩
    rw [mem_findGroups.mp hgroup]
    rfl
  · intro hsome
    obtain ⟨group, hrow⟩ := Option.isSome_iff_exists.mp hsome
    have hkey := c.groups.key_eq hrow
    exact ⟨group, mem_findGroups.mpr (by rw [hkey, hrow]), hkey⟩

end Reads

namespace Seeder

def State.hasGroup (key : String) (s : State) : Bool := (s.catalog.groups.row key).isSome

def State.hasAchievement (id : String) (s : State) : Bool := (s.catalog.achievements.row id).isSome

theorem run_hasGroup {s s' : State} {tr : List (Move State Label)} (key : String)
    (hs : Invariant s) (h : Run step s tr s') (hkey : s'.hasGroup key = true) :
    s.hasGroup key = true ↔ appears (State.hasGroup key) tr = false := by
  have hiff := h.appears_iff (p := State.hasGroup key) Invariant (fun _ _ _ => step_invariant)
    (fun s l t hs hstep => (step_later hs hstep).groups key) hs
  rw [← Bool.not_eq_true (appears _ tr), hiff]
  simp [hkey]

theorem run_hasAchievement {s s' : State} {tr : List (Move State Label)} (id : String)
    (hs : Invariant s) (h : Run step s tr s') (hid : s'.hasAchievement id = true) :
    s.hasAchievement id = true ↔ appears (State.hasAchievement id) tr = false := by
  have hiff := h.appears_iff (p := State.hasAchievement id) Invariant (fun _ _ _ => step_invariant)
    (fun s l t hs hstep => (step_later hs hstep).achievements id) hs
  rw [← Bool.not_eq_true (appears _ tr), hiff]
  simp [hid]

/-- Whatever starts and calls do between the SELECTs: a badge shows its required achievements except
for those that were inserted after the second one, and an achievement is shown with its group unless
that was inserted after the first one. -/
theorem catalog_resolved {c : Catalog} {tr tr' tr'' : List (Move State Label)} {s₁ s₂ s₃ : State}
    (hc : Admin.Closed c) (hgrouped : c.Grouped) (hfirst : Reaches c tr s₁)
    (hsecond : Run step s₁ tr' s₂) (hthird : Run step s₂ tr'' s₃) :
    let response := getCatalog s₁.catalog s₂.catalog s₃.catalog
    (∀ achievement ∈ response.achievements,
      ((∃ group ∈ response.groups, group.key = achievement.groupKey) ↔
        appears (State.hasGroup achievement.groupKey) tr' = false)) ∧
      ∀ item ∈ response.badges,
        item.requiredAchievements.map (·.id) =
            item.badge.requiredAchievementIds.filter
              (fun id => !appears (State.hasAchievement id) tr'') ∧
          ∀ achievement ∈ item.requiredAchievements, achievement ∈ response.achievements := by
  have hs₁ := (reaches_seeds hc hgrouped hfirst).1
  have hs₂ := hsecond.invariant Invariant (fun _ _ _ => step_invariant) hs₁
  have hs₃ := hthird.invariant Invariant (fun _ _ _ => step_invariant) hs₂
  refine ⟨fun achievement hmem => ?_, fun item hmem => ?_⟩
  · have hgroup := hs₂.groups.rows _ achievement (mem_findAchievements.mp hmem)
    exact exists_findGroups.trans (run_hasGroup _ hs₁ hsecond hgroup)
  · obtain ⟨badge, hbadge, rfl⟩ := List.mem_map.mp hmem
    refine ⟨?_, fun achievement => mem_requiredAchievements⟩
    rw [requiredAchievements_ids]
    refine List.filter_congr fun id hid => ?_
    have hrow := Table.mem_rows.mp ((List.mem_insertionSort _).mp hbadge)
    have hstored := hs₃.admin.closed.badges _ badge hrow id hid
    rw [Bool.eq_iff_iff, Bool.not_eq_true']
    exact run_hasAchievement id hs₂ hthird hstored

/-- An achievement, and a badge for it, between the second and the third SELECT. -/
def callsBetween : List Label :=
  callsNext ++ .admin (.submit (.createBadge ⟨"bdg_champion", "Champion", 9, 1, ["ach_champion"],
    none, none, none⟩)) :: List.replicate 6 (.admin (.run 1 .ok))

theorem catalog_resolved_between : ∃ tr tr'' s₂ s₃, Reaches emptyCatalog tr s₂ ∧
    Run step s₂ tr'' s₃ ∧ ∃ item ∈ (getCatalog s₂.catalog s₂.catalog s₃.catalog).badges,
      item.badge.requiredAchievementIds = ["ach_champion"] ∧ item.requiredAchievements = [] := by
  obtain ⟨tr, s₂, h, hthird⟩ := exists_run_of_trace step (initial emptyCatalog)
    (racingStarts ++ wins) (fun r => (trace step r.2 callsBetween).any fun r' =>
      r'.2.catalog.badges.rows.any (·.requiredAchievementIds = ["ach_champion"]) &&
        appears (State.hasAchievement "ach_champion") r'.1) (by decide +kernel)
  obtain ⟨tr'', s₃, h', hlast⟩ := exists_run_of_trace step s₂ callsBetween _ hthird
  rw [Bool.and_eq_true, List.any_eq_true] at hlast
  obtain ⟨⟨badge, hbadge, hrequires⟩, happears⟩ := hlast
  have hids : badge.requiredAchievementIds = ["ach_champion"] := by simpa using hrequires
  have hmem := List.mem_map_of_mem (f := toBadgeCatalogItem s₂.catalog.findAchievements)
    ((List.mem_insertionSort (·.sortOrder ≤ ·.sortOrder)).mpr hbadge)
  have hresolved := ((catalog_resolved emptyCatalog_closed emptyCatalog_grouped h .nil h').2
    _ hmem).1
  have hbadge : (toBadgeCatalogItem s₂.catalog.findAchievements badge).badge = badge := rfl
  rw [hbadge, hids, List.filter_singleton, happears] at hresolved
  exact ⟨tr, tr'', s₂, s₃, h, h', _, hmem, hids, List.map_eq_nil_iff.mp hresolved⟩

end Seeder

end Bumpa.Loyalty
