import Bumpa.Loyalty.AdminConfigs

/-! # The names of the badges

The columns `id` and `name` of the badges are unique. A transaction of `AdminConfigService` keeps the
names distinct: room moves badges behind the position and no name, and the row that is saved has a
name that no other badge has. Two updates of one badge at a time are taken one after the other: what
a lost update writes back is what the badge had before.
-/
namespace Bumpa.Loyalty
open Bumpa.Relational
set_option autoImplicit false

/-- No two badges of the table have one name. -/
def NamesUnique (badges : BadgeTable) : Prop :=
  ∀ id id' badge badge', badges.row id = some badge → badges.row id' = some badge' →
    badge.name = badge'.name → id = id'

section Names
variable {badges badges' : BadgeTable} {badge : BadgeConfig}

theorem makeRoom_row {room : Room BadgeConfig} {id : String}
    (h : (badgeConstraints.makeRoom badges room).row id = some badge) :
    ∃ badge₀, badges.row id = some badge₀ ∧ badge₀.name = badge.name := by
  obtain ⟨badge₀, hrow, rfl⟩ := Option.map_eq_some_iff.mp h
  refine ⟨badge₀, hrow, ?_⟩
  split <;> rfl

theorem NamesUnique.makeRoom (h : NamesUnique badges) (room : Room BadgeConfig) :
    NamesUnique (badgeConstraints.makeRoom badges room) := by
  intro id id' badge badge' hrow hrow' hname
  obtain ⟨_, hrow₀, hname₀⟩ := makeRoom_row hrow
  obtain ⟨_, hrow₀', hname₀'⟩ := makeRoom_row hrow'
  exact h id id' _ _ hrow₀ hrow₀' (by rw [hname₀, hname₀', hname])

theorem saveBadgeConfig_free (h : saveBadgeConfig badges badge = .ok badges') :
    ∀ id other, badges.row id = some other → other.name = badge.name → id = badge.id := by
  unfold saveBadgeConfig at h
  split at h
  · cases h
  · next hfree =>
    intro id other hrow hname
    by_contra hne
    have hid : other.id = id := badges.key_eq hrow
    refine hfree (List.any_eq_true.mpr ⟨other, Table.mem_rows.mpr (by rwa [hid]), ?_⟩)
    simp [hname, hid, hne]

theorem NamesUnique.save (h : NamesUnique badges)
    (hsave : saveBadgeConfig badges badge = .ok badges') : NamesUnique badges' := by
  have hfree := saveBadgeConfig_free hsave
  obtain rfl := saveBadgeConfig_put hsave
  intro id id' other other' hrow hrow' hname
  rw [Table.put_row] at hrow hrow'
  split at hrow <;> split at hrow'
  · next heq heq' => rw [heq, heq']
  · next heq _ =>
    rw [← Option.some.inj hrow] at hname
    rw [heq, hfree id' other' hrow' hname.symm]
  · next _ heq' =>
    rw [← Option.some.inj hrow'] at hname
    rw [heq', hfree id other hrow hname]
  · exact h id id' other other' hrow hrow' hname

/-- A transaction that succeeds keeps the names unique. -/
theorem NamesUnique.perform {edit : Edit BadgeConfig} (h : NamesUnique badges)
    (hperform : edit.perform badgeConstraints badges = .ok badges') : NamesUnique badges' := by
  obtain ⟨room, badge, _, hwrite⟩ := Edit.perform_ok hperform
  have hroom : NamesUnique (room.elim badges (badgeConstraints.makeRoom badges)) := by
    cases room with
    | none => exact h
    | some room => exact h.makeRoom room
  rcases (write_ok hwrite).2 with rfl | hsave
  · exact hroom
  · exact hroom.save hsave

theorem createBadge_namesUnique {achievements : List AchievementConfig}
    {dto : CreateBadgeConfigDto} (h : NamesUnique badges)
    (hcreate : createBadge achievements badges dto = .ok badges') : NamesUnique badges' := by
  obtain ⟨_, _, hperform⟩ := bind_ok hcreate
  exact h.perform hperform

theorem updateBadge_namesUnique {achievements : List AchievementConfig} {id : String}
    {dto : UpdateBadgeConfigDto} (h : NamesUnique badges)
    (hupdate : updateBadge achievements badges id dto = .ok badges') : NamesUnique badges' := by
  obtain ⟨_, _, hperform⟩ := bind_ok hupdate
  exact h.perform hperform

end Names
end Bumpa.Loyalty
