import Bumpa.Loyalty.ConfigReferences

/-! # References to groups

The foreign key from an achievement to its group is checked by the INSERT or UPDATE that writes the
achievement, which is committed later. As no group is ever removed, it holds then too; and an
execution that makes room writes rows that have their groups already.
-/
namespace Bumpa.Loyalty
open Bumpa.Relational
set_option autoImplicit false

/-- The foreign key. -/
def AchievementConfig.Grouped (groups : GroupTable) (achievement : AchievementConfig) : Prop :=
  (groups.row achievement.groupKey).isSome = true

def Catalog.Grouped (c : Catalog) : Prop :=
  ∀ id achievement, c.achievements.row id = some achievement → achievement.Grouped c.groups

theorem saveAchievementConfig_grouped {groups : GroupTable}
    {achievements achievements' : AchievementTable} {achievement : AchievementConfig}
    (h : saveAchievementConfig groups achievements achievement = .ok achievements') :
    achievement.Grouped groups := by
  unfold saveAchievementConfig at h
  split at h
  · cases h
  · split at h
    · cases h
    · next hgroup => simpa [AchievementConfig.Grouped, Option.isSome_iff_ne_none] using hgroup

section Grouped
variable {groups : GroupTable} {T : AchievementTable} {others : List (List AchievementConfig)}
  {edit : Edit AchievementConfig} {written written' : List AchievementConfig}
  {pc pc' : EditPc AchievementConfig}

theorem view_grouped (hT : ∀ id achievement, T.row id = some achievement → achievement.Grouped groups)
    (hwritten : ∀ achievement ∈ written, achievement.Grouped groups) {id : String}
    {achievement : AchievementConfig} (h : (view T written).row id = some achievement) :
    achievement.Grouped groups :=
  (Table.foldl_put_mem h).elim (hwritten achievement) (hT id achievement)

theorem append_grouped {achievement : AchievementConfig} {T' : AchievementTable}
    (hwritten : ∀ achievement ∈ written, achievement.Grouped groups)
    (h : saveAchievementConfig groups (view T written) achievement = .ok T') :
    ∀ row ∈ written ++ [achievement], row.Grouped groups := by
  intro row hrow
  rcases List.mem_append.mp hrow with hold | hnew
  · exact hwritten row hold
  · rw [List.mem_singleton.mp hnew]
    exact saveAchievementConfig_grouped h

theorem editStatement_grouped
    (hT : ∀ id achievement, T.row id = some achievement → achievement.Grouped groups)
    (hwritten : ∀ achievement ∈ written, achievement.Grouped groups)
    (h : editStatement (achievementColumns groups) T others edit written pc =
      some (.ok (written', pc'))) : ∀ achievement ∈ written', achievement.Grouped groups := by
  cases editStatement_steps h with
  | find _ => exact hwritten
  | makeRoom =>
    intro row hrow
    rcases List.mem_append.mp hrow with hold | hraised
    · exact hwritten row hold
    · obtain ⟨achievement, hmem, rfl⟩ := List.mem_map.mp hraised
      have hgrouped : achievement.Grouped groups :=
        view_grouped hT hwritten (Table.mem_rows.mp (List.mem_filter.mp hmem).1)
      exact hgrouped
  | select => exact hwritten
  | unchanged => exact hwritten
  | insert hsave => exact append_grouped hwritten hsave
  | update _ hsave => exact append_grouped hwritten hsave

end Grouped

namespace Admin

/-- Also what the executions have written. -/
structure Groups (s : State) : Prop where
  rows : s.catalog.Grouped
  written : ∀ e, ∀ achievement ∈ (s.threads e).achievements, achievement.Grouped s.catalog.groups

theorem begin_achievements (call : ConfigCall) : (begin call).achievements = [] := by
  cases call <;> rfl

theorem advance_grouped {c c' : Catalog} {others : List Thread} {th th' : Thread} {o : Outcome}
    (hc : c.Grouped) (hth : ∀ achievement ∈ th.achievements, achievement.Grouped c.groups)
    (h : advance c others th o = some (c', th')) : c'.groups = c.groups ∧ c'.Grouped ∧
      ∀ achievement ∈ th'.achievements, achievement.Grouped c.groups := by
  unfold advance at h
  split at h
  · split at h
    · cases h
      exact ⟨rfl, hc, List.forall_mem_nil _⟩
    · next call _ _ =>
      cases h
      refine ⟨rfl, hc, ?_⟩
      rw [begin_achievements]
      exact List.forall_mem_nil _
  · cases h
    exact ⟨rfl, fun id achievement hrow => view_grouped hc hth hrow, List.forall_mem_nil _⟩
  · cases h
    exact ⟨rfl, fun id achievement hrow => view_grouped hc hth hrow, List.forall_mem_nil _⟩
  · obtain ⟨r, hr, hproceed⟩ := Option.map_eq_some_iff.mp h
    cases r with
    | error error =>
      cases hproceed
      exact ⟨rfl, hc, List.forall_mem_nil _⟩
    | ok next =>
      cases hproceed
      exact ⟨rfl, hc, editStatement_grouped hc hth hr⟩
  · cases h
    exact ⟨rfl, hc, List.forall_mem_nil _⟩
  · cases h
    exact ⟨rfl, hc, List.forall_mem_nil _⟩
  · obtain ⟨r, hr, hproceed⟩ := Option.map_eq_some_iff.mp h
    cases r with
    | error error =>
      cases hproceed
      exact ⟨rfl, hc, List.forall_mem_nil _⟩
    | ok next =>
      cases hproceed
      exact ⟨rfl, hc, List.forall_mem_nil _⟩
  · cases h
  · cases h
  · cases h
    exact ⟨rfl, hc, List.forall_mem_nil _⟩

theorem step_groups {s s' : State} {l : Label} (hs : Groups s) (h : step s l = some s') :
    s'.catalog.groups = s.catalog.groups ∧ Groups s' := by
  have hupdate : ∀ e th, (∀ achievement ∈ th.achievements, achievement.Grouped s.catalog.groups) →
      ∀ e', ∀ achievement ∈ (Function.update s.threads e th e').achievements,
        achievement.Grouped s.catalog.groups := by
    intro e th hth e'
    rw [Function.update_apply]
    split
    · exact hth
    · exact hs.written e'
  cases l with
  | submit call =>
    cases h
    exact ⟨rfl, hs.rows, hupdate _ _ (List.forall_mem_nil _)⟩
  | run e o =>
    obtain ⟨⟨c', th'⟩, hadv, rfl⟩ := Option.map_eq_some_iff.mp h
    obtain ⟨hgroups, hrows, hwritten⟩ := advance_grouped hs.rows (hs.written e) hadv
    refine ⟨hgroups, hrows, ?_⟩
    rw [hgroups]
    exact hupdate e th' hwritten
  | crash e =>
    rw [step] at h
    split at h
    · cases h
      exact ⟨rfl, hs.rows, hupdate e _ (List.forall_mem_nil _)⟩
    · cases h

end Admin

end Bumpa.Loyalty
