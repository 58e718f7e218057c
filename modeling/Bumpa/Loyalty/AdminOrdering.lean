import Bumpa.Loyalty.AdminConfigs
import Bumpa.Order.Insertion
import Mathlib.Order.Bounds.Defs

/-! # The order of the configuration

Groups, badges, and the achievements of each group are lists ordered by `sortOrder`
(`Catalog.positions`). A call that succeeds puts its item at the position it was asked for
(`Requests`, `Placed`) and leaves the positions of every other list alone (`Frame`); nothing else
about a `Catalog` decides whether positions stay distinct.
-/
namespace Bumpa.Loyalty
open Bumpa.Relational Bumpa.Order Bumpa.Transition
set_option autoImplicit false

/-- The lists of the configuration. -/
inductive ConfigList where
  | groups
  | achievements (groupKey : String)
  | badges
  deriving DecidableEq, Repr

section Positions
variable {V : Type} {key : V → String} {T : Table String V key} {π : V → Option ℕ}

/-- The positions of the rows that are in a list. -/
def positionsBy (π : V → Option ℕ) (T : Table String V key) : String → Option ℕ :=
  fun k => (T.row k).bind π

theorem positionsBy_of_row {k : String} {v : V} (h : T.row k = some v) :
    positionsBy π T k = π v := by
  rw [positionsBy, h, Option.bind_some]

theorem positionsBy_of_none {k : String} (h : T.row k = none) (n : ℕ) :
    positionsBy π T k ≠ some n := by
  rw [positionsBy, h]
  exact (Option.some_ne_none n).symm

theorem positionsBy_put (v : V) :
    positionsBy π (T.put v) = Function.update (positionsBy π T) (key v) (π v) := by
  funext k
  by_cases hk : k = key v
  · subst hk
    rw [positionsBy, Table.put_row, if_pos rfl, Function.update_self, Option.bind_some]
  · rw [positionsBy, Table.put_row_of_ne T v hk, Function.update_of_ne hk, positionsBy]

/-- A row that is saved with the position it has. -/
theorem positionsBy_put_same {v w : V} (hrow : T.row (key v) = some w) (h : π v = π w) :
    positionsBy π (T.put v) = positionsBy π T := by
  rw [positionsBy_put, h]
  exact Function.update_eq_self_iff.mpr (positionsBy_of_row hrow).symm

variable {p : V → Bool} {f : V → V} {hf : ∀ v, key (f v) = key v} {v : V}

theorem positionsBy_updateAll (k : String) : positionsBy π (T.updateAll p f hf) k =
    (T.row k).bind fun w => π (if p w then f w else w) := by
  rw [positionsBy, Table.updateAll, Option.bind_map]
  rfl

/-- The rows that are updated, and then one more. -/
theorem positionsBy_updateAll_put (g : ℕ → ℕ)
    (hothers : ∀ w, key w ≠ key v → π (if p w then f w else w) = (π w).map g) :
    positionsBy π ((T.updateAll p f hf).put v) =
      Function.update (fun k => (positionsBy π T k).map g) (key v) (π v) := by
  rw [positionsBy_put]
  funext k
  by_cases hk : k = key v
  · rw [hk, Function.update_self, Function.update_self]
  · rw [Function.update_of_ne hk, Function.update_of_ne hk, positionsBy_updateAll, positionsBy]
    cases hrow : T.row k with
    | none => rfl
    | some w => exact hothers w (by rwa [T.key_eq hrow])

/-- Room in the list, and then the row. -/
theorem positionsBy_moved {t : ℕ} (hv : π v = some t)
    (hroom : ∀ w, key w ≠ key v → π (if p w then f w else w) = (π w).map (makeRoom t)) :
    positionsBy π ((T.updateAll p f hf).put v) =
      moveTo (makeRoom t) (positionsBy π T) (key v) t := by
  rw [positionsBy_updateAll_put (makeRoom t) hroom, hv, moveTo]

/-- Room in another list, and then the row, which is not in this one. -/
theorem positionsBy_left (hv : π v = none)
    (hkeep : ∀ w, key w ≠ key v → π (if p w then f w else w) = π w) :
    positionsBy π ((T.updateAll p f hf).put v) =
      Function.update (positionsBy π T) (key v) none := by
  have hsame : ∀ w, key w ≠ key v → π (if p w then f w else w) = (π w).map id := fun w hw => by
    rw [Option.map_id_apply, hkeep w hw]
  rw [positionsBy_updateAll_put id hsame, hv]
  simp only [Option.map_id_apply]

end Positions

def AchievementConfig.positionIn (groupKey : String) (achievement : AchievementConfig) : Option ℕ :=
  if achievement.groupKey = groupKey then some achievement.sortOrder else none

theorem positionIn_of_eq {groupKey : String} {achievement : AchievementConfig}
    (h : achievement.groupKey = groupKey) :
    achievement.positionIn groupKey = some achievement.sortOrder := if_pos h

theorem positionIn_of_ne {groupKey : String} {achievement : AchievementConfig}
    (h : achievement.groupKey ≠ groupKey) : achievement.positionIn groupKey = none := if_neg h

def Catalog.positions (c : Catalog) : ConfigList → String → Option ℕ
  | .groups => positionsBy (fun group => some group.sortOrder) c.groups
  | .achievements groupKey => positionsBy (·.positionIn groupKey) c.achievements
  | .badges => positionsBy (fun badge => some badge.sortOrder) c.badges

/-- The positions of every list are pairwise distinct. -/
def Catalog.Ordered (c : Catalog) : Prop := ∀ list, Distinct (c.positions list)

/-! ## What a call asks for -/

/-- The list, the item and the position that a call is about. A group without a position goes after
all others; an update keeps what its body leaves out. -/
inductive Requests (c : Catalog) : AdminCall → ConfigList → String → ℕ → Prop
  | createGroup {dto : CreateAchievementGroupDto} {sortOrder : ℕ}
      (given : dto.sortOrder.toOption = some sortOrder) :
      Requests c (.createGroup dto) .groups dto.key sortOrder
  | createLastGroup {dto : CreateAchievementGroupDto} {sortOrder : ℕ}
      (omitted : dto.sortOrder.toOption = none)
      (last : IsLeast {n | 0 < n ∧ ∀ key group, c.groups.row key = some group →
        group.sortOrder < n} sortOrder) :
      Requests c (.createGroup dto) .groups dto.key sortOrder
  | updateGroup {key : String} {dto : UpdateAchievementGroupDto} {group : AchievementGroup}
      (row : c.groups.row key = some group) :
      Requests c (.updateGroup key dto) .groups key (dto.sortOrder.toOption.getD group.sortOrder)
  | createAchievement {dto : CreateAchievementConfigDto} :
      Requests c (.createAchievement dto) (.achievements dto.groupKey) dto.id dto.sortOrder
  | updateAchievement {id : String} {dto : UpdateAchievementConfigDto}
      {achievement : AchievementConfig} (row : c.achievements.row id = some achievement) :
      Requests c (.updateAchievement id dto)
        (.achievements (dto.groupKey.toOption.getD achievement.groupKey)) id
        (dto.sortOrder.toOption.getD achievement.sortOrder)
  | createBadge {dto : CreateBadgeConfigDto} :
      Requests c (.createBadge dto) .badges dto.id dto.sortOrder
  | updateBadge {id : String} {dto : UpdateBadgeConfigDto} {badge : BadgeConfig}
      (row : c.badges.row id = some badge) :
      Requests c (.updateBadge id dto) .badges id (dto.sortOrder.toOption.getD badge.sortOrder)

/-- Items of the two lists are rows of one table. -/
def ConfigList.SameTable : ConfigList → ConfigList → Prop
  | .groups, .groups => True
  | .achievements _, .achievements _ => True
  | .badges, .badges => True
  | _, _ => False

/-- What a call that succeeds does to the positions: its item is where it was asked for, the order
of the others in that list stays, and every other list is as before, but for an achievement that
has left it. An item that is there already leaves everything where it is. -/
structure OrderEffect (c c' : Catalog) (list : ConfigList) (key : String) (position : ℕ) : Prop where
  placed : Placed (c.positions list) (c'.positions list) key position
  table : ∀ list', list' ≠ list → list'.SameTable list →
    c'.positions list' = Function.update (c.positions list') key none
  elsewhere : ∀ list', ¬list'.SameTable list → c'.positions list' = c.positions list'
  unmoved : c.positions list key = some position → c'.positions = c.positions

/-- How the calls do it. -/
inductive Rearranged (c c' : Catalog) (list : ConfigList) (key : String) (position : ℕ) : Prop
  | moved (away : c.positions list key ≠ some position)
      (room : c'.positions list = moveTo (makeRoom position) (c.positions list) key position)
      (table : ∀ list', list' ≠ list → list'.SameTable list →
        c'.positions list' = Function.update (c.positions list') key none)
      (elsewhere : ∀ list', ¬list'.SameTable list → c'.positions list' = c.positions list')
  | stayed (here : c.positions list key = some position) (same : c'.positions = c.positions)

section Rearrangement
variable {c c' : Catalog} {list : ConfigList} {key : String} {position : ℕ}

theorem Rearranged.ordered (h : Rearranged c c' list key position) (hc : c.Ordered) :
    c'.Ordered := by
  intro list'
  cases h with
  | stayed _ same =>
    rw [same]
    exact hc list'
  | moved _ room table elsewhere =>
    by_cases hlist : list' = list
    · subst hlist
      rw [room]
      exact (hc list').moveTo (makeRoom_strictMono position).injective (makeRoom_ne position) key
    · by_cases hsame : list'.SameTable list
      · rw [table list' hlist hsame]
        exact (hc list').remove key
      · rw [elsewhere list' hsame]
        exact hc list'

/-- A row is in one list. -/
theorem positions_eq_none {list' : ConfigList} {n : ℕ} (h : c.positions list key = some n)
    (hlist : list' ≠ list) (hsame : list'.SameTable list) : c.positions list' key = none := by
  cases list with
  | groups =>
    cases list' with
    | groups => exact absurd rfl hlist
    | _ => cases hsame
  | badges =>
    cases list' with
    | badges => exact absurd rfl hlist
    | _ => cases hsame
  | achievements groupKey =>
    cases list' with
    | achievements groupKey' =>
      obtain ⟨achievement, hrow, hposition⟩ := Option.bind_eq_some_iff.mp h
      have hgroup : achievement.groupKey = groupKey := by
        by_contra hne
        rw [positionIn_of_ne hne] at hposition
        cases hposition
      have hother : achievement.groupKey ≠ groupKey' := fun heq =>
        hlist (by rw [← heq, hgroup])
      exact (positionsBy_of_row hrow).trans (positionIn_of_ne hother)
    | _ => cases hsame

theorem Rearranged.effect (h : Rearranged c c' list key position) :
    OrderEffect c c' list key position := by
  cases h with
  | moved away room table elsewhere =>
    refine ⟨?_, table, elsewhere, fun here => absurd here away⟩
    rw [room]
    exact moveTo_placed (makeRoom_strictMono position) _ key position
  | stayed here same =>
    refine ⟨?_, fun list' hlist hsame => ?_, fun list' _ => by rw [same], fun _ => same⟩
    · rw [same]
      exact Placed.refl here
    · rw [same, eq_comm]
      exact Function.update_eq_self_iff.mpr (positions_eq_none here hlist hsame).symm

end Rearrangement

/-! ## Groups -/

theorem not_excluded {key key' : String} {excludeKey : Option String}
    (h : excludeKey = none ∨ excludeKey = some key) (hne : key' ≠ key) :
    (!excludes excludeKey key') = true := by
  rcases h with rfl | rfl
  · rfl
  · simp only [excludes, Option.any_some, Ne.symm hne, decide_false, Bool.and_false, Bool.not_false]

/-- An increment is `makeRoom` for the rows that meet its condition. -/
theorem sortOrder_of_condition {V : Type} {key : V → String} (constraints : Constraints V key)
    {room : Room V} {t : ℕ} {v : V} (htarget : room.targetSortOrder = some t)
    (hcondition : room.condition v = true) :
    constraints.sortOrder
      (if room.behind constraints.sortOrder v then constraints.raised v else v) =
        makeRoom t (constraints.sortOrder v) := by
  rw [Room.behind, htarget, Option.any_some, hcondition, Bool.and_true, makeRoom]
  simp only [decide_eq_true_eq]
  split
  · exact constraints.raised_sortOrder v
  · rfl

section Groups
variable {c : Catalog} {groups : GroupTable}

theorem elsewhere_groups (list : ConfigList) (h : ¬list.SameTable .groups) :
    ({ c with groups } : Catalog).positions list = c.positions list := by
  cases list with
  | groups => exact absurd trivial h
  | _ => rfl

theorem moved_groups (group : AchievementGroup) {excludeKey : Option String}
    (hexclude : excludeKey = none ∨ excludeKey = some group.key)
    (haway : c.positions .groups group.key ≠ some group.sortOrder)
    (h : groups = (groupConstraints.makeRoom c.groups
      (makeRoomForGroupSortOrder (some group.sortOrder) excludeKey)).put group) :
    Rearranged c { c with groups } .groups group.key group.sortOrder := by
  subst h
  refine .moved haway ?_ (fun list' hlist hsame => ?_) elsewhere_groups
  · refine positionsBy_moved rfl fun other hne => congrArg some ?_
    have hcondition : (makeRoomForGroupSortOrder (some group.sortOrder) excludeKey).condition other =
        true := not_excluded hexclude hne
    exact sortOrder_of_condition groupConstraints rfl hcondition
  · cases list' with
    | groups => exact absurd rfl hlist
    | _ => cases hsame

theorem stayed_groups {group saved : AchievementGroup}
    (hrow : c.groups.row saved.key = some group) (hstays : saved.sortOrder = group.sortOrder)
    (h : groups = c.groups.put saved) :
    Rearranged c { c with groups } .groups saved.key saved.sortOrder := by
  subst h
  refine .stayed ?_ (funext fun list => ?_)
  · rw [Catalog.positions, positionsBy_of_row hrow, hstays]
  · cases list with
    | groups => exact positionsBy_put_same hrow (congrArg some hstays)
    | _ => rfl

theorem nextGroupSortOrder_isLeast (groups : GroupTable) :
    IsLeast {n | 0 < n ∧ ∀ key group, groups.row key = some group → group.sortOrder < n}
      (nextGroupSortOrder groups) := by
  have hmem : ∀ key group, groups.row key = some group →
      group.sortOrder ∈ groups.rows.map (·.sortOrder) := fun key group hrow =>
    List.mem_map_of_mem (Table.mem_rows.mpr (by rwa [groups.key_eq hrow]))
  unfold nextGroupSortOrder
  cases hmax : (groups.rows.map (·.sortOrder)).max? with
  | none =>
    refine ⟨⟨Nat.succ_pos _, fun key group hrow => ?_⟩, fun n hn => hn.1⟩
    have hnil := List.max?_eq_none_iff.mp hmax
    exact absurd (hmem key group hrow) (by rw [hnil]; exact List.not_mem_nil)
  | some last =>
    obtain ⟨hlast, hle⟩ := List.max?_eq_some_iff.mp hmax
    refine ⟨⟨Nat.succ_pos _, fun key group hrow => ?_⟩, fun n hn => ?_⟩
    · exact Nat.lt_succ_of_le (hle _ (hmem key group hrow))
    · obtain ⟨group, hgroup, heq⟩ := List.mem_map.mp hlast
      have hlt := hn.2 _ group (Table.mem_rows.mp hgroup)
      rw [heq] at hlt
      exact hlt

theorem createGroup_rearranged {dto : CreateAchievementGroupDto}
    (h : createGroup c.groups dto = .ok groups) : ∃ position,
      Requests c (.createGroup dto) .groups dto.key position ∧
        Rearranged c { c with groups } .groups dto.key position := by
  obtain ⟨room, group, hprepare, hput⟩ := Edit.perform_put h
  simp only [createGroupEdit] at hprepare
  split at hprepare
  · cases hprepare
  · next hfree =>
    cases hprepare
    have hnone : c.groups.row dto.key = none := by simpa using hfree
    refine ⟨_, ?_, moved_groups ⟨dto.key, dto.name, _⟩ (Or.inl rfl) (positionsBy_of_none hnone _) hput⟩
    cases hgiven : dto.sortOrder.toOption with
    | none => exact .createLastGroup hgiven (nextGroupSortOrder_isLeast c.groups)
    | some sortOrder => exact .createGroup hgiven

theorem merged_group {group merged : AchievementGroup} {dto : UpdateAchievementGroupDto}
    (h : group.merged dto = some merged) :
    merged.key = group.key ∧ dto.sortOrder.merge group.sortOrder = some merged.sortOrder := by
  simp only [AchievementGroup.merged, Option.bind_eq_bind, Option.bind_eq_some_iff] at h
  obtain ⟨name, _, sortOrder, hsortOrder, heq⟩ := h
  cases heq
  exact ⟨rfl, hsortOrder⟩

theorem updateGroup_rearranged {key : String} {dto : UpdateAchievementGroupDto}
    (h : updateGroup c.groups key dto = .ok groups) : ∃ position,
      Requests c (.updateGroup key dto) .groups key position ∧
        Rearranged c { c with groups } .groups key position := by
  obtain ⟨room, merged, hprepare, hput⟩ := Edit.perform_put h
  cases hrow : c.groups.row key with
  | none =>
    simp only [updateGroupEdit, hrow] at hprepare
    cases hprepare
  | some group =>
    simp only [updateGroupEdit, hrow, Except.ok.injEq, Prod.mk.injEq] at hprepare
    obtain ⟨rfl, hmerging⟩ := hprepare
    obtain ⟨hkey, hsortOrder⟩ := merged_group (merging_ok hmerging)
    obtain rfl : group.key = key := c.groups.key_eq hrow
    refine ⟨_, .updateGroup hrow, ?_⟩
    rw [← Field.merge_eq hsortOrder, ← hkey]
    rw [← hkey] at hrow hput
    by_cases hmoves : dto.sortOrder.differs group.sortOrder = true
    · rw [if_pos hmoves, Field.toOption_of_differs hsortOrder hmoves] at hput
      refine moved_groups merged (Or.inr rfl) ?_ hput
      rw [Catalog.positions, positionsBy_of_row hrow]
      exact fun heq => (Field.differs_iff hsortOrder).mp hmoves (Option.some.inj heq).symm
    · rw [if_neg hmoves] at hput
      exact stayed_groups hrow (not_not.mp (mt (Field.differs_iff hsortOrder).mpr hmoves)) hput

end Groups

/-! ## Achievements -/

section Achievements
variable {c : Catalog} {achievements : AchievementTable}

theorem elsewhere_achievements (groupKey : String) (list : ConfigList)
    (h : ¬list.SameTable (.achievements groupKey)) :
    ({ c with achievements } : Catalog).positions list = c.positions list := by
  cases list with
  | achievements _ => exact absurd trivial h
  | _ => rfl

theorem moved_achievements (achievement : AchievementConfig) {excludeId : Option String}
    (hexclude : excludeId = none ∨ excludeId = some achievement.id)
    (haway : c.positions (.achievements achievement.groupKey) achievement.id ≠
      some achievement.sortOrder)
    (h : achievements = ((achievementConstraints c.groups).makeRoom c.achievements
      (makeRoomForAchievementSortOrder achievement.groupKey achievement.sortOrder
        excludeId)).put achievement) :
    Rearranged c { c with achievements } (.achievements achievement.groupKey) achievement.id
      achievement.sortOrder := by
  subst h
  refine .moved haway ?_ (fun list' hlist hsame => ?_) (elsewhere_achievements _)
  · refine positionsBy_moved (if_pos rfl) fun other hne => ?_
    by_cases hgroup : other.groupKey = achievement.groupKey
    · have hcondition : (makeRoomForAchievementSortOrder achievement.groupKey achievement.sortOrder
          excludeId).condition other = true :=
        Bool.and_eq_true_iff.mpr ⟨decide_eq_true hgroup, not_excluded hexclude hne⟩
      have hraised := sortOrder_of_condition (achievementConstraints c.groups) rfl hcondition
      rw [positionIn_of_eq hgroup]
      refine Eq.trans ?_ (congrArg some hraised)
      split <;> exact positionIn_of_eq hgroup
    · rw [positionIn_of_ne hgroup]
      split <;> exact positionIn_of_ne hgroup
  · cases list' with
    | achievements groupKey =>
      have hother : achievement.groupKey ≠ groupKey := fun heq => hlist (by rw [heq])
      refine positionsBy_left (if_neg hother) fun other _ => ?_
      split
      · next hraised =>
        simp only [Room.behind, makeRoomForAchievementSortOrder, Bool.and_eq_true,
          decide_eq_true_eq] at hraised
        have hleft : other.groupKey ≠ groupKey := by rwa [hraised.2.1]
        rw [positionIn_of_ne hleft]
        exact positionIn_of_ne hleft
      · rfl
    | _ => cases hsame

theorem stayed_achievements {achievement saved : AchievementConfig}
    (hrow : c.achievements.row saved.id = some achievement)
    (hgroup : saved.groupKey = achievement.groupKey)
    (hstays : saved.sortOrder = achievement.sortOrder)
    (h : achievements = c.achievements.put saved) :
    Rearranged c { c with achievements } (.achievements saved.groupKey) saved.id
      saved.sortOrder := by
  subst h
  have hposition : ∀ groupKey, saved.positionIn groupKey = achievement.positionIn groupKey := by
    intro groupKey
    rw [AchievementConfig.positionIn, AchievementConfig.positionIn, hgroup, hstays]
  refine .stayed ?_ (funext fun list => ?_)
  · rw [Catalog.positions, positionsBy_of_row hrow, ← hposition]
    exact positionIn_of_eq rfl
  · cases list with
    | achievements groupKey => exact positionsBy_put_same hrow (hposition groupKey)
    | _ => rfl

theorem createAchievement_rearranged {dto : CreateAchievementConfigDto}
    (h : createAchievement c.groups c.achievements dto = .ok achievements) :
    Rearranged c { c with achievements } (.achievements dto.groupKey) dto.id dto.sortOrder := by
  obtain ⟨_, _, hperform⟩ := bind_ok h
  obtain ⟨room, achievement, hprepare, hput⟩ := Edit.perform_put hperform
  simp only [createAchievementEdit] at hprepare
  split at hprepare
  · cases hprepare
  · next hfree =>
    cases hprepare
    have hnone : c.achievements.row dto.id = none := by simpa using hfree
    exact moved_achievements dto.achievement (Or.inl rfl) (positionsBy_of_none hnone _) hput

theorem merged_achievement {achievement merged : AchievementConfig}
    {dto : UpdateAchievementConfigDto} (h : achievement.merged dto = some merged) :
    merged.id = achievement.id ∧
      merged.groupKey = dto.groupKey.toOption.getD achievement.groupKey ∧
      merged.sortOrder = dto.sortOrder.toOption.getD achievement.sortOrder ∧
      merged.rule = dto.rule.toOption.getD achievement.rule := by
  simp only [AchievementConfig.merged, Option.bind_eq_bind, Option.bind_eq_some_iff] at h
  obtain ⟨name, _, groupKey, hgroupKey, sortOrder, hsortOrder, rule, hrule, active, _, heq⟩ := h
  cases heq
  exact ⟨rfl, Field.merge_eq hgroupKey, Field.merge_eq hsortOrder, Field.merge_eq hrule⟩

theorem updateAchievement_rearranged {id : String} {dto : UpdateAchievementConfigDto}
    (h : updateAchievement c.groups c.achievements id dto = .ok achievements) :
    ∃ groupKey position, Requests c (.updateAchievement id dto) (.achievements groupKey) id position ∧
      Rearranged c { c with achievements } (.achievements groupKey) id position := by
  obtain ⟨_, _, hperform⟩ := bind_ok h
  obtain ⟨room, merged, hprepare, hput⟩ := Edit.perform_put hperform
  cases hrow : c.achievements.row id with
  | none =>
    simp only [updateAchievementEdit, hrow] at hprepare
    cases hprepare
  | some achievement =>
    simp only [updateAchievementEdit, hrow, Except.ok.injEq, Prod.mk.injEq] at hprepare
    obtain ⟨rfl, hmerging⟩ := hprepare
    obtain ⟨hid, hgroup, hsortOrder, _⟩ := merged_achievement (merging_ok hmerging)
    obtain rfl : achievement.id = id := c.achievements.key_eq hrow
    refine ⟨_, _, .updateAchievement hrow, ?_⟩
    rw [← hgroup, ← hsortOrder, ← hid]
    rw [← hgroup, ← hsortOrder, ← hid] at hput
    rw [← hid] at hrow
    split at hput
    · next hmoves =>
      refine moved_achievements merged (Or.inr rfl) ?_ hput
      rw [Catalog.positions, positionsBy_of_row hrow, AchievementConfig.positionIn]
      rcases hmoves with hleaves | hmoves
      · rw [if_neg (Ne.symm hleaves)]
        exact (Option.some_ne_none _).symm
      · split
        · exact fun heq => hmoves (Option.some.inj heq).symm
        · exact (Option.some_ne_none _).symm
    · next hstays =>
      rw [not_or, not_not, not_not] at hstays
      exact stayed_achievements hrow hstays.1 hstays.2 hput

end Achievements

/-! ## Badges -/

section Badges
variable {c : Catalog} {badges : BadgeTable}

theorem elsewhere_badges (list : ConfigList) (h : ¬list.SameTable .badges) :
    ({ c with badges } : Catalog).positions list = c.positions list := by
  cases list with
  | badges => exact absurd trivial h
  | _ => rfl

theorem moved_badges (badge : BadgeConfig) {excludeId : Option String}
    (hexclude : excludeId = none ∨ excludeId = some badge.id)
    (haway : c.positions .badges badge.id ≠ some badge.sortOrder)
    (h : badges = (badgeConstraints.makeRoom c.badges
      (makeRoomForBadgeSortOrder (some badge.sortOrder) excludeId)).put badge) :
    Rearranged c { c with badges } .badges badge.id badge.sortOrder := by
  subst h
  refine .moved haway ?_ (fun list' hlist hsame => ?_) elsewhere_badges
  · refine positionsBy_moved rfl fun other hne => congrArg some ?_
    have hcondition : (makeRoomForBadgeSortOrder (some badge.sortOrder) excludeId).condition other =
        true := not_excluded hexclude hne
    exact sortOrder_of_condition badgeConstraints rfl hcondition
  · cases list' with
    | badges => exact absurd rfl hlist
    | _ => cases hsame

theorem stayed_badges {badge : BadgeConfig} (saved : BadgeConfig)
    (hrow : c.badges.row saved.id = some badge) (hstays : saved.sortOrder = badge.sortOrder)
    (h : badges = c.badges.put saved) :
    Rearranged c { c with badges } .badges saved.id saved.sortOrder := by
  subst h
  refine .stayed ?_ (funext fun list => ?_)
  · rw [Catalog.positions, positionsBy_of_row hrow, hstays]
  · cases list with
    | badges => exact positionsBy_put_same hrow (congrArg some hstays)
    | _ => rfl

theorem createBadge_rearranged {dto : CreateBadgeConfigDto}
    (h : createBadge c.achievements.rows c.badges dto = .ok badges) :
    Rearranged c { c with badges } .badges dto.id dto.sortOrder := by
  obtain ⟨_, _, hperform⟩ := bind_ok h
  obtain ⟨room, badge, hprepare, hput⟩ := Edit.perform_put hperform
  simp only [createBadgeEdit] at hprepare
  split at hprepare
  · cases hprepare
  · next hfree =>
    cases hprepare
    have hnone : c.badges.row dto.id = none := by simpa using hfree
    exact moved_badges dto.badge (Or.inl rfl) (positionsBy_of_none hnone _) hput

theorem merged_badge {badge merged : BadgeConfig} {dto : UpdateBadgeConfigDto}
    (h : badge.merged dto = some merged) :
    merged.id = badge.id ∧ dto.sortOrder.merge badge.sortOrder = some merged.sortOrder ∧
      dto.requiredAchievementIds.merge badge.requiredAchievementIds =
        some merged.requiredAchievementIds := by
  simp only [BadgeConfig.merged, Option.bind_eq_bind, Option.bind_eq_some_iff] at h
  obtain ⟨_, _, _, hsortOrder, _, _, _, hids, _, _, _, _, _, _, heq⟩ := h
  cases heq
  exact ⟨rfl, hsortOrder, hids⟩

theorem updateBadge_rearranged {id : String} {dto : UpdateBadgeConfigDto}
    (h : updateBadge c.achievements.rows c.badges id dto = .ok badges) : ∃ position,
      Requests c (.updateBadge id dto) .badges id position ∧
        Rearranged c { c with badges } .badges id position := by
  obtain ⟨_, _, hperform⟩ := bind_ok h
  obtain ⟨room, merged, hprepare, hput⟩ := Edit.perform_put hperform
  cases hrow : c.badges.row id with
  | none =>
    simp only [updateBadgeEdit, hrow] at hprepare
    cases hprepare
  | some badge =>
    simp only [updateBadgeEdit, hrow, Except.ok.injEq, Prod.mk.injEq] at hprepare
    obtain ⟨rfl, hmerging⟩ := hprepare
    obtain ⟨hid, hsortOrder, _⟩ := merged_badge (merging_ok hmerging)
    obtain rfl : badge.id = id := c.badges.key_eq hrow
    refine ⟨_, .updateBadge hrow, ?_⟩
    rw [← Field.merge_eq hsortOrder, ← hid]
    rw [← hid] at hrow hput
    by_cases hmoves : dto.sortOrder.differs badge.sortOrder = true
    · rw [if_pos hmoves, Field.toOption_of_differs hsortOrder hmoves] at hput
      refine moved_badges merged (Or.inr rfl) ?_ hput
      rw [Catalog.positions, positionsBy_of_row hrow]
      exact fun heq => (Field.differs_iff hsortOrder).mp hmoves (Option.some.inj heq).symm
    · rw [if_neg hmoves] at hput
      exact stayed_badges merged hrow
        (not_not.mp (mt (Field.differs_iff hsortOrder).mpr hmoves)) hput

end Badges

/-! ## Runs -/

/-- What a call that succeeds was asked for, and has done. -/
theorem perform_rearranged {c c' : Catalog} {call : AdminCall} (h : perform c call = .ok c') :
    ∃ list key position, Requests c call list key position ∧
      Rearranged c c' list key position := by
  cases call with
  | createGroup dto =>
    obtain ⟨groups, hcall, rfl⟩ := map_ok h
    exact ⟨_, _, createGroup_rearranged hcall⟩
  | updateGroup key dto =>
    obtain ⟨groups, hcall, rfl⟩ := map_ok h
    exact ⟨_, _, updateGroup_rearranged hcall⟩
  | createAchievement dto =>
    obtain ⟨achievements, hcall, rfl⟩ := map_ok h
    exact ⟨_, _, _, .createAchievement, createAchievement_rearranged hcall⟩
  | updateAchievement id dto =>
    obtain ⟨achievements, hcall, rfl⟩ := map_ok h
    obtain ⟨groupKey, position, hupdate⟩ := updateAchievement_rearranged hcall
    exact ⟨_, _, _, hupdate⟩
  | createBadge dto =>
    obtain ⟨badges, hcall, rfl⟩ := map_ok h
    exact ⟨_, _, _, .createBadge, createBadge_rearranged hcall⟩
  | updateBadge id dto =>
    obtain ⟨badges, hcall, rfl⟩ := map_ok h
    exact ⟨_, _, updateBadge_rearranged hcall⟩

/-- An interrupted call fails before its COMMIT. -/
structure AdminLabel where
  call : AdminCall
  interrupted : Bool

def respond (c : Catalog) (l : AdminLabel) : Except RequestError Catalog :=
  if l.interrupted then .error .interrupted else perform c l.call

/-- One call: its transaction is committed or rolled back. -/
def adminStep (c : Catalog) (l : AdminLabel) : Option Catalog :=
  match respond c l with
  | .ok c' => some c'
  | .error _ => some c

theorem respond_ok {c c' : Catalog} {l : AdminLabel} (h : respond c l = .ok c') :
    perform c l.call = .ok c' := by
  unfold respond at h
  split at h
  · cases h
  · exact h

theorem adminStep_ordered {c c' : Catalog} {l : AdminLabel} (hc : c.Ordered)
    (h : adminStep c l = some c') : c'.Ordered := by
  unfold adminStep at h
  split at h
  · next hrespond =>
    cases h
    obtain ⟨list, key, position, _, hrearranged⟩ := perform_rearranged (respond_ok hrespond)
    exact hrearranged.ordered hc
  · cases h
    exact hc

/-- From distinct positions on, all positions stay distinct; a call that succeeds has the effect
that it was asked for and no other one on the order, and a call that fails has none at all. -/
theorem admin_ordering {c c' : Catalog} {tr : List (Move Catalog AdminLabel)} (hc : c.Ordered)
    (h : Run adminStep c tr c') : c'.Ordered ∧ ∀ x ∈ tr, x.source.Ordered ∧ x.target.Ordered ∧
      (∀ next, respond x.source x.label = .ok next → x.target = next ∧
        ∃ list key position, Requests x.source x.label.call list key position ∧
          OrderEffect x.source x.target list key position) ∧
      ∀ error, respond x.source x.label = .error error → x.target = x.source := by
  have hinvariant := Run.invariant_all Catalog.Ordered (fun _ _ _ => adminStep_ordered) h hc
  refine ⟨hinvariant.1, fun x hx => ⟨(hinvariant.2 x hx).1, (hinvariant.2 x hx).2, ?_, ?_⟩⟩
  · intro next hnext
    have hstep := h.step_of_mem x hx
    rw [adminStep, hnext] at hstep
    obtain rfl := Option.some.inj hstep
    obtain ⟨list, key, position, hrequest, hrearranged⟩ :=
      perform_rearranged (respond_ok hnext)
    exact ⟨rfl, list, key, position, hrequest, hrearranged.effect⟩
  · intro error herror
    have hstep := h.step_of_mem x hx
    rw [adminStep, herror] at hstep
    exact (Option.some.inj hstep).symm

def Catalog.empty : Catalog := ⟨Table.empty, Table.empty, Table.empty⟩

theorem empty_ordered : Catalog.empty.Ordered := by
  intro list i j x hi
  cases list <;> cases hi

/-- The second group and the second achievement take the first place, the group is created once
only, and then the achievement changes its group. -/
def rearrangingCalls : List AdminLabel :=
  [⟨.createGroup ⟨"purchases", "Purchases", .absent⟩, false⟩,
    ⟨.createGroup ⟨"spend", "Spend", .value 1⟩, false⟩,
    ⟨.createGroup ⟨"spend", "Spend", .null⟩, false⟩,
    ⟨.createAchievement ⟨"ach_first", "First", "purchases", 1, .count 1 "GTE", .absent⟩, false⟩,
    ⟨.createAchievement ⟨"ach_second", "Second", "purchases", 1, .count 2 "GTE", .absent⟩, false⟩,
    ⟨.updateAchievement "ach_second" ⟨.absent, .value "spend", .absent, .absent, .absent⟩, false⟩]

theorem admin_ordering_moved : ∃ tr c', Run adminStep Catalog.empty tr c' ∧ c'.Ordered ∧
    (tr.length = 6 ∧ c'.positions .groups "spend" = some 1 ∧
      c'.positions .groups "purchases" = some 2 ∧
      c'.positions (.achievements "spend") "ach_second" = some 1 ∧
      c'.positions (.achievements "purchases") "ach_first" = some 2) ∧
    ∀ x ∈ tr, x.source.Ordered ∧ x.target.Ordered ∧
      (∀ next, respond x.source x.label = .ok next → x.target = next ∧
        ∃ list key position, Requests x.source x.label.call list key position ∧
          OrderEffect x.source x.target list key position) ∧
      ∀ error, respond x.source x.label = .error error → x.target = x.source := by
  obtain ⟨tr, c', hrun, hlast⟩ := exists_run_of_trace adminStep Catalog.empty rearrangingCalls
    (fun r => r.1.length = 6 && r.2.positions .groups "spend" = some 1 &&
      r.2.positions .groups "purchases" = some 2 &&
      r.2.positions (.achievements "spend") "ach_second" = some 1 &&
      r.2.positions (.achievements "purchases") "ach_first" = some 2) (by decide)
  simp only [Bool.and_eq_true, decide_eq_true_eq, and_assoc] at hlast
  obtain ⟨hordered, hall⟩ := admin_ordering empty_ordered hrun
  exact ⟨tr, c', hrun, hordered, hlast, hall⟩

end Bumpa.Loyalty
