import Bumpa.Loyalty.LoyaltyService
import Bumpa.Relational.Field
import Bumpa.Relational.Int4

/-! # `AdminConfigService` (`apps/loyalty-service/src/admin`)

The six calls that write the configuration. Each one is a transaction on one of the three tables of
a `Catalog`, after the checks that `createAchievement`, `updateAchievement`, `createBadge` and
`updateBadge` make outside of it: it finds its row, makes room at a position, and saves. What a call
makes of the row that it finds is its `Edit`, and `Edit.perform` is the transaction as a whole;
`perform` is what a call commits, or the error it is answered with.

A null that is merged into a row fails, as no column of these tables takes it. Columns of type
`integer` take four bytes; a number out of range fails with the parameters of its statement, before
anything else. `description` and `imageUrl` are left out.
-/
namespace Bumpa.Loyalty
open Bumpa.Relational
set_option autoImplicit false

/-! ## Entities and bodies -/

structure AchievementGroup where
  key : String
  name : String
  sortOrder : ℕ
  deriving DecidableEq, Repr

abbrev GroupTable := Table String AchievementGroup AchievementGroup.key

abbrev AchievementTable := Table String AchievementConfig AchievementConfig.id

abbrev BadgeTable := Table String BadgeConfig BadgeConfig.id

structure Catalog where
  groups : GroupTable
  achievements : AchievementTable
  badges : BadgeTable

structure CreateAchievementGroupDto where
  key : String
  name : String
  sortOrder : Field ℕ
  deriving DecidableEq, Repr

structure UpdateAchievementGroupDto where
  name : Field String
  sortOrder : Field ℕ
  deriving DecidableEq, Repr

structure CreateAchievementConfigDto where
  id : String
  name : String
  groupKey : String
  sortOrder : ℕ
  rule : AchievementRule
  active : Field Bool

structure UpdateAchievementConfigDto where
  name : Field String
  groupKey : Field String
  sortOrder : Field ℕ
  rule : Field AchievementRule
  active : Field Bool

/-- A null is as good as absent here. -/
structure CreateBadgeConfigDto where
  id : String
  name : String
  sortOrder : ℕ
  requiredAchievementCount : ℕ
  requiredAchievementIds : Option (List String)
  rewardAmountKobo : Option ℕ
  rewardCurrency : Option String
  active : Option Bool
  deriving DecidableEq, Repr

structure UpdateBadgeConfigDto where
  name : Field String
  sortOrder : Field ℕ
  requiredAchievementCount : Field ℕ
  requiredAchievementIds : Field (List String)
  rewardAmountKobo : Field ℕ
  rewardCurrency : Field String
  active : Field Bool
  deriving DecidableEq, Repr

/-- The exception a request is answered with. -/
inductive AdminConfigError where
  | badRequest (message : String)
  | conflict (message : String)
  | notFound (message : String)
  | uniqueViolation (constraint : String)
  deriving DecidableEq, Repr

/-- What a call is answered with if it fails; a failed query has the code of PostgreSQL, and an
interrupted call has lost its connection or a write that is left out here. -/
inductive RequestError where
  | rejected (error : AdminConfigError)
  | typeError (message : String)
  | queryFailed (code : String)
  | interrupted
  deriving DecidableEq, Repr

def POSTGRES_NOT_NULL_VIOLATION : String := "23502"

def POSTGRES_NUMERIC_VALUE_OUT_OF_RANGE : String := "22003"

/-! ## References -/

mutual

def collectAchievementSetIds : AchievementRule → List String
  | .achievementSet achievementIds _ => achievementIds
  | .combination rules => collectAllSetIds rules
  | _ => []

/-- `rules.flatMap`. -/
def collectAllSetIds : List AchievementRule → List String
  | [] => []
  | rule :: rules => collectAchievementSetIds rule ++ collectAllSetIds rules

end

def assertAchievementsExist (achievements : List AchievementConfig) (achievementIds : List String)
    (fieldLabel : String) : Except RequestError Unit :=
  let missingIds := achievementIds.eraseDups.filter fun id => !achievements.any (·.id = id)
  if missingIds = [] then .ok ()
  else .error (.rejected (.badRequest (fieldLabel ++
    " references unknown achievement config(s): " ++ ", ".intercalate missingIds)))

/-- The check passes exactly if every id is the id of a stored achievement. -/
theorem assertAchievementsExist_ok_iff {achievements : AchievementTable}
    {achievementIds : List String} {fieldLabel : String} :
    assertAchievementsExist achievements.rows achievementIds fieldLabel = .ok () ↔
      ∀ id ∈ achievementIds, (achievements.row id).isSome := by
  have hstored : ∀ id, achievements.rows.any (·.id = id) = true ↔
      (achievements.row id).isSome = true := by
    intro id
    rw [List.any_eq_true, Option.isSome_iff_exists]
    constructor
    · rintro ⟨achievement, hmem, hid⟩
      rw [← of_decide_eq_true hid]
      exact ⟨achievement, Table.mem_rows.mp hmem⟩
    · rintro ⟨achievement, hrow⟩
      have hid : achievement.id = id := achievements.key_eq hrow
      exact ⟨achievement, Table.mem_rows.mpr (by rwa [hid]), decide_eq_true hid⟩
  unfold assertAchievementsExist
  simp only [List.filter_eq_nil_iff, List.mem_eraseDups, Bool.not_eq_true', Bool.not_eq_false]
  split
  · next hnone => exact iff_of_true rfl fun id hid => (hstored id).mp (hnone id hid)
  · next hsome =>
    exact iff_of_false (by simp) fun hall => hsome fun id hid => (hstored id).mpr (hall id hid)

/-- What is checked outside of the transaction. -/
def CreateAchievementConfigDto.check (achievements : List AchievementConfig)
    (dto : CreateAchievementConfigDto) : Except RequestError Unit :=
  assertAchievementsExist achievements (collectAchievementSetIds dto.rule) "rule.achievementIds"

def UpdateAchievementConfigDto.check (achievements : List AchievementConfig)
    (dto : UpdateAchievementConfigDto) : Except RequestError Unit :=
  match dto.rule with
  | .value rule =>
    assertAchievementsExist achievements (collectAchievementSetIds rule) "rule.achievementIds"
  | _ => .ok ()

def CreateBadgeConfigDto.check (achievements : List AchievementConfig)
    (dto : CreateBadgeConfigDto) : Except RequestError Unit :=
  assertAchievementsExist achievements (dto.requiredAchievementIds.getD []) "requiredAchievementIds"

/-- A null is not `undefined`, and has no length. -/
def UpdateBadgeConfigDto.check (achievements : List AchievementConfig)
    (dto : UpdateBadgeConfigDto) : Except RequestError Unit :=
  match dto.requiredAchievementIds with
  | .absent => .ok ()
  | .null => .error (.typeError "Cannot read properties of null (reading 'length')")
  | .value achievementIds =>
    assertAchievementsExist achievements achievementIds "requiredAchievementIds"

/-! ## One transaction -/

/-- `increment` of `sortOrder` by 1: from the target on, where the rest of the condition holds. No
position is at or after a null. -/
structure Room (V : Type) where
  targetSortOrder : Option ℕ
  condition : V → Bool

/-- What a call makes of the row that it finds: the rows that have to make room, if it makes room,
and what it saves, or how saving it fails. -/
structure Edit (V : Type) where
  id : String
  prepare : Option V → Except RequestError (Option (Room V) × Except RequestError V)

/-- What a transaction needs to know about a table. -/
structure Constraints (V : Type) (key : V → String) where
  sortOrder : V → ℕ
  raised : V → V
  raised_key : ∀ v, key (raised v) = key v
  raised_sortOrder : ∀ v, sortOrder (raised v) = sortOrder v + 1
  /-- No column differs. -/
  same : V → V → Bool
  eq_of_same : ∀ {v w}, same v w = true → v = w
  /-- The columns of type `integer` hold what is written to them. -/
  inRange : V → Bool
  /-- The INSERT or UPDATE of a row, under the constraints of the table. -/
  save : Table String V key → V → Except RequestError (Table String V key)
  save_put : ∀ {T v T'}, save T v = .ok T' → T' = T.put v

section Transaction
variable {V : Type} {key : V → String}

def Room.behind (room : Room V) (sortOrder : V → ℕ) (v : V) : Bool :=
  room.targetSortOrder.any (· ≤ sortOrder v) && room.condition v

/-- The target is a parameter of type `integer`, and what it is compared with is raised by 1. -/
def Room.inRange (room : Room V) (sortOrder : V → ℕ) (matched : List V) : Bool :=
  room.targetSortOrder.all (Int4.Fits ·) && matched.all fun v => Int4.Fits (sortOrder v + 1)

/-- The table after the `increment`. -/
def Constraints.makeRoom (constraints : Constraints V key) (T : Table String V key)
    (room : Room V) : Table String V key :=
  T.updateAll (room.behind constraints.sortOrder) constraints.raised constraints.raised_key

def Constraints.increment (constraints : Constraints V key) (T : Table String V key)
    (room : Room V) : Except RequestError (Table String V key) :=
  if room.inRange constraints.sortOrder (T.filter (room.behind constraints.sortOrder)) then
    .ok (constraints.makeRoom T room)
  else .error (.queryFailed POSTGRES_NUMERIC_VALUE_OUT_OF_RANGE)

/-- `save` selects the row, and writes it unless nothing differs. -/
def Constraints.write (constraints : Constraints V key) (T : Table String V key) (v : V) :
    Except RequestError (Table String V key) :=
  if (T.row (key v)).any (constraints.same · v) then .ok T
  else if constraints.inRange v then constraints.save T v
  else .error (.queryFailed POSTGRES_NUMERIC_VALUE_OUT_OF_RANGE)

/-- The entity that a body is merged into. The body may set `numbers`. -/
def merging (numbers : List (Field ℕ)) (merged : Option V) : Except RequestError V :=
  match merged with
  | some v => .ok v
  | none =>
    if numbers.all fun number => number.toOption.all (Int4.Fits ·) then
      .error (.queryFailed POSTGRES_NOT_NULL_VIOLATION)
    else .error (.queryFailed POSTGRES_NUMERIC_VALUE_OUT_OF_RANGE)

/-- The transaction of a call, without others at the same time. -/
def Edit.perform (edit : Edit V) (constraints : Constraints V key) (T : Table String V key) :
    Except RequestError (Table String V key) := do
  let (room, saved) ← edit.prepare (T.row edit.id)
  let T' ← room.elim (.ok T) (constraints.increment T)
  constraints.write T' (← saved)

/-- What a result that is not an error has gone through. -/
theorem bind_ok {ε α β : Type} {x : Except ε α} {f : α → Except ε β} {b : β}
    (h : x >>= f = .ok b) : ∃ a, x = .ok a ∧ f a = .ok b := by
  cases x with
  | error _ => cases h
  | ok a => exact ⟨a, rfl, h⟩

theorem map_ok {ε α β : Type} {x : Except ε α} {f : α → β} {b : β} (h : x.map f = .ok b) :
    ∃ a, x = .ok a ∧ f a = b := by
  cases x with
  | error _ => cases h
  | ok a => exact ⟨a, rfl, Except.ok.inj h⟩

theorem increment_ok {constraints : Constraints V key} {T T' : Table String V key} {room : Room V}
    (h : constraints.increment T room = .ok T') : T' = constraints.makeRoom T room := by
  unfold Constraints.increment at h
  split at h
  · exact (Except.ok.inj h).symm
  · cases h

theorem write_ok {constraints : Constraints V key} {T T' : Table String V key} {v : V}
    (h : constraints.write T v = .ok T') :
    T' = T.put v ∧ (T' = T ∨ constraints.save T v = .ok T') := by
  unfold Constraints.write at h
  split at h
  · next hsame =>
    obtain ⟨selected, hrow, heq⟩ := (Option.any_eq_true _ _).mp hsame
    rw [constraints.eq_of_same heq] at hrow
    rw [← Except.ok.inj h]
    exact ⟨(Table.put_self hrow).symm, Or.inl rfl⟩
  · split at h
    · exact ⟨constraints.save_put h, Or.inr h⟩
    · cases h

theorem merging_ok {numbers : List (Field ℕ)} {merged : Option V} {v : V}
    (h : merging numbers merged = .ok v) : merged = some v := by
  cases merged with
  | none =>
    rw [merging] at h
    split at h <;> cases h
  | some w => rw [Except.ok.inj h]

/-- A transaction that succeeds has made the room and saved the row of its edit. -/
theorem Edit.perform_ok {edit : Edit V} {constraints : Constraints V key}
    {T T' : Table String V key} (h : edit.perform constraints T = .ok T') :
    ∃ room v, edit.prepare (T.row edit.id) = .ok (room, .ok v) ∧
      constraints.write (room.elim T (constraints.makeRoom T)) v = .ok T' := by
  obtain ⟨⟨room, saved⟩, hprepare, hrest⟩ := bind_ok h
  obtain ⟨T₀, hroom, hrest⟩ := bind_ok hrest
  obtain ⟨v, rfl, hwrite⟩ := bind_ok hrest
  refine ⟨room, v, hprepare, ?_⟩
  cases room with
  | none =>
    rw [Except.ok.inj hroom]
    exact hwrite
  | some room =>
    rw [increment_ok hroom] at hwrite
    exact hwrite

theorem Edit.perform_put {edit : Edit V} {constraints : Constraints V key}
    {T T' : Table String V key} (h : edit.perform constraints T = .ok T') :
    ∃ room v, edit.prepare (T.row edit.id) = .ok (room, .ok v) ∧
      T' = (room.elim T (constraints.makeRoom T)).put v := by
  obtain ⟨room, v, hprepare, hwrite⟩ := edit.perform_ok h
  exact ⟨room, v, hprepare, (write_ok hwrite).1⟩

end Transaction

/-- `excludeId ? { id: Not(excludeId) } : {}`. -/
def excludes (excludeId : Option String) (id : String) : Bool :=
  excludeId.any fun excluded => excluded ≠ "" && excluded = id

/-! ## Groups -/

def makeRoomForGroupSortOrder (targetSortOrder : Option ℕ) (excludeKey : Option String) :
    Room AchievementGroup where
  targetSortOrder := targetSortOrder
  condition := fun group => !excludes excludeKey group.key

def nextGroupSortOrder (groups : GroupTable) : ℕ :=
  (groups.rows.map (·.sortOrder)).max?.getD 0 + 1

def groupConstraints : Constraints AchievementGroup AchievementGroup.key where
  sortOrder := (·.sortOrder)
  raised := fun group => { group with sortOrder := group.sortOrder + 1 }
  raised_key := fun _ => rfl
  raised_sortOrder := fun _ => rfl
  same := fun selected group => selected = group
  eq_of_same := of_decide_eq_true
  inRange := fun group => Int4.Fits group.sortOrder
  save := fun groups group => .ok (groups.put group)
  save_put := fun h => (Except.ok.inj h).symm

def createGroupEdit (groups : GroupTable) (dto : CreateAchievementGroupDto) :
    Edit AchievementGroup where
  id := dto.key
  prepare := fun found =>
    if found.isSome then
      .error (.rejected (.conflict ("Achievement group \"" ++ dto.key ++ "\" already exists")))
    else
      let targetSortOrder := dto.sortOrder.toOption.getD (nextGroupSortOrder groups)
      .ok (some (makeRoomForGroupSortOrder (some targetSortOrder) none),
        .ok ⟨dto.key, dto.name, targetSortOrder⟩)

def createGroup (groups : GroupTable) (dto : CreateAchievementGroupDto) :
    Except RequestError GroupTable :=
  (createGroupEdit groups dto).perform groupConstraints groups

def AchievementGroup.merged (group : AchievementGroup) (dto : UpdateAchievementGroupDto) :
    Option AchievementGroup := do
  let name ← dto.name.merge group.name
  let sortOrder ← dto.sortOrder.merge group.sortOrder
  return ⟨group.key, name, sortOrder⟩

def updateGroupEdit (key : String) (dto : UpdateAchievementGroupDto) : Edit AchievementGroup where
  id := key
  prepare
    | none => .error (.rejected (.notFound ("Achievement group \"" ++ key ++ "\" was not found")))
    | some group =>
      .ok (if dto.sortOrder.differs group.sortOrder then
          some (makeRoomForGroupSortOrder dto.sortOrder.toOption (some key))
        else none, merging [dto.sortOrder] (group.merged dto))

def updateGroup (groups : GroupTable) (key : String) (dto : UpdateAchievementGroupDto) :
    Except RequestError GroupTable :=
  (updateGroupEdit key dto).perform groupConstraints groups

/-! ## Achievements -/

def makeRoomForAchievementSortOrder (groupKey : String) (targetSortOrder : ℕ)
    (excludeId : Option String) : Room AchievementConfig where
  targetSortOrder := some targetSortOrder
  condition := fun achievement =>
    achievement.groupKey = groupKey && !excludes excludeId achievement.id

mutual

/-- `deepCompare` of two rules. -/
def AchievementRule.same : AchievementRule → AchievementRule → Bool
  | .count value operator, .count value' operator' => value = value' && operator = operator'
  | .sum value operator, .sum value' operator' => value = value' && operator = operator'
  | .achievementSet ids minRequired, .achievementSet ids' minRequired' =>
    ids = ids' && minRequired = minRequired'
  | .combination rules, .combination rules' => sameRules rules rules'
  | .throwing error, .throwing error' => error = error'
  | _, _ => false

def sameRules : List AchievementRule → List AchievementRule → Bool
  | [], [] => true
  | rule :: rules, rule' :: rules' => rule.same rule' && sameRules rules rules'
  | _, _ => false

end

mutual

theorem AchievementRule.eq_of_same : ∀ {rule rule' : AchievementRule}, rule.same rule' = true → rule = rule'
  | .count _ _, .count _ _, h => by simpa [AchievementRule.same] using h
  | .sum _ _, .sum _ _, h => by simpa [AchievementRule.same] using h
  | .achievementSet _ _, .achievementSet _ _, h => by simpa [AchievementRule.same] using h
  | .combination _, .combination _, h => congrArg _ (eq_of_sameRules h)
  | .throwing _, .throwing _, h => congrArg _ (of_decide_eq_true h)

theorem eq_of_sameRules : ∀ {rules rules' : List AchievementRule},
    sameRules rules rules' = true → rules = rules'
  | [], [], _ => rfl
  | rule :: rules, rule' :: rules', h => by
    rw [sameRules, Bool.and_eq_true] at h
    rw [AchievementRule.eq_of_same h.1, eq_of_sameRules h.2]

end

def AchievementConfig.same (selected achievement : AchievementConfig) : Bool :=
  selected.id = achievement.id && selected.name = achievement.name &&
    selected.groupKey = achievement.groupKey && selected.sortOrder = achievement.sortOrder &&
    selected.rule.same achievement.rule && selected.active = achievement.active

theorem AchievementConfig.eq_of_same {selected achievement : AchievementConfig}
    (h : selected.same achievement = true) : selected = achievement := by
  simp only [AchievementConfig.same, Bool.and_eq_true, decide_eq_true_eq, and_assoc] at h
  obtain ⟨hid, hname, hgroupKey, hsortOrder, hrule, hactive⟩ := h
  have hrule' := AchievementRule.eq_of_same hrule
  cases selected
  cases achievement
  simp_all only

/-- `UQ_achievement_configs_name` and the foreign key of the group; `runOrRejectUnknownGroup`
rewords the violation of the latter. -/
def saveAchievementConfig (groups : GroupTable) (achievements : AchievementTable)
    (achievement : AchievementConfig) : Except RequestError AchievementTable :=
  if achievements.rows.any fun other =>
      other.name = achievement.name && other.id ≠ achievement.id then
    .error (.rejected (.uniqueViolation "UQ_achievement_configs_name"))
  else if (groups.row achievement.groupKey).isNone then
    .error (.rejected (.badRequest ("groupKey references an unknown achievement group — " ++
      "create it first via POST /admin/achievement-groups")))
  else .ok (achievements.put achievement)

theorem saveAchievementConfig_put {groups : GroupTable} {achievements achievements' : AchievementTable}
    {achievement : AchievementConfig}
    (h : saveAchievementConfig groups achievements achievement = .ok achievements') :
    achievements' = achievements.put achievement := by
  unfold saveAchievementConfig at h
  split at h
  · cases h
  · split at h
    · cases h
    · exact (Except.ok.inj h).symm

def achievementConstraints (groups : GroupTable) :
    Constraints AchievementConfig AchievementConfig.id where
  sortOrder := (·.sortOrder)
  raised := fun achievement => { achievement with sortOrder := achievement.sortOrder + 1 }
  raised_key := fun _ => rfl
  raised_sortOrder := fun _ => rfl
  same := AchievementConfig.same
  eq_of_same := AchievementConfig.eq_of_same
  inRange := fun achievement => Int4.Fits achievement.sortOrder
  save := saveAchievementConfig groups
  save_put := saveAchievementConfig_put

def CreateAchievementConfigDto.achievement (dto : CreateAchievementConfigDto) :
    AchievementConfig where
  id := dto.id
  name := dto.name
  groupKey := dto.groupKey
  sortOrder := dto.sortOrder
  rule := dto.rule
  active := dto.active.toOption.getD true

def createAchievementEdit (dto : CreateAchievementConfigDto) : Edit AchievementConfig where
  id := dto.id
  prepare := fun found =>
    if found.isSome then
      .error (.rejected (.conflict ("Achievement config " ++ dto.id ++ " already exists")))
    else
      .ok (some (makeRoomForAchievementSortOrder dto.groupKey dto.sortOrder none),
        .ok dto.achievement)

def createAchievement (groups : GroupTable) (achievements : AchievementTable)
    (dto : CreateAchievementConfigDto) : Except RequestError AchievementTable := do
  dto.check achievements.rows
  (createAchievementEdit dto).perform (achievementConstraints groups) achievements

def AchievementConfig.merged (achievement : AchievementConfig) (dto : UpdateAchievementConfigDto) :
    Option AchievementConfig := do
  let name ← dto.name.merge achievement.name
  let groupKey ← dto.groupKey.merge achievement.groupKey
  let sortOrder ← dto.sortOrder.merge achievement.sortOrder
  let rule ← dto.rule.merge achievement.rule
  let active ← dto.active.merge achievement.active
  return ⟨achievement.id, name, groupKey, sortOrder, rule, active⟩

def updateAchievementEdit (id : String) (dto : UpdateAchievementConfigDto) :
    Edit AchievementConfig where
  id := id
  prepare
    | none => .error (.rejected (.notFound ("Achievement config " ++ id ++ " was not found")))
    | some achievement =>
      let targetGroupKey := dto.groupKey.toOption.getD achievement.groupKey
      let targetSortOrder := dto.sortOrder.toOption.getD achievement.sortOrder
      .ok (if targetGroupKey ≠ achievement.groupKey ∨ targetSortOrder ≠ achievement.sortOrder then
          some (makeRoomForAchievementSortOrder targetGroupKey targetSortOrder (some id))
        else none, merging [dto.sortOrder] (achievement.merged dto))

def updateAchievement (groups : GroupTable) (achievements : AchievementTable) (id : String)
    (dto : UpdateAchievementConfigDto) : Except RequestError AchievementTable := do
  dto.check achievements.rows
  (updateAchievementEdit id dto).perform (achievementConstraints groups) achievements

/-! ## Badges -/

def makeRoomForBadgeSortOrder (targetSortOrder : Option ℕ) (excludeId : Option String) :
    Room BadgeConfig where
  targetSortOrder := targetSortOrder
  condition := fun badge => !excludes excludeId badge.id

/-- `UQ_badge_configs_name`. -/
def saveBadgeConfig (badges : BadgeTable) (badge : BadgeConfig) : Except RequestError BadgeTable :=
  if badges.rows.any fun other => other.name = badge.name && other.id ≠ badge.id then
    .error (.rejected (.uniqueViolation "UQ_badge_configs_name"))
  else .ok (badges.put badge)

theorem saveBadgeConfig_put {badges badges' : BadgeTable} {badge : BadgeConfig}
    (h : saveBadgeConfig badges badge = .ok badges') : badges' = badges.put badge := by
  unfold saveBadgeConfig at h
  split at h
  · cases h
  · exact (Except.ok.inj h).symm

def badgeConstraints : Constraints BadgeConfig BadgeConfig.id where
  sortOrder := (·.sortOrder)
  raised := fun badge => { badge with sortOrder := badge.sortOrder + 1 }
  raised_key := fun _ => rfl
  raised_sortOrder := fun _ => rfl
  same := fun selected badge => selected = badge
  eq_of_same := of_decide_eq_true
  inRange := fun badge => Int4.Fits badge.sortOrder && Int4.Fits badge.requiredAchievementCount &&
    Int4.Fits badge.rewardAmountKobo
  save := saveBadgeConfig
  save_put := saveBadgeConfig_put

def CreateBadgeConfigDto.badge (dto : CreateBadgeConfigDto) : BadgeConfig where
  id := dto.id
  name := dto.name
  sortOrder := dto.sortOrder
  requiredAchievementCount := dto.requiredAchievementCount
  requiredAchievementIds := dto.requiredAchievementIds.getD []
  rewardAmountKobo := dto.rewardAmountKobo.getD 30000
  rewardCurrency := dto.rewardCurrency.getD "NGN"
  active := dto.active.getD true

def createBadgeEdit (dto : CreateBadgeConfigDto) : Edit BadgeConfig where
  id := dto.id
  prepare := fun found =>
    if found.isSome then
      .error (.rejected (.conflict ("Badge config " ++ dto.id ++ " already exists")))
    else .ok (some (makeRoomForBadgeSortOrder (some dto.sortOrder) none), .ok dto.badge)

def createBadge (achievements : List AchievementConfig) (badges : BadgeTable)
    (dto : CreateBadgeConfigDto) : Except RequestError BadgeTable := do
  dto.check achievements
  (createBadgeEdit dto).perform badgeConstraints badges

def BadgeConfig.merged (badge : BadgeConfig) (dto : UpdateBadgeConfigDto) :
    Option BadgeConfig := do
  let name ← dto.name.merge badge.name
  let sortOrder ← dto.sortOrder.merge badge.sortOrder
  let requiredAchievementCount ← dto.requiredAchievementCount.merge badge.requiredAchievementCount
  let requiredAchievementIds ← dto.requiredAchievementIds.merge badge.requiredAchievementIds
  let rewardAmountKobo ← dto.rewardAmountKobo.merge badge.rewardAmountKobo
  let rewardCurrency ← dto.rewardCurrency.merge badge.rewardCurrency
  let active ← dto.active.merge badge.active
  return ⟨badge.id, name, sortOrder, requiredAchievementCount, requiredAchievementIds,
    rewardAmountKobo, rewardCurrency, active⟩

def updateBadgeEdit (id : String) (dto : UpdateBadgeConfigDto) : Edit BadgeConfig where
  id := id
  prepare
    | none => .error (.rejected (.notFound ("Badge config " ++ id ++ " was not found")))
    | some badge =>
      .ok (if dto.sortOrder.differs badge.sortOrder then
          some (makeRoomForBadgeSortOrder dto.sortOrder.toOption (some id))
        else none,
        merging [dto.sortOrder, dto.requiredAchievementCount, dto.rewardAmountKobo]
          (badge.merged dto))

def updateBadge (achievements : List AchievementConfig) (badges : BadgeTable) (id : String)
    (dto : UpdateBadgeConfigDto) : Except RequestError BadgeTable := do
  dto.check achievements
  (updateBadgeEdit id dto).perform badgeConstraints badges

/-! ## Calls -/

inductive AdminCall where
  | createGroup (dto : CreateAchievementGroupDto)
  | updateGroup (key : String) (dto : UpdateAchievementGroupDto)
  | createAchievement (dto : CreateAchievementConfigDto)
  | updateAchievement (id : String) (dto : UpdateAchievementConfigDto)
  | createBadge (dto : CreateBadgeConfigDto)
  | updateBadge (id : String) (dto : UpdateBadgeConfigDto)

def perform (c : Catalog) : AdminCall → Except RequestError Catalog
  | .createGroup dto => (createGroup c.groups dto).map fun groups => { c with groups }
  | .updateGroup key dto => (updateGroup c.groups key dto).map fun groups => { c with groups }
  | .createAchievement dto => (createAchievement c.groups c.achievements dto).map
      fun achievements => { c with achievements }
  | .updateAchievement id dto => (updateAchievement c.groups c.achievements id dto).map
      fun achievements => { c with achievements }
  | .createBadge dto => (createBadge c.achievements.rows c.badges dto).map
      fun badges => { c with badges }
  | .updateBadge id dto => (updateBadge c.achievements.rows c.badges id dto).map
      fun badges => { c with badges }

end Bumpa.Loyalty
