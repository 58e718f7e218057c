import Bumpa.Loyalty.AdminConfigs

/-! # The calls of `AdminConfigService`, statement by statement

`createAchievement`, `updateAchievement`, `createBadge` and `updateBadge`, interleaved. An
execution checks the references of its body against what is committed then, and after that runs one
transaction: it finds its row, makes room, and saves, which selects the row again and inserts it, or
updates the columns that differ from what it selected. What the call does is its `Edit`; the
statements are the same for both tables (`statement`).

Statements are atomic and see what is committed plus the own writes of the transaction (`view`); a
write waits while another open transaction has written the row, or a row with the same name. A
statement may fail, a COMMIT may fail after it took effect, and a crash ends the execution. Groups
are not written by these calls.
-/
namespace Bumpa.Loyalty
open Bumpa.Relational
set_option autoImplicit false

def POSTGRES_UNIQUE_VIOLATION : String := "23505"

/-- The UPDATE of `save`: columns that are as selected are left out. -/
def AchievementConfig.updated (row selected achievement : AchievementConfig) :
    AchievementConfig where
  id := row.id
  name := if selected.name = achievement.name then row.name else achievement.name
  groupKey := if selected.groupKey = achievement.groupKey then row.groupKey
    else achievement.groupKey
  sortOrder := if selected.sortOrder = achievement.sortOrder then row.sortOrder
    else achievement.sortOrder
  rule := if selected.rule.same achievement.rule then row.rule else achievement.rule
  active := if selected.active = achievement.active then row.active else achievement.active

def BadgeConfig.updated (row selected badge : BadgeConfig) : BadgeConfig where
  id := row.id
  name := if selected.name = badge.name then row.name else badge.name
  sortOrder := if selected.sortOrder = badge.sortOrder then row.sortOrder else badge.sortOrder
  requiredAchievementCount :=
    if selected.requiredAchievementCount = badge.requiredAchievementCount then
      row.requiredAchievementCount
    else badge.requiredAchievementCount
  requiredAchievementIds :=
    if selected.requiredAchievementIds = badge.requiredAchievementIds then
      row.requiredAchievementIds
    else badge.requiredAchievementIds
  rewardAmountKobo := if selected.rewardAmountKobo = badge.rewardAmountKobo then
    row.rewardAmountKobo else badge.rewardAmountKobo
  rewardCurrency := if selected.rewardCurrency = badge.rewardCurrency then row.rewardCurrency
    else badge.rewardCurrency
  active := if selected.active = badge.active then row.active else badge.active

theorem AchievementConfig.updated_self {selected achievement : AchievementConfig}
    (hid : selected.id = achievement.id) : selected.updated selected achievement = achievement := by
  have hrule : selected.rule.same achievement.rule = true → selected.rule = achievement.rule :=
    AchievementRule.eq_of_same
  cases achievement
  simpa [AchievementConfig.updated, hid] using hrule

theorem BadgeConfig.updated_self {selected badge : BadgeConfig} (hid : selected.id = badge.id) :
    selected.updated selected badge = badge := by
  cases badge
  simpa [BadgeConfig.updated] using hid

/-- What the statements need to know about a table besides. -/
structure Columns (V : Type) (key : V → String) extends Constraints V key where
  name : V → String
  updated : V → V → V → V
  updated_self : ∀ {selected v}, key selected = key v → updated selected selected v = v

def achievementColumns (groups : GroupTable) : Columns AchievementConfig AchievementConfig.id where
  toConstraints := achievementConstraints groups
  name := (·.name)
  updated := AchievementConfig.updated
  updated_self := AchievementConfig.updated_self

def badgeColumns : Columns BadgeConfig BadgeConfig.id where
  toConstraints := badgeConstraints
  name := (·.name)
  updated := BadgeConfig.updated
  updated_self := BadgeConfig.updated_self

/-! ## One transaction -/

/-- The statement the transaction is about to issue. -/
inductive EditPc (V : Type) where
  | find
  | makeRoom (room : Room V) (saved : Except RequestError V)
  | select (saved : Except RequestError V)
  | write (saved : Except RequestError V) (selected : Option V)
  | commit

section Statements
variable {V : Type} {key : V → String}

/-- The table with the uncommitted writes of a transaction. -/
def view (T : Table String V key) (written : List V) : Table String V key :=
  written.foldl Table.put T

/-- Another transaction has written the row, or a row that has the name. -/
def locked (columns : Columns V key) (others : List (List V)) (v : V) : Bool :=
  others.any fun written => written.any fun w => key w = key v || columns.name w = columns.name v

/-- The INSERT or UPDATE that leaves the row `v`. -/
def writeRow (columns : Columns V key) (T : Table String V key) (others : List (List V))
    (written : List V) (v : V) : Option (Except RequestError (List V × EditPc V)) :=
  if locked columns others v then none
  else if !columns.inRange v then some (.error (.queryFailed POSTGRES_NUMERIC_VALUE_OUT_OF_RANGE))
  else
    match columns.save (view T written) v with
    | .error error => some (.error error)
    | .ok _ => some (.ok (written ++ [v], .commit))

/-- A statement before the COMMIT. The result is `none` where it has to wait. -/
def editStatement (columns : Columns V key) (T : Table String V key) (others : List (List V))
    (edit : Edit V) (written : List V) :
    EditPc V → Option (Except RequestError (List V × EditPc V))
  | .find =>
    match edit.prepare ((view T written).row edit.id) with
    | .error error => some (.error error)
    | .ok (some room, saved) => some (.ok (written, .makeRoom room saved))
    | .ok (none, saved) => some (.ok (written, .select saved))
  | .makeRoom room saved =>
    let matched := (view T written).filter (room.behind columns.sortOrder)
    if room.targetSortOrder.all (Int4.Fits ·) && matched.any (locked columns others) then none
    else if room.inRange columns.sortOrder matched then
      some (.ok (written ++ matched.map columns.raised, .select saved))
    else some (.error (.queryFailed POSTGRES_NUMERIC_VALUE_OUT_OF_RANGE))
  | .select saved => some (.ok (written, .write saved ((view T written).row edit.id)))
  | .write (.error error) _ => some (.error error)
  | .write (.ok v) none =>
    if ((view T written).row (key v)).isSome then
      some (.error (.queryFailed POSTGRES_UNIQUE_VIOLATION))
    else writeRow columns T others written v
  | .write (.ok v) (some selected) =>
    if columns.same selected v then some (.ok (written, .commit))
    else
      match (view T written).row (key v) with
      | none => some (.ok (written, .commit))
      | some row => writeRow columns T others written (columns.updated row selected v)
  | .commit => none

end Statements

/-! ## The calls -/

inductive ConfigCall where
  | createAchievement (dto : CreateAchievementConfigDto)
  | updateAchievement (id : String) (dto : UpdateAchievementConfigDto)
  | createBadge (dto : CreateBadgeConfigDto)
  | updateBadge (id : String) (dto : UpdateBadgeConfigDto)

/-- The achievement ids in the body. -/
def ConfigCall.references : ConfigCall → List String
  | .createAchievement dto => collectAchievementSetIds dto.rule
  | .updateAchievement _ dto => (dto.rule.toOption.map collectAchievementSetIds).getD []
  | .createBadge dto => dto.requiredAchievementIds.getD []
  | .updateBadge _ dto => dto.requiredAchievementIds.toOption.getD []

/-- What is checked before the transaction. -/
def ConfigCall.check (achievements : AchievementTable) : ConfigCall → Except RequestError Unit
  | .createAchievement dto => dto.check achievements.rows
  | .updateAchievement _ dto => dto.check achievements.rows
  | .createBadge dto => dto.check achievements.rows
  | .updateBadge _ dto => dto.check achievements.rows

/-! ## Executions -/

namespace Admin

/-- `idle` is an execution that has not begun, `answered` one that has ended. -/
inductive Thread where
  | idle
  | check (call : ConfigCall)
  | achievement (edit : Edit AchievementConfig) (written : List AchievementConfig)
      (pc : EditPc AchievementConfig)
  | badge (edit : Edit BadgeConfig) (written : List BadgeConfig) (pc : EditPc BadgeConfig)
  | answered (result : Except RequestError Unit)

/-- The transaction of a call. -/
def begin : ConfigCall → Thread
  | .createAchievement dto => .achievement (createAchievementEdit dto) [] .find
  | .updateAchievement id dto => .achievement (updateAchievementEdit id dto) [] .find
  | .createBadge dto => .badge (createBadgeEdit dto) [] .find
  | .updateBadge id dto => .badge (updateBadgeEdit id dto) [] .find

/-- Its uncommitted rows. -/
def Thread.achievements : Thread → List AchievementConfig
  | .achievement _ written _ => written
  | _ => []

def Thread.badges : Thread → List BadgeConfig
  | .badge _ written _ => written
  | _ => []

/-- After a statement of its transaction. -/
def proceed {V : Type} (c : Catalog) (thread : List V → EditPc V → Thread) :
    Except RequestError (List V × EditPc V) → Catalog × Thread
  | .error error => (c, .answered (.error error))
  | .ok (written, pc) => (c, thread written pc)

/-- An execution runs to its next statement. -/
def advance (c : Catalog) (others : List Thread) : Thread → Outcome → Option (Catalog × Thread)
  | .check call, .ok =>
    match call.check c.achievements with
    | .error error => some (c, .answered (.error error))
    | .ok _ => some (c, begin call)
  | .achievement _ written .commit, .ok =>
    some ({ c with achievements := view c.achievements written }, .answered (.ok ()))
  | .achievement _ written .commit, .fails true =>
    some ({ c with achievements := view c.achievements written }, .answered (.error .interrupted))
  | .achievement edit written pc, .ok =>
    (editStatement (achievementColumns c.groups) c.achievements (others.map (·.achievements)) edit
      written pc).map (proceed c (.achievement edit))
  | .badge _ written .commit, .ok =>
    some ({ c with badges := view c.badges written }, .answered (.ok ()))
  | .badge _ written .commit, .fails true =>
    some ({ c with badges := view c.badges written }, .answered (.error .interrupted))
  | .badge edit written pc, .ok =>
    (editStatement badgeColumns c.badges (others.map (·.badges)) edit written pc).map
      (proceed c (.badge edit))
  | .idle, _ => none
  | .answered _, _ => none
  | _, .fails _ => some (c, .answered (.error .interrupted))

structure State where
  catalog : Catalog
  threads : ℕ → Thread
  nextThread : ℕ

/-- `submit`: a request comes in at any replica. -/
inductive Label where
  | submit (call : ConfigCall)
  | run (e : ℕ) (outcome : Outcome)
  | crash (e : ℕ)

def Thread.isRunning : Thread → Bool
  | .idle => false
  | .answered _ => false
  | _ => true

def State.others (s : State) (e : ℕ) : List Thread :=
  ((List.range s.nextThread).filter (· ≠ e)).map s.threads

def step (s : State) : Label → Option State
  | .submit call =>
    some
      { s with
        threads := Function.update s.threads s.nextThread (.check call)
        nextThread := s.nextThread + 1 }
  | .run e outcome =>
    (advance s.catalog (s.others e) (s.threads e) outcome).map fun r =>
      { s with catalog := r.1, threads := Function.update s.threads e r.2 }
  | .crash e =>
    if (s.threads e).isRunning then
      some { s with threads := Function.update s.threads e (.answered (.error .interrupted)) }
    else none

def initial (c : Catalog) : State where
  catalog := c
  threads := fun _ => .idle
  nextThread := 0

end Admin

end Bumpa.Loyalty
