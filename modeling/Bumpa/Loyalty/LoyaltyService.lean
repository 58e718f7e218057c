import Bumpa.Events.Domain
import Bumpa.Loyalty.RuleEngine
import Bumpa.Relational.Int4
import Bumpa.Relational.Table
import Bumpa.Transition.Run
import Mathlib.Data.List.Sort

/-! # `LoyaltyService.handlePurchaseCompleted` (`apps/loyalty-service`)

A delivery checks `processed_events`, and then runs one transaction: it upserts the user's
projection, counts the purchase, unlocks achievements and badges and leaves its marker. Statements
are atomic and see what is committed plus the transaction's own writes (`Tx.view`). A write waits
while another open transaction has written the same row, and a key that is taken by then is
violated. The stats fit their columns, or the save of them fails; either all writes are committed or
none.

A delivery is an execution that stops before every statement. A statement may fail, a COMMIT may
fail after it took effect, and a crash ends the execution. `save` selects by key, then inserts, or
updates the columns that differ from what it selected; rows with a fresh id are just inserted.
-/
namespace Bumpa.Loyalty
open Bumpa.Events Bumpa.Relational Bumpa.Transition
set_option autoImplicit false

/-! ## Entities -/

structure UserProjection where
  id : String
  email : String
  name : String
  bankAccountNumber : Option String
  bankCode : Option String
  deriving DecidableEq, Repr

structure UserStats where
  userId : String
  purchaseCount : ℕ
  totalSpendKobo : ℕ
  deriving DecidableEq, Repr

structure AchievementConfig where
  id : String
  name : String
  groupKey : String
  sortOrder : ℕ
  rule : AchievementRule
  active : Bool

structure BadgeConfig where
  id : String
  name : String
  sortOrder : ℕ
  requiredAchievementCount : ℕ
  requiredAchievementIds : List String
  rewardAmountKobo : ℕ
  rewardCurrency : String
  active : Bool
  deriving DecidableEq, Repr

structure UserAchievement where
  id : ReadableId
  userId : String
  achievementId : String
  deriving DecidableEq, Repr

structure UserBadge where
  id : ReadableId
  userId : String
  badgeId : String
  deriving DecidableEq, Repr

structure AchievementUnlockedPayload where
  achievementName : String
  user : UserSnapshot
  deriving DecidableEq, Repr

inductive UnlockEvent where
  | achievement (event : DomainEvent AchievementUnlockedPayload)
  | badge (event : BadgeUnlockedEvent)
  deriving DecidableEq, Repr

/-- A row of `outbox_events`; its type and routing key are those of the payload. -/
structure OutboxEvent where
  id : ReadableId
  payload : UnlockEvent
  deriving DecidableEq, Repr

/-- What a purchase event's id stands for, and the configuration. -/
structure Config where
  payload : ReadableId → PurchaseCompletedPayload
  correlationId : ReadableId → ReadableId
  achievements : List AchievementConfig
  badges : List BadgeConfig

def Config.event (cfg : Config) (eventId : ReadableId) : PurchaseCompletedEvent :=
  createDomainEvent .purchaseCompleted (cfg.payload eventId) (cfg.correlationId eventId) eventId

/-! ## The database -/

structure Database where
  projections : Table String UserProjection UserProjection.id
  stats : Table String UserStats UserStats.userId
  achievements : List UserAchievement
  badges : List UserBadge
  outbox : List OutboxEvent
  processed : List ReadableId

/-- The uncommitted writes of a transaction. -/
structure Tx where
  projection : Option UserProjection
  stats : Option UserStats
  achievements : List UserAchievement
  badges : List UserBadge
  outbox : List OutboxEvent
  processed : Option ReadableId
  deriving DecidableEq, Repr

def Tx.begin : Tx := ⟨none, none, [], [], [], none⟩

/-- What the transaction sees, and what is committed in the end. -/
def Tx.view (tx : Tx) (db : Database) : Database where
  projections := tx.projection.elim db.projections db.projections.put
  stats := tx.stats.elim db.stats db.stats.put
  achievements := db.achievements ++ tx.achievements
  badges := db.badges ++ tx.badges
  outbox := db.outbox ++ tx.outbox
  processed := db.processed ++ tx.processed.toList

/-- `upsert`: columns that are `undefined` are not overwritten. -/
def upsertProjection (db : Database) (user : UserSnapshot) : UserProjection where
  id := user.id
  email := user.email
  name := user.name
  bankAccountNumber :=
    user.bankAccountNumber.or ((db.projections.row user.id).bind (·.bankAccountNumber))
  bankCode := user.bankCode.or ((db.projections.row user.id).bind (·.bankCode))

/-- `findOne ?? create`, and the two increments. -/
def countPurchase (db : Database) (payload : PurchaseCompletedPayload) : UserStats :=
  let stats := (db.stats.row payload.userId).getD ⟨payload.userId, 0, 0⟩
  { stats with
    purchaseCount := stats.purchaseCount + 1
    totalSpendKobo := stats.totalSpendKobo + payload.amountKobo }

/-- The UPDATE of `save`: columns that are as selected are left out. -/
def UserStats.updated (row selected stats : UserStats) : UserStats :=
  { row with
    purchaseCount := if selected.purchaseCount = stats.purchaseCount then row.purchaseCount
      else stats.purchaseCount
    totalSpendKobo := if selected.totalSpendKobo = stats.totalSpendKobo then row.totalSpendKobo
      else stats.totalSpendKobo }

/-- The columns are of type `integer`. One that the save sets cannot take its value; one that is as
selected is not set. -/
def UserStats.outOfRange (selected : Option UserStats) (stats : UserStats) : Bool :=
  (selected.all (·.purchaseCount ≠ stats.purchaseCount) &&
      !decide (Int4.Fits stats.purchaseCount)) ||
    (selected.all (·.totalSpendKobo ≠ stats.totalSpendKobo) &&
      !decide (Int4.Fits stats.totalSpendKobo))

/-! ## Unlocking -/

/-- The do/while loop: `remaining` is what is left of the pass over `configs`. -/
structure UnlockLoop where
  stats : UserStats
  configs : List AchievementConfig
  remaining : List AchievementConfig
  unlockedInPass : Bool
  existingAchievementIds : List String
  brokenAchievementIds : List String

def UnlockLoop.context (loop : UnlockLoop) : RuleContext :=
  ⟨loop.stats.purchaseCount, loop.stats.totalSpendKobo, loop.existingAchievementIds⟩

/-- On to the next config of the pass that unlocks. A rule that throws breaks its config. -/
def UnlockLoop.scan (loop : UnlockLoop) :
    List AchievementConfig → List String → Option (AchievementConfig × List AchievementConfig) ×
      List String
  | [], broken => (none, broken)
  | config :: rest, broken =>
    if config.id ∈ loop.existingAchievementIds ∨ config.id ∈ broken then loop.scan rest broken
    else
      match evaluate loop.context config.rule with
      | .error _ => loop.scan rest (config.id :: broken)
      | .ok false => loop.scan rest broken
      | .ok true => (some (config, rest), broken)

/-- On to the next config that unlocks, in this pass or, if it unlocked one, in another. -/
def UnlockLoop.next (loop : UnlockLoop) : Option (AchievementConfig × UnlockLoop) :=
  match loop.scan loop.remaining loop.brokenAchievementIds with
  | (some (config, rest), broken) =>
    some (config, { loop with remaining := rest, brokenAchievementIds := broken })
  | (none, broken) =>
    if loop.unlockedInPass then
      match loop.scan loop.configs broken with
      | (some (config, rest), broken') =>
        some (config,
          { loop with remaining := rest, unlockedInPass := false, brokenAchievementIds := broken' })
      | (none, _) => none
    else none

def UnlockLoop.unlocked (loop : UnlockLoop) (config : AchievementConfig) : UnlockLoop :=
  { loop with
    existingAchievementIds := loop.existingAchievementIds ++ [config.id]
    unlockedInPass := true }

def Config.activeAchievements (cfg : Config) : List AchievementConfig :=
  (cfg.achievements.filter (·.active)).insertionSort fun a b =>
    a.groupKey < b.groupKey ∨ (a.groupKey = b.groupKey ∧ a.sortOrder ≤ b.sortOrder)

def Config.activeBadges (cfg : Config) : List BadgeConfig :=
  (cfg.badges.filter (·.active)).insertionSort (·.sortOrder ≤ ·.sortOrder)

def meetsBadgeRequirement (badge : BadgeConfig) (achievementCount : ℕ)
    (unlockedAchievementIds : List String) : Bool :=
  decide (badge.requiredAchievementCount ≤ achievementCount) &&
    badge.requiredAchievementIds.all (· ∈ unlockedAchievementIds)

def Database.achievementIds (db : Database) (userId : String) : List String :=
  (db.achievements.filter (·.userId = userId)).map (·.achievementId)

def Database.badgeIds (db : Database) (userId : String) : List String :=
  (db.badges.filter (·.userId = userId)).map (·.badgeId)

/-! ## Executions -/

/-- The statement the transaction is about to issue. -/
inductive Pc where
  | upsert
  | findStats
  | selectStats (stats : UserStats)
  | writeStats (stats : UserStats) (selected : Option UserStats)
  | findConfigs (stats : UserStats)
  | findAchievements (stats : UserStats) (configs : List AchievementConfig)
  | saveAchievement (loop : UnlockLoop) (config : AchievementConfig)
  | saveAchievementEvent (loop : UnlockLoop) (config : AchievementConfig)
  | findUnlocked
  | findBadges (achievementIds : List String)
  | findUserBadges (achievementIds : List String) (badges : List BadgeConfig)
  | saveBadge (badge : BadgeConfig) (rest : List BadgeConfig)
  | saveBadgeEvent (badge : BadgeConfig) (rest : List BadgeConfig)
  | selectMarker
  | writeMarker (found : Bool)
  | commit

/-- `publish`: `publishMany` with the ids of the outbox rows, after the commit. -/
inductive Thread where
  | done
  | alreadyProcessed (event : PurchaseCompletedEvent)
  | transaction (event : PurchaseCompletedEvent) (tx : Tx) (pc : Pc)
  | publish (outboxEventIds : List ReadableId)

/-- A statement that fails may have taken effect only if it is the COMMIT. -/
inductive Outcome where
  | ok
  | fails (written : Bool)

/-- `commits` are the purchase events in the order of their commits, `handedOver` the outbox ids
that went to `publishMany`. -/
structure World where
  db : Database
  nextId : ℕ
  commits : List ReadableId
  handedOver : List ReadableId

def Thread.tx : Thread → Option Tx
  | .transaction _ tx _ => some tx
  | _ => none

def World.commit (w : World) (event : PurchaseCompletedEvent) (tx : Tx) : World :=
  { w with db := tx.view w.db, commits := w.commits ++ [event.eventId] }

/-- The loop goes on; after it, `unlockBadges` begins. -/
def unlockNext (loop : UnlockLoop) : Pc :=
  match loop.next with
  | some (config, loop') => .saveAchievement loop' config
  | none => .findUnlocked

def badgeNext : List BadgeConfig → Pc
  | [] => .selectMarker
  | badge :: rest => .saveBadge badge rest

/-- A statement that succeeds, in a transaction of its own row locks and those of `others`. The
result is `none` where it has to wait, and the execution is `done` where a key is violated or a value
is out of its column's range. -/
def statement (cfg : Config) (w : World) (others : List Tx) (event : PurchaseCompletedEvent)
    (tx : Tx) : Pc → Option (World × Thread)
  | .upsert =>
    let row := upsertProjection w.db event.payload.user
    if others.all fun tx' => tx'.projection.all (·.id ≠ row.id) then
      some (w, .transaction event { tx with projection := some row } .findStats)
    else none
  | .findStats =>
    some (w, .transaction event tx (.selectStats (countPurchase (tx.view w.db) event.payload)))
  | .selectStats stats =>
    some (w, .transaction event tx (.writeStats stats ((tx.view w.db).stats.row stats.userId)))
  | .writeStats stats selected =>
    if selected = some stats then some (w, .transaction event tx (.findConfigs stats))
    else if UserStats.outOfRange selected stats then some (w, .done)
    else if others.all fun tx' => tx'.stats.all (·.userId ≠ stats.userId) then
      match selected, (tx.view w.db).stats.row stats.userId with
      | none, none =>
        some (w, .transaction event { tx with stats := some stats } (.findConfigs stats))
      | none, some _ => some (w, .done)
      | some _, none => some (w, .transaction event tx (.findConfigs stats))
      | some old, some row =>
        some (w, .transaction event { tx with stats := some (row.updated old stats) }
          (.findConfigs stats))
    else none
  | .findConfigs stats =>
    some (w, .transaction event tx (.findAchievements stats cfg.activeAchievements))
  | .findAchievements stats configs =>
    let existing := (tx.view w.db).achievementIds event.payload.userId
    some (w, .transaction event tx (unlockNext ⟨stats, configs, configs, false, existing, []⟩))
  | .saveAchievement loop config =>
    let row : UserAchievement := ⟨w.nextId, event.payload.userId, config.id⟩
    if others.any fun tx' => tx'.achievements.any fun row' =>
        row'.userId = row.userId && row'.achievementId = row.achievementId then none
    else if config.id ∈ (tx.view w.db).achievementIds event.payload.userId then some (w, .done)
    else
      some ({ w with nextId := w.nextId + 1 },
        .transaction event { tx with achievements := tx.achievements ++ [row] }
          (.saveAchievementEvent (loop.unlocked config) config))
  | .saveAchievementEvent loop config =>
    let achievementEvent := createDomainEvent .achievementUnlocked
      (AchievementUnlockedPayload.mk config.name event.payload.user) event.correlationId w.nextId
    some ({ w with nextId := w.nextId + 1 },
      .transaction event
        { tx with outbox := tx.outbox ++ [⟨w.nextId, .achievement achievementEvent⟩] }
        (unlockNext loop))
  | .findUnlocked =>
    some (w, .transaction event tx
      (.findBadges ((tx.view w.db).achievementIds event.payload.userId)))
  | .findBadges achievementIds =>
    some (w, .transaction event tx (.findUserBadges achievementIds cfg.activeBadges))
  | .findUserBadges achievementIds badges =>
    let existing := (tx.view w.db).badgeIds event.payload.userId
    some (w, .transaction event tx (badgeNext (badges.filter fun badge =>
      badge.id ∉ existing && meetsBadgeRequirement badge achievementIds.length achievementIds)))
  | .saveBadge badge rest =>
    let row : UserBadge := ⟨w.nextId, event.payload.userId, badge.id⟩
    if others.any fun tx' => tx'.badges.any fun row' =>
        row'.userId = row.userId && row'.badgeId = row.badgeId then none
    else if badge.id ∈ (tx.view w.db).badgeIds event.payload.userId then some (w, .done)
    else
      some ({ w with nextId := w.nextId + 1 },
        .transaction event { tx with badges := tx.badges ++ [row] } (.saveBadgeEvent badge rest))
  | .saveBadgeEvent badge rest =>
    let badgeEvent := createDomainEvent .badgeUnlocked
      (BadgeUnlockedPayload.mk badge.name (some badge.rewardAmountKobo) badge.rewardCurrency
        event.payload.user) event.correlationId w.nextId
    some ({ w with nextId := w.nextId + 1 },
      .transaction event { tx with outbox := tx.outbox ++ [⟨w.nextId, .badge badgeEvent⟩] }
        (badgeNext rest))
  | .selectMarker =>
    some (w, .transaction event tx (.writeMarker (event.eventId ∈ (tx.view w.db).processed)))
  | .writeMarker found =>
    if found then some (w, .transaction event tx .commit)
    else if others.all fun tx' => tx'.processed ≠ some event.eventId then
      if event.eventId ∈ (tx.view w.db).processed then some (w, .done)
      else some (w, .transaction event { tx with processed := some event.eventId } .commit)
    else none
  | .commit => some (w.commit event tx, .publish (tx.outbox.map (·.id)))

/-- An execution runs to its next statement. -/
def advance (cfg : Config) (w : World) (others : List Tx) :
    Thread → Outcome → Option (World × Thread)
  | .done, _ => none
  | .alreadyProcessed event, .ok =>
    if event.eventId ∈ w.db.processed then some (w, .done)
    else some (w, .transaction event Tx.begin .upsert)
  | .alreadyProcessed _, .fails _ => some (w, .done)
  | .transaction event tx pc, .ok => statement cfg w others event tx pc
  | .transaction event tx .commit, .fails true => some (w.commit event tx, .done)
  | .transaction _ _ _, .fails _ => some (w, .done)
  | .publish outboxEventIds, .ok =>
    some ({ w with handedOver := w.handedOver ++ outboxEventIds }, .done)
  | .publish _, .fails _ => some (w, .done)

/-! ## The system -/

structure State where
  world : World
  threads : ℕ → Thread
  nextThread : ℕ

/-- `deliver`: the broker delivers the event, for the first time or again, to any replica. -/
inductive Label where
  | deliver (eventId : ReadableId)
  | run (e : ℕ) (outcome : Outcome)
  | crash (e : ℕ)

/-- The open transactions of the other executions. -/
def State.others (s : State) (e : ℕ) : List Tx :=
  (List.range s.nextThread).filterMap fun e' => if e' = e then none else (s.threads e').tx

def step (cfg : Config) (s : State) : Label → Option State
  | .deliver eventId =>
    some
      { s with
        threads := Function.update s.threads s.nextThread (.alreadyProcessed (cfg.event eventId))
        nextThread := s.nextThread + 1 }
  | .run e outcome =>
    (advance cfg s.world (s.others e) (s.threads e) outcome).map fun r =>
      { s with world := r.1, threads := Function.update s.threads e r.2 }
  | .crash e => some { s with threads := Function.update s.threads e .done }

def initial : State where
  world := ⟨⟨Table.empty, Table.empty, [], [], [], []⟩, 0, [], []⟩
  threads := fun _ => .done
  nextThread := 0

abbrev Reaches (cfg : Config) (tr : List (Move State Label)) (s : State) : Prop :=
  Run (step cfg) initial tr s

theorem step_run {cfg : Config} {s s' : State} {e : ℕ} {o : Outcome}
    (h : step cfg s (.run e o) = some s') :
    ∃ th', advance cfg s.world (s.others e) (s.threads e) o = some (s'.world, th') ∧
      s'.nextThread = s.nextThread ∧
      ∀ e', s'.threads e' = if e' = e then th' else s.threads e' := by
  obtain ⟨⟨w', th'⟩, hadv, rfl⟩ := Option.map_eq_some_iff.mp h
  exact ⟨th', hadv, rfl, fun e' => by simp only [Function.update_apply]⟩

end Bumpa.Loyalty
