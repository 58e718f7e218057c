import Bumpa.Events.Domain
import Bumpa.Purchases.CreatePurchaseDto
import Bumpa.Relational.Int4
import Bumpa.Relational.Table
import Bumpa.Transition.Run
import Mathlib.Data.List.Infix

/-! # `PurchaseService.createPurchase` (`apps/purchase-service`)

A call looks its idempotency key up, and then runs one transaction: it saves the user, the purchase
and its outbox row. `save` of the user selects by key, then inserts, or updates the columns that
differ from what it selected; the purchase and the event have fresh ids and are just inserted.
Statements see what is committed. A write waits while another open transaction has written the same
row or the same unique value; a value that is taken by then is violated, and an amount that the
column cannot take is refused. Either error rolls the transaction back and reaches the catch block.

A call is an execution that stops before every statement. A statement may also fail for reasons of
its own (`fails`), a COMMIT after it took effect; a crash ends the calls of a process. Users and
purchases are never deleted, so the foreign key of a purchase always holds.
-/
namespace Bumpa.Purchases
open Bumpa.Events Bumpa.Relational Bumpa.Transition
set_option autoImplicit false

/-! ## Entities -/

structure User where
  id : String
  email : String
  name : String
  bankAccountNumber : Option String
  bankCode : Option String
  deriving DecidableEq, Repr

structure Purchase where
  id : ReadableId
  userId : String
  amountKobo : Int4
  idempotencyKey : Option String
  deriving DecidableEq, Repr

/-- A row of `outbox_events`; its type and routing key are those of the payload. -/
structure OutboxEvent where
  id : ReadableId
  payload : PurchaseCompletedEvent
  deriving DecidableEq, Repr

/-- The unique index on `idempotencyKey`, where absent keys are distinct. -/
def Purchase.sameKey (row row' : Purchase) : Bool :=
  row.idempotencyKey.any fun key => row'.idempotencyKey = some key

/-! ## Errors -/

structure QueryFailedError where
  code : String
  message : String
  deriving DecidableEq, Repr

def postgresUniqueViolation : String := "23505"

def postgresNumericValueOutOfRange : String := "22003"

def idempotencyKeyUniqueConstraint : String := "UQ_purchases_idempotencyKey"

/-- TypeORM's name for the primary key of `users`, which the migration does not name. -/
def usersPrimaryKey : String := "PK_a3ffb1c0c8416b9fc6f907b7433"

def quoted (name : String) : String := "\"" ++ name ++ "\""

def uniqueViolation (constraintName : String) : QueryFailedError :=
  ⟨postgresUniqueViolation,
    "duplicate key value violates unique constraint " ++ quoted constraintName⟩

def integerOutOfRange (value : ℤ) : QueryFailedError :=
  ⟨postgresNumericValueOutOfRange,
    "value " ++ quoted (toString value) ++ " is out of range for type integer"⟩

def includes (message part : String) : Bool := decide (part.toList <:+: message.toList)

def isUniqueViolation (error : QueryFailedError) (constraintName : Option String) : Bool :=
  error.code = postgresUniqueViolation &&
    constraintName.all fun name => includes error.message (quoted name)

/-! ## The database -/

structure Database where
  users : Table String User User.id
  purchases : List Purchase
  outbox : List OutboxEvent

/-- The uncommitted writes of a transaction. -/
structure Tx where
  user : Option User
  purchase : Option Purchase
  outbox : Option OutboxEvent
  deriving DecidableEq, Repr

def Tx.begin : Tx := ⟨none, none, none⟩

/-- What is committed in the end. -/
def Tx.view (tx : Tx) (db : Database) : Database where
  users := tx.user.elim db.users db.users.put
  purchases := db.purchases ++ tx.purchase.toList
  outbox := db.outbox ++ tx.outbox.toList

def Database.findByIdempotencyKey (db : Database) (idempotencyKey : String) : Option Purchase :=
  db.purchases.find? (·.idempotencyKey = some idempotencyKey)

def buildUserSnapshot (dto : CreatePurchaseDto) : UserSnapshot :=
  ⟨dto.userId, dto.email, dto.name, dto.bankAccountNumber.toOption, dto.bankCode.toOption⟩

def buildPurchaseCompletedEvent (dto : CreatePurchaseDto) (userSnapshot : UserSnapshot)
    (purchaseId correlationId eventId : ReadableId) : PurchaseCompletedEvent :=
  createDomainEvent .purchaseCompleted ⟨dto.userId, purchaseId, dto.amountKobo.toNat, userSnapshot⟩
    correlationId eventId

def User.create (userSnapshot : UserSnapshot) : User :=
  ⟨userSnapshot.id, userSnapshot.email, userSnapshot.name, userSnapshot.bankAccountNumber,
    userSnapshot.bankCode⟩

/-- The UPDATE of `save`: columns that are as selected are left out. -/
def User.updated (row selected : User) (dto : CreatePurchaseDto) : User where
  id := row.id
  email := if selected.email = dto.email then row.email else dto.email
  name := if selected.name = dto.name then row.name else dto.name
  bankAccountNumber := dto.bankAccountNumber.updated row.bankAccountNumber selected.bankAccountNumber
  bankCode := dto.bankCode.updated row.bankCode selected.bankCode

/-! ## Executions -/

structure Call where
  dto : CreatePurchaseDto
  correlationId : ReadableId
  idempotencyKey : Option String
  deriving DecidableEq, Repr

/-- A call past its check, with the ids it has made. -/
structure Creation where
  call : Call
  purchaseId : ReadableId
  eventId : ReadableId
  deriving DecidableEq, Repr

/-- The statement the transaction is about to issue. -/
inductive Pc where
  | selectUser
  | insertUser
  | updateUser (selected : User)
  | insertPurchase
  | insertEvent
  | commit
  deriving DecidableEq, Repr

/-- `failed`: a statement failed for reasons of its own, or the process crashed. -/
inductive Thread where
  | idle
  | findExisting (call : Call) (key : String)
  | transaction (new : Creation) (tx : Tx) (pc : Pc)
  | findWinner (call : Call) (key : String) (error : QueryFailedError)
  | publish (new : Creation)
  | returned (call : Call) (purchaseId : ReadableId)
  | rejected (call : Call) (error : QueryFailedError)
  | failed (call : Call)
  deriving DecidableEq, Repr

/-- A statement that fails may have taken effect only if it is the COMMIT. -/
inductive Outcome where
  | ok
  | fails (written : Bool)

/-- `handedOver` are the outbox ids that went to `publishMany`. -/
structure World where
  db : Database
  nextId : ℕ
  handedOver : List ReadableId

def Thread.tx : Thread → Option Tx
  | .transaction _ tx _ => some tx
  | _ => none

/-- A call that has begun and not ended. -/
def Thread.running : Thread → Option Call
  | .findExisting call _ | .findWinner call _ _ => some call
  | .transaction new _ _ | .publish new => some new.call
  | _ => none

def World.commit (w : World) (tx : Tx) : World := { w with db := tx.view w.db }

/-- Makes the ids and begins the transaction. -/
def World.begin (w : World) (call : Call) : World × Thread :=
  ({ w with nextId := w.nextId + 2 },
    .transaction ⟨call, w.nextId, w.nextId + 1⟩ Tx.begin .selectUser)

/-- The call up to its first statement: a key that is absent or empty is not looked up. -/
def World.createPurchase (w : World) (call : Call) : World × Thread :=
  match call.idempotencyKey with
  | some key => if key = "" then w.begin call else (w, .findExisting call key)
  | none => w.begin call

/-- The catch block. -/
def Call.caught (call : Call) (error : QueryFailedError) : Thread :=
  match call.idempotencyKey with
  | some key =>
    if key ≠ "" ∧ isUniqueViolation error (some idempotencyKeyUniqueConstraint) then
      .findWinner call key error
    else .rejected call error
  | none => .rejected call error

/-- A statement that is not held up from outside, next to the open transactions `others`. The
result is `none` where it has to wait. -/
def statement (w : World) (others : List Tx) (new : Creation) (tx : Tx) :
    Pc → Option (World × Thread)
  | .selectUser =>
    match w.db.users.row new.call.dto.userId with
    | none => some (w, .transaction new tx .insertUser)
    | some row =>
      if row.updated row new.call.dto = row then
        some (w, .transaction new tx .insertPurchase)
      else some (w, .transaction new tx (.updateUser row))
  | .insertUser =>
    if others.any fun tx' => tx'.user.any (·.id = new.call.dto.userId) then none
    else
      match w.db.users.row new.call.dto.userId with
      | some _ => some (w, new.call.caught (uniqueViolation usersPrimaryKey))
      | none =>
        let user := User.create (buildUserSnapshot new.call.dto)
        some (w, .transaction new { tx with user := some user } .insertPurchase)
  | .updateUser selected =>
    if others.any fun tx' => tx'.user.any (·.id = new.call.dto.userId) then none
    else
      match w.db.users.row new.call.dto.userId with
      | none => some (w, .transaction new tx .insertPurchase)
      | some row =>
        let user := row.updated selected new.call.dto
        some (w, .transaction new { tx with user := some user } .insertPurchase)
  | .insertPurchase =>
    match Int4.ofInt? new.call.dto.amountKobo with
    | none => some (w, new.call.caught (integerOutOfRange new.call.dto.amountKobo))
    | some amountKobo =>
      let purchase : Purchase :=
        ⟨new.purchaseId, new.call.dto.userId, amountKobo, new.call.idempotencyKey⟩
      if others.any fun tx' => tx'.purchase.any purchase.sameKey then none
      else if w.db.purchases.any purchase.sameKey then
        some (w, new.call.caught (uniqueViolation idempotencyKeyUniqueConstraint))
      else some (w, .transaction new { tx with purchase := some purchase } .insertEvent)
  | .insertEvent =>
    let event := buildPurchaseCompletedEvent new.call.dto (buildUserSnapshot new.call.dto)
      new.purchaseId new.call.correlationId new.eventId
    some (w, .transaction new { tx with outbox := some ⟨event.eventId, event⟩ } .commit)
  | .commit => some (w.commit tx, .publish new)

/-- An execution runs to its next statement. -/
def advance (w : World) (others : List Tx) : Thread → Outcome → Option (World × Thread)
  | .findExisting call key, .ok =>
    match w.db.findByIdempotencyKey key with
    | some existing => some (w, .returned call existing.id)
    | none => some (w.begin call)
  | .transaction new tx pc, .ok => statement w others new tx pc
  | .transaction new tx .commit, .fails true => some (w.commit tx, .failed new.call)
  | .findWinner call key error, .ok =>
    match w.db.findByIdempotencyKey key with
    | some existing => some (w, .returned call existing.id)
    | none => some (w, .rejected call error)
  | .publish new, .ok =>
    some ({ w with handedOver := w.handedOver ++ [new.eventId] },
      .returned new.call new.purchaseId)
  | th, .fails _ => th.running.map fun call => (w, .failed call)
  | _, .ok => none

/-! ## The system -/

structure State where
  world : World
  threads : ℕ → Thread
  nextThread : ℕ

/-- `call`: a request reaches any replica, for the first time or again. -/
inductive Label where
  | call (call : Call)
  | run (e : ℕ) (outcome : Outcome)
  | crash (e : ℕ)

/-- The open transactions of the other executions. -/
def State.others (s : State) (e : ℕ) : List Tx :=
  (List.range s.nextThread).filterMap fun e' => if e' = e then none else (s.threads e').tx

def step (s : State) : Label → Option State
  | .call call =>
    let r := s.world.createPurchase call
    some ⟨r.1, Function.update s.threads s.nextThread r.2, s.nextThread + 1⟩
  | .run e outcome =>
    (advance s.world (s.others e) (s.threads e) outcome).map fun r =>
      { s with world := r.1, threads := Function.update s.threads e r.2 }
  | .crash e =>
    (s.threads e).running.map fun call =>
      { s with threads := Function.update s.threads e (.failed call) }

def initial : State := ⟨⟨⟨Table.empty, [], []⟩, 0, []⟩, fun _ => .idle, 0⟩

abbrev Reaches (tr : List (Move State Label)) (s : State) : Prop := Run step initial tr s

theorem step_run {s s' : State} {e : ℕ} {o : Outcome} (h : step s (.run e o) = some s') :
    ∃ th', advance s.world (s.others e) (s.threads e) o = some (s'.world, th') ∧
      s'.nextThread = s.nextThread ∧
      ∀ e', s'.threads e' = if e' = e then th' else s.threads e' := by
  obtain ⟨⟨w', th'⟩, hadv, rfl⟩ := Option.map_eq_some_iff.mp h
  exact ⟨th', hadv, rfl, fun e' => by simp only [Function.update_apply]⟩

/-! ## Schedules -/

def aminaPurchase : CreatePurchaseDto :=
  ⟨"usr_1", "amina@getbumpa.com", "Amina Bello", .absent, .absent, 500000⟩

/-- The next `n` statements of execution `e` go through. -/
def Label.oks (e n : ℕ) : List Label := List.replicate n (.run e .ok)

end Bumpa.Purchases
