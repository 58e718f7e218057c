import Bumpa.Events.Domain
import Bumpa.Relational.Table
import Bumpa.Transition.Run
import Mathlib.Data.List.Sort

/-! # `OutboxService` (`packages/outbox-sdk`)

An outbox row is read, claimed by a conditional UPDATE from PENDING to PUBLISHING, handed to the
broker and saved whole from the copy that was read. `publishById` reads one row, `publishMany`
runs it for a list of ids, and `publishPendingBatch` reads a batch first and then claims its rows
one after another.

An execution is a thread that stops before every awaited call. A call goes through or rejects; a
rejected write may have taken effect, and a publish that the broker took in may be rejected too
(`written`); `World.accepted` lists the rows whose message the broker took in, either way. The
executions of any number of processes share the table, and a process that crashes ends its threads.
-/
namespace Bumpa.Outbox
open Bumpa.Events Bumpa.Relational Bumpa.Transition
set_option autoImplicit false

structure OutboxRecord (Payload : Type) where
  id : ReadableId
  payload : Payload
  status : OutboxStatus
  attempts : ℕ
  lastError : Option String
  createdAt : ℕ
  publishedAt : Option ℕ
  deriving DecidableEq, Repr

structure OutboxModuleOptions where
  batchSize : ℕ
  maxAttempts : ℕ
  deriving DecidableEq, Repr

/-- The entity's defaults: PENDING, no attempts. -/
def OutboxRecord.create {Payload : Type} (id : ReadableId) (payload : Payload) (createdAt : ℕ) :
    OutboxRecord Payload :=
  ⟨id, payload, .pending, 0, none, createdAt, none⟩

variable {Payload : Type}

abbrev OutboxTable (Payload : Type) := Table ReadableId (OutboxRecord Payload) OutboxRecord.id

/-! ## What the writes do -/

def OutboxRecord.published (event : OutboxRecord Payload) (now : ℕ) : OutboxRecord Payload :=
  { event with status := .published, publishedAt := some now, lastError := none }

/-- The catch block: one more attempt, and FAILED once they run out. -/
def OutboxRecord.attemptFailed (event : OutboxRecord Payload) (maxAttempts : ℕ) (error : String) :
    OutboxRecord Payload :=
  { event with
    attempts := event.attempts + 1
    lastError := some error
    status := if maxAttempts ≤ event.attempts + 1 then .failed else .pending }

/-- `UPDATE … SET status = PUBLISHING WHERE id AND status = PENDING`. -/
def claimForPublishing (rows : OutboxTable Payload) (id : ReadableId) : OutboxTable Payload :=
  rows.updateWhere id (·.status = .pending) ({ · with status := .publishing })

/-- `find` by PENDING, `ORDER BY createdAt`, `LIMIT batchSize`. -/
def pendingBatch (options : OutboxModuleOptions) (rows : OutboxTable Payload) :
    List (OutboxRecord Payload) :=
  ((rows.filter (·.status = .pending)).insertionSort (·.createdAt ≤ ·.createdAt)).take
    options.batchSize

/-! ## Executions -/

/-- What follows the record in hand: more ids of `publishMany`, or more copies of a batch. -/
inductive Rest (Payload : Type) where
  | ids (rest : List ReadableId)
  | batch (rest : List (OutboxRecord Payload))

inductive Thread (Payload : Type) where
  | done
  | findOne (id : ReadableId) (rest : List ReadableId)
  | find
  | claim (event : OutboxRecord Payload) (rest : Rest Payload)
  | publish (event : OutboxRecord Payload) (rest : Rest Payload)
  | savePublished (event : OutboxRecord Payload) (rest : Rest Payload)
  | saveFailed (event : OutboxRecord Payload) (rest : Rest Payload)

inductive Outcome where
  | ok
  | fails (error : String) (written : Bool)

structure World (Payload : Type) where
  now : ℕ
  rows : OutboxTable Payload
  accepted : List ReadableId

/-- The loop of `publishMany` or of the batch goes on. -/
def Rest.next : Rest Payload → Thread Payload
  | .ids [] => .done
  | .ids (id :: rest) => .findOne id rest
  | .batch [] => .done
  | .batch (event :: rest) => .claim event (.batch rest)

/-- A whole-entity save; a column that is `undefined` in the entity stays as it is. -/
def World.save (w : World Payload) (event : OutboxRecord Payload) : World Payload :=
  let row := (w.rows.row event.id).getD event
  { w with rows := w.rows.put { event with lastError := event.lastError.or row.lastError } }

def World.accept (w : World Payload) (id : ReadableId) : World Payload :=
  { w with accepted := w.accepted ++ [id] }

def World.claimRow (w : World Payload) (id : ReadableId) : World Payload :=
  { w with rows := claimForPublishing w.rows id }

/-- A thread runs to its next awaited call. -/
def advance (options : OutboxModuleOptions) (w : World Payload) :
    Thread Payload → Outcome → Option (World Payload × Thread Payload)
  | .done, _ => none
  | .findOne id rest, .ok =>
    match w.rows.row id with
    | none => some (w, (Rest.ids rest).next)
    | some event =>
      if event.status = .published ∨ options.maxAttempts ≤ event.attempts then
        some (w, (Rest.ids rest).next)
      else some (w, .claim event (.ids rest))
  | .findOne _ _, .fails _ _ => some (w, .done)
  | .find, .ok => some (w, (Rest.batch (pendingBatch options w.rows)).next)
  | .find, .fails _ _ => some (w, .done)
  | .claim event rest, .ok =>
    if (w.rows.row event.id).any (·.status = .pending) then
      some (w.claimRow event.id, .publish { event with status := .publishing } rest)
    else some (w, rest.next)
  | .claim event _, .fails _ written =>
    some (if written then w.claimRow event.id else w, .done)
  | .publish event rest, .ok =>
    some (w.accept event.id, .savePublished (event.published w.now) rest)
  | .publish event rest, .fails error written =>
    some (if written then w.accept event.id else w,
      .saveFailed (event.attemptFailed options.maxAttempts error) rest)
  | .savePublished event rest, .ok => some (w.save event, rest.next)
  | .savePublished event rest, .fails error written =>
    some (if written then w.save event else w,
      .saveFailed (event.attemptFailed options.maxAttempts error) rest)
  | .saveFailed event rest, .ok => some (w.save event, rest.next)
  | .saveFailed event _, .fails _ written => some (if written then w.save event else w, .done)

/-! ## The system -/

structure State (Payload : Type) where
  world : World Payload
  threads : ℕ → Thread Payload
  nextThread : ℕ

/-- `commit`: a domain transaction commits an outbox row along with its own write. -/
inductive Label (Payload : Type) where
  | tick (ms : ℕ)
  | commit (id : ReadableId) (payload : Payload)
  | publishMany (ids : List ReadableId)
  | publishPendingBatch
  | run (e : ℕ) (outcome : Outcome)
  | crash (e : ℕ)

def State.spawn (s : State Payload) (th : Thread Payload) : State Payload :=
  { s with
    threads := Function.update s.threads s.nextThread th
    nextThread := s.nextThread + 1 }

def step (options : OutboxModuleOptions) (s : State Payload) :
    Label Payload → Option (State Payload)
  | .tick ms => some { s with world := { s.world with now := s.world.now + ms } }
  | .commit id payload =>
    if s.world.rows.row id = none then
      some { s with world := s.world.save (OutboxRecord.create id payload s.world.now) }
    else none
  | .publishMany ids => some (s.spawn (Rest.ids ids).next)
  | .publishPendingBatch => some (s.spawn .find)
  | .run e outcome =>
    (advance options s.world (s.threads e) outcome).map fun r =>
      { s with world := r.1, threads := Function.update s.threads e r.2 }
  | .crash e => some { s with threads := Function.update s.threads e .done }

def initial : State Payload := ⟨⟨0, Table.empty, []⟩, fun _ => .done, 0⟩

abbrev Reaches (options : OutboxModuleOptions) (tr : List (Move (State Payload) (Label Payload)))
    (s : State Payload) : Prop :=
  Run (step options) initial tr s

theorem step_run {options : OutboxModuleOptions} {s s' : State Payload} {e : ℕ} {o : Outcome}
    (h : step options s (.run e o) = some s') :
    ∃ th', advance options s.world (s.threads e) o = some (s'.world, th') ∧
      s'.nextThread = s.nextThread ∧
      ∀ e', s'.threads e' = if e' = e then th' else s.threads e' := by
  obtain ⟨⟨w', th'⟩, hadv, rfl⟩ := Option.map_eq_some_iff.mp h
  exact ⟨th', hadv, rfl, fun e' => by simp only [Function.update_apply]⟩

end Bumpa.Outbox
