import Bumpa.Cashback.World

/-! # `CashbackService.handleBadgeUnlocked`

The duplicate check reads outside the transaction. Inside it, `save` of a new transaction inserts
under the unique pair (user, badge): it waits for another uncommitted insert of the pair and is
rejected when the pair is committed. `save` of a transaction found before updates the row only
where they differ by then. `save` of the marker selects it by its key and inserts it if it is
absent. The job is added before the commit.
-/
namespace Bumpa.Cashback
open Bumpa.Events Bumpa.Relational
set_option autoImplicit false

def World.findByBadge (w : World) (userId badgeName : String) : Option CashbackTransaction :=
  w.db.transactions.find? fun t => t.userId = userId && t.badgeName = badgeName

/-- The commit writes what the transaction holds locks for, and releases them. -/
def World.commitBadge (w : World) (e : ℕ) (event : BadgeUnlockedEvent) (t : CashbackTransaction) :
    World :=
  let saved :=
    if w.db.locks (.badge t.userId t.badgeName) = some e ∨ w.db.locks (.row t.id) = some e then
      w.saveTransaction t
    else w
  let marked :=
    if w.db.locks (.marker event.eventId) = some e then
      { saved with
        db := { saved.db with processedEvents := event.eventId :: saved.db.processedEvents } }
    else saved
  marked.unlock e

def handleBadgeUnlocked (cfg : Config) (w : World) (e : ℕ) :
    BadgePc → Outcome → Option (World × Thread)
  | .check event, .ok =>
    if event.eventId ∈ w.db.processedEvents then some (w, .done)
    else some (w, .badge (.find event))
  | .check _, .fails _ _ => some (w, .done)
  | .find event, .ok =>
    match w.findByBadge event.payload.user.id event.payload.badgeName with
    | some t => some (w.drawIds 1, .badge (.save event t false))
    | none =>
      some (w.drawIds 1, .badge (.save event (createTransaction cfg w.nextId event) true))
  | .find _, .fails _ _ => some (w, .done)
  | .save event t true, .ok =>
    if w.db.locks (.badge t.userId t.badgeName) = none then
      match w.findByBadge t.userId t.badgeName with
      | some _ => some (w.unlock e, .done)
      | none => some (w.lock e (.badge t.userId t.badgeName), .badge (.findMarker event t))
    else none
  | .save event t false, .ok =>
    if w.db.transactions.row t.id = some t then some (w, .badge (.findMarker event t))
    else if w.rowFree t.id then some (w.lock e (.row t.id), .badge (.findMarker event t))
    else none
  | .save _ _ _, .fails _ _ => some (w.unlock e, .done)
  | .findMarker event t, .ok =>
    if event.eventId ∈ w.db.processedEvents then some (w, .badge (.enqueue event t))
    else some (w, .badge (.insertMarker event t))
  | .findMarker _ _, .fails _ _ => some (w.unlock e, .done)
  | .insertMarker event t, .ok =>
    if w.db.locks (.marker event.eventId) = none then
      if event.eventId ∈ w.db.processedEvents then some (w.unlock e, .done)
      else some (w.lock e (.marker event.eventId), .badge (.enqueue event t))
    else none
  | .insertMarker _ _, .fails _ _ => some (w.unlock e, .done)
  | .enqueue event t, .ok => some (w.addJob t.id event, .badge (.commit event t))
  | .enqueue event t, .fails _ written =>
    some ((if written then w.addJob t.id event else w).unlock e, .done)
  | .commit event t, .ok => some (w.commitBadge e event t, .done)
  | .commit event t, .fails _ written =>
    some (if written then w.commitBadge e event t else w.unlock e, .done)
  | _, .recipient _ => none

end Bumpa.Cashback
