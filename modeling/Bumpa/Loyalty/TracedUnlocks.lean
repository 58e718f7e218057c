import Bumpa.Loyalty.BadgeEvents

/-! # What the events of unlocks are traced to

An event that the transaction of a purchase writes to the outbox, for an achievement or for a badge,
has the correlation id of the purchase's event and its user, as that event has them. So whatever is
committed to the outbox can be traced to a committed purchase.
-/
namespace Bumpa.Loyalty
open Bumpa.Events Bumpa.Relational Bumpa.Transition
set_option autoImplicit false

def UnlockEvent.correlationId : UnlockEvent → ReadableId
  | .achievement event => event.correlationId
  | .badge event => event.correlationId

def UnlockEvent.user : UnlockEvent → UserSnapshot
  | .achievement event => event.payload.user
  | .badge event => event.payload.user

/-- The row is of the purchase's event. -/
def OutboxEvent.Follows (row : OutboxEvent) (event : PurchaseCompletedEvent) : Prop :=
  row.payload.correlationId = event.correlationId ∧ row.payload.user = event.payload.user

structure Thread.Traced (cfg : Config) (th : Thread) : Prop where
  own : ∀ event, th.event = some event → ∃ eventId, event = cfg.event eventId
  rows : ∀ row ∈ th.outbox, ∀ event, th.event = some event → row.Follows event

/-- What is in the outbox follows a committed event. -/
structure Traced (cfg : Config) (s : State) : Prop where
  threads : ∀ e, (s.threads e).Traced cfg
  committed : ∀ row ∈ s.world.db.outbox,
    ∃ eventId ∈ s.world.commits, row.Follows (cfg.event eventId)

section Advance
variable {cfg : Config} {w w' : World} {others : List Tx} {th th' : Thread} {o : Outcome}

theorem plain_traced (h : th.tx = none)
    (hown : ∀ event, th.event = some event → ∃ eventId, event = cfg.event eventId) :
    th.Traced cfg := by
  refine ⟨hown, fun row hrow => ?_⟩
  rw [(plain_unlocks h).2.1] at hrow
  cases hrow

/-- The event that is written next is built from the purchase's. -/
theorem announced_follows {u : Unlock} {row : OutboxEvent}
    (h : advance cfg w others th .ok = some (w', th')) (hbefore : th.unannounced = some u)
    (houtbox : th'.outbox = th.outbox ++ [row]) {event : PurchaseCompletedEvent}
    (hevent : th.event = some event) : row.Follows event := by
  unfold Thread.unannounced at hbefore
  split at hbefore
  · cases hevent
    cases h
    have hlast := List.append_cancel_left houtbox
    rw [List.cons.injEq] at hlast
    rw [← hlast.1]
    exact ⟨rfl, rfl⟩
  · cases hevent
    cases h
    have hlast := List.append_cancel_left houtbox
    rw [List.cons.injEq] at hlast
    rw [← hlast.1]
    exact ⟨rfl, rfl⟩
  · cases hbefore

theorem advance_traced (hth : th.Traced cfg) (h : advance cfg w others th o = some (w', th')) :
    th'.Traced cfg := by
  have hown : ∀ event, th'.event = some event → ∃ eventId, event = cfg.event eventId :=
    fun event hevent => hth.own event (advance_event h hevent)
  have hkept : ∀ row ∈ th.outbox, ∀ event, th'.event = some event → row.Follows event :=
    fun row hrow event hevent => hth.rows row hrow event (advance_event h hevent)
  cases advance_effect h with
  | commits event tx source world plain => exact plain_traced plain hown
  | ends db ids silent plain => exact plain_traced plain hown
  | goesOn db ids before after unlocks outbox => exact ⟨hown, outbox ▸ hkept⟩
  | saves u db ids before after unlocks outbox new free => exact ⟨hown, outbox ▸ hkept⟩
  | announces u row db ids succeeds before after unlocks outbox id kind =>
    subst succeeds
    refine ⟨hown, fun row' hrow' event hevent => ?_⟩
    rw [outbox] at hrow'
    rcases List.mem_append.mp hrow' with hold | hnew
    · exact hkept row' hold event hevent
    · rw [List.mem_singleton.mp hnew]
      exact announced_follows h before outbox (advance_event h hevent)

end Advance

theorem step_traced {cfg : Config} {s s' : State} {l : Label} (hs : Traced cfg s)
    (h : step cfg s l = some s') : Traced cfg s' := by
  obtain ⟨e, th', hth, ⟨o, rfl, -, hadv⟩ | ⟨hw, -, hth'⟩⟩ := step_cases h
  · refine ⟨fun e' => ?_, ?_⟩
    · rw [hth]
      split
      · exact advance_traced (hs.threads e) hadv
      · exact hs.threads e'
    · rcases advance_cases hadv with ⟨event, tx, hsource, -, hcommit, -⟩ | hquiet
      · have htx := hs.threads e
        rw [hsource] at htx
        obtain ⟨eventId, rfl⟩ := htx.own event rfl
        intro row hrow
        rw [hcommit] at hrow ⊢
        rcases List.mem_append.mp hrow with hold | hnew
        · obtain ⟨eventId', hmem, hfollows⟩ := hs.committed row hold
          exact ⟨eventId', List.mem_append_left _ hmem, hfollows⟩
        · exact ⟨eventId, List.mem_append_right _ (.head _), htx.rows row hnew _ rfl⟩
      · rw [hquiet.db, hquiet.commits]
        exact hs.committed
  · refine ⟨fun e' => ?_, hw ▸ hs.committed⟩
    rw [hth]
    split
    · rcases hth' with ⟨rfl, -⟩ | ⟨-, -, eventId, rfl⟩
      · exact plain_traced rfl fun _ hnone => by cases hnone
      · exact plain_traced rfl fun event hevent => ⟨eventId, (Option.some.inj hevent).symm⟩
    · exact hs.threads e'

theorem reaches_traced {cfg : Config} {tr : List (Move State Label)} {s : State}
    (h : Reaches cfg tr s) : Traced cfg s :=
  Run.invariant (Traced cfg) (fun _ _ _ hs hstep => step_traced hs hstep) h
    ⟨fun _ => plain_traced rfl fun _ hnone => (by cases hnone), List.forall_mem_nil _⟩

end Bumpa.Loyalty
