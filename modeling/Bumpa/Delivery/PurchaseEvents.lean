import Bumpa.Delivery.Delivered
import Bumpa.Loyalty.BadgeEvents

/-! # From a purchase to the loyalty service

The operation is `handlePurchaseCompleted`, and an event is done once it is committed. It resolves
where the event was processed already, or after the commit and the publishing of what it unlocked; in
all other cases it rejects, and the broker delivers the event again.
-/
namespace Bumpa.Delivery
open Bumpa.Events Bumpa.Transition
open Loyalty (Tx)
set_option autoImplicit false

/-- The values of the enumeration, which are routing keys. -/
def eventName : DomainEventName → String
  | .purchaseCompleted => "PurchaseCompleted.v1"
  | .achievementUnlocked => "AchievementUnlocked.v1"
  | .badgeUnlocked => "BadgeUnlocked.v1"
  | .cashbackProcessed => "CashbackProcessed.v1"

/-- `PurchaseCompletedConsumer`. -/
def purchaseCompletedConsumer : Broker.BrokerSubscription :=
  ⟨"loyalty.purchase-completed", eventName .purchaseCompleted⟩

/-! ## The operation -/

/-- How the call ends in which an execution takes its next step; `none` if it goes on. -/
def handleEnds (cfg : Loyalty.Config) (s : Loyalty.State) (e : ℕ) :
    Loyalty.Outcome → Option Broker.Outcome
  | .ok =>
    match s.threads e with
    | .alreadyProcessed event => if event.eventId ∈ s.world.db.processed then some .ok else none
    | .publish _ => some .ok
    | .transaction event tx pc =>
      match Loyalty.statement cfg s.world (s.others e) event tx pc with
      | some (_, .done) => some .fails
      | _ => none
    | .done => none
  | .fails _ => some .fails

def handlePurchaseCompleted (cfg : Loyalty.Config) :
    Handler PurchaseCompletedEvent Loyalty.State Loyalty.Label where
  step := Loyalty.step cfg
  initial := Loyalty.initial
  start := fun event => some (.deliver event.eventId)
  starts := fun l => match l with
    | .deliver _ => true
    | _ => false
  next := fun s => s.nextThread
  settles := fun s l => match l with
    | .run e o => (handleEnds cfg s e o).map fun outcome => (e, outcome)
    | _ => none

/-! ## Markers are of committed events -/

/-- A transaction marks its own event. -/
def Marks : Loyalty.Thread → Prop
  | .transaction event tx _ => ∀ eventId, tx.processed = some eventId → eventId = event.eventId
  | _ => True

theorem statement_marks {cfg : Loyalty.Config} {w w' : Loyalty.World} {others : List Tx}
    {event : PurchaseCompletedEvent} {tx : Tx} {pc : Loyalty.Pc} {th' : Loyalty.Thread}
    (h : Loyalty.statement cfg w others event tx pc = some (w', th'))
    (hm : Marks (.transaction event tx pc)) : Marks th' := by
  cases pc <;> simp only [Loyalty.statement] at h <;> grind [Marks]

theorem advance_marks {cfg : Loyalty.Config} {w w' : Loyalty.World} {others : List Tx}
    {th th' : Loyalty.Thread} {o : Loyalty.Outcome}
    (h : Loyalty.advance cfg w others th o = some (w', th')) (hm : Marks th) : Marks th' := by
  cases th with
  | done => cases h
  | alreadyProcessed event =>
    cases o with
    | ok =>
      simp only [Loyalty.advance] at h
      split at h <;> cases h
      · trivial
      · intro eventId hnone
        cases hnone
    | fails written =>
      cases h
      trivial
  | publish ids =>
    cases o <;> cases h <;> trivial
  | transaction event tx pc =>
    cases o with
    | ok => exact statement_marks h hm
    | fails written =>
      rw [(Loyalty.advance_fails h).1]
      trivial

/-- What is marked as processed was committed. -/
structure Marked (s : Loyalty.State) : Prop where
  beyond : ∀ e, s.nextThread ≤ e → s.threads e = .done
  marks : ∀ e, Marks (s.threads e)
  processed : ∀ eventId ∈ s.world.db.processed, eventId ∈ s.world.commits

section Step
variable {cfg : Loyalty.Config} {s s' : Loyalty.State} {l : Loyalty.Label}

theorem step_marked (hs : Marked s) (h : Loyalty.step cfg s l = some s') : Marked s' := by
  have hbeyond := Loyalty.step_beyond hs.beyond h
  obtain ⟨e, th', hthreads, ⟨o, rfl, -, hadv⟩ | ⟨hw, -, hth'⟩⟩ := Loyalty.step_cases h
  · refine ⟨hbeyond, fun e' => ?_, fun eventId hid => ?_⟩
    · rw [hthreads]
      split
      · exact advance_marks hadv (hs.marks e)
      · exact hs.marks e'
    · rcases Loyalty.advance_cases hadv with ⟨event, tx, hth, -, hw, -⟩ | hquiet
      · have hmarks := hs.marks e
        rw [hth] at hmarks
        rw [hw] at hid ⊢
        rcases List.mem_append.mp hid with hold | hnew
        · exact List.mem_append_left _ (hs.processed eventId hold)
        · rw [hmarks eventId (Option.mem_toList.mp hnew)]
          exact List.mem_append_right _ (.head _)
      · rw [hquiet.db] at hid
        rw [hquiet.commits]
        exact hs.processed eventId hid
  · refine ⟨hbeyond, fun e' => ?_, hw ▸ hs.processed⟩
    rw [hthreads]
    split
    · rcases hth' with ⟨rfl, -⟩ | ⟨-, -, eventId, rfl⟩ <;> trivial
    · exact hs.marks e'

theorem initial_marked : Marked Loyalty.initial where
  beyond := fun _ _ => rfl
  marks := fun _ => trivial
  processed := List.forall_mem_nil _

/-! ## What a call is for -/

/-- Execution `e` was called with the event, which is committed by the time that it publishes. -/
structure CalledFor (s : Loyalty.State) (e : ℕ) (event : PurchaseCompletedEvent) : Prop where
  called : e < s.nextThread
  own : ∀ event', (s.threads e).event = some event' → event'.eventId = event.eventId
  committed : ∀ ids, s.threads e = .publish ids → event.eventId ∈ s.world.commits

theorem advance_commits {w w' : Loyalty.World} {others : List Tx} {th th' : Loyalty.Thread}
    {o : Loyalty.Outcome} (h : Loyalty.advance cfg w others th o = some (w', th')) :
    w.commits <+: w'.commits := by
  rcases Loyalty.advance_cases h with ⟨event, tx, -, -, rfl, -⟩ | hquiet
  · exact List.prefix_append _ _
  · rw [hquiet.commits]

theorem step_commits (h : Loyalty.step cfg s l = some s') : s.world.commits <+: s'.world.commits := by
  obtain ⟨e, th', -, ⟨o, -, -, hadv⟩ | ⟨hw, -⟩⟩ := Loyalty.step_cases h
  · exact advance_commits hadv
  · rw [hw]

/-- An execution publishes once it has committed its event. -/
theorem advance_publishes {w w' : Loyalty.World} {others : List Tx} {th : Loyalty.Thread}
    {o : Loyalty.Outcome} {ids : List ReadableId}
    (h : Loyalty.advance cfg w others th o = some (w', .publish ids)) :
    ∃ event, th.event = some event ∧ event.eventId ∈ w'.commits := by
  rcases Loyalty.advance_cases h with ⟨event, tx, rfl, -, rfl, -⟩ | hquiet
  · exact ⟨event, rfl, List.mem_append_right _ (.head _)⟩
  · cases th with
    | done => cases h
    | alreadyProcessed event =>
      cases o with
      | ok =>
        simp only [Loyalty.advance] at h
        split at h <;> cases h
      | fails written => cases h
    | publish ids => cases o <;> cases h
    | transaction event tx pc =>
      cases o with
      | ok =>
        rcases Loyalty.statement_frame h with ⟨rfl, rfl, -⟩ | ⟨-, -, -, hdone | ⟨_, _, hth, -⟩⟩
        · exact ⟨event, rfl, List.mem_append_right _ (.head _)⟩
        · cases hdone
        · cases hth
      | fails written => cases (Loyalty.advance_fails h).1

theorem step_calledFor {e : ℕ} {event : PurchaseCompletedEvent} (hs : CalledFor s e event)
    (h : Loyalty.step cfg s l = some s') : CalledFor s' e event := by
  have hcommits := step_commits h
  obtain ⟨e', th', hthreads, ⟨o, rfl, hnext, hadv⟩ | ⟨hw, -, hth'⟩⟩ := Loyalty.step_cases h
  · refine ⟨hnext ▸ hs.called, fun event' hevent' => ?_, fun ids hids => ?_⟩
    · rw [hthreads] at hevent'
      split at hevent'
      · next heq =>
        subst heq
        exact hs.own event' (Loyalty.advance_event hadv hevent')
      · exact hs.own event' hevent'
    · rw [hthreads] at hids
      split at hids
      · next heq =>
        subst heq
        subst hids
        obtain ⟨event', hevent', hmem⟩ := advance_publishes hadv
        exact hs.own event' hevent' ▸ hmem
      · exact hcommits.subset (hs.committed ids hids)
  · rcases hth' with ⟨rfl, hnext⟩ | ⟨rfl, hnext, eventId, rfl⟩
    · refine ⟨hnext ▸ hs.called, fun event' hevent' => ?_, fun ids hids => ?_⟩
      · rw [hthreads] at hevent'
        split at hevent'
        · cases hevent'
        · exact hs.own event' hevent'
      · rw [hthreads] at hids
        split at hids
        · cases hids
        · exact hcommits.subset (hs.committed ids hids)
    · have hne : e ≠ s.nextThread := Nat.ne_of_lt hs.called
      have hlt := hs.called
      refine ⟨by omega, fun event' hevent' => ?_, fun ids hids => ?_⟩
      · rw [hthreads, if_neg hne] at hevent'
        exact hs.own event' hevent'
      · rw [hthreads, if_neg hne] at hids
        exact hcommits.subset (hs.committed ids hids)

/-- A call that resolves has its event committed. -/
theorem resolves_committed {e : ℕ} {o : Loyalty.Outcome} {event : PurchaseCompletedEvent}
    (hm : Marked s) (hs : CalledFor s e event) (h : handleEnds cfg s e o = some .ok) :
    event.eventId ∈ s.world.commits := by
  cases o with
  | fails written => cases h
  | ok =>
    simp only [handleEnds] at h
    split at h
    · next event' hth =>
      split at h
      · next hprocessed =>
        rw [← hs.own event' (by rw [hth]; rfl)]
        exact hm.processed _ hprocessed
      · cases h
    · next ids hth => exact hs.committed ids hth
    · split at h <;> cases h
    · cases h

theorem deliver_calledFor {event : PurchaseCompletedEvent}
    (h : Loyalty.step cfg s (.deliver event.eventId) = some s') :
    CalledFor s' s.nextThread event ∧ s.nextThread < s'.nextThread := by
  cases h
  refine ⟨⟨Nat.lt_succ_self _, fun event' hevent' => ?_, fun ids hids => ?_⟩, Nat.lt_succ_self _⟩
  · simp only [Function.update_self] at hevent'
    cases hevent'
    rfl
  · simp only [Function.update_self] at hids
    cases hids

theorem step_nextThread (h : Loyalty.step cfg s l = some s') : s.nextThread ≤ s'.nextThread := by
  obtain ⟨e, th', -, ⟨o, -, hnext, -⟩ | ⟨-, -, ⟨-, hnext⟩ | ⟨-, hnext, -⟩⟩⟩ := Loyalty.step_cases h
  · exact hnext.ge
  · exact hnext.ge
  · exact hnext ▸ Nat.le_succ _

theorem run_started {e : ℕ} {o : Loyalty.Outcome} (hm : Marked s)
    (h : Loyalty.step cfg s (.run e o) = some s') : e < s.nextThread := by
  obtain ⟨th', hadv, -⟩ := Loyalty.step_run h
  refine Nat.lt_of_not_le fun hle => ?_
  rw [hm.beyond e hle] at hadv
  cases hadv

theorem settles_committed {e : ℕ} {outcome : Broker.Outcome} (hm : Marked s)
    (h : Loyalty.step cfg s l = some s')
    (hends : (handlePurchaseCompleted cfg).settles s l = some (e, outcome)) :
    e < s.nextThread ∧ (outcome = .ok → ∀ event, CalledFor s e event →
      event.eventId ∈ s'.world.commits) := by
  cases l with
  | run e' o =>
    obtain ⟨outcome', hends', heq⟩ := Option.map_eq_some_iff.mp hends
    obtain ⟨rfl, rfl⟩ := Prod.mk.inj heq
    refine ⟨run_started hm h, fun hok event hs => ?_⟩
    subst hok
    exact (step_commits h).subset (resolves_committed hm hs hends')
  | _ => cases hends

end Step

/-- What an execution that resolves has committed stays committed. -/
def purchaseCompletedLawful (cfg : Loyalty.Config) : (handlePurchaseCompleted cfg).Lawful where
  Inv := Marked
  For := CalledFor
  Done := fun s event => event.eventId ∈ s.world.commits
  initial := initial_marked
  inv := step_marked
  called := by
    rintro s l s' event - ⟨⟩ h
    exact deliver_calledFor h
  stays := fun _ h hs => step_calledFor hs h
  next := fun _ h => step_nextThread h
  settles := settles_committed
  done := fun _ h hdone => (step_commits h).subset hdone

/-! ## What is committed was delivered -/

def WasDelivered (tr : List (Move Loyalty.State Loyalty.Label)) (eventId : ReadableId) : Prop :=
  ∃ x ∈ tr, x.label = .deliver eventId

theorem WasDelivered.snoc {tr : List (Move Loyalty.State Loyalty.Label)} {eventId : ReadableId}
    (h : WasDelivered tr eventId) (x : Move Loyalty.State Loyalty.Label) :
    WasDelivered (tr ++ [x]) eventId := by
  obtain ⟨y, hy, hlabel⟩ := h
  exact ⟨y, List.mem_append_left _ hy, hlabel⟩

theorem committed_delivered {cfg : Loyalty.Config} {tr : List (Move Loyalty.State Loyalty.Label)}
    {s : Loyalty.State} (h : Loyalty.Reaches cfg tr s) :
    (∀ eventId ∈ s.world.commits, WasDelivered tr eventId) ∧
      ∀ e event, (s.threads e).event = some event → WasDelivered tr event.eventId := by
  refine Run.history (fun tr s => (∀ eventId ∈ s.world.commits, WasDelivered tr eventId) ∧
    ∀ e event, (s.threads e).event = some event → WasDelivered tr event.eventId)
    ⟨List.forall_mem_nil _, fun _ _ hnone => by cases hnone⟩ ?_ h
  rintro tr s l s' - ⟨hcommits, hthreads⟩ hstep
  have hcommits' := fun eventId hid => (hcommits eventId hid).snoc ⟨s, l, s'⟩
  have hthreads' := fun e event hevent => (hthreads e event hevent).snoc ⟨s, l, s'⟩
  cases l with
  | deliver eventId =>
    cases hstep
    refine ⟨hcommits', fun e event hevent => ?_⟩
    simp only [Function.update_apply] at hevent
    split at hevent
    · cases hevent
      exact ⟨_, List.mem_append_right _ (.head _), rfl⟩
    · exact hthreads' e event hevent
  | crash e =>
    cases hstep
    refine ⟨hcommits', fun e' event hevent => ?_⟩
    simp only [Function.update_apply] at hevent
    split at hevent
    · cases hevent
    · exact hthreads' e' event hevent
  | run e o =>
    obtain ⟨th', hadv, -, hth⟩ := Loyalty.step_run hstep
    refine ⟨fun eventId hid => ?_, fun e' event hevent => ?_⟩
    · rcases Loyalty.advance_cases hadv with ⟨event, tx, hcommit, -, hw, -⟩ | hquiet
      · rw [hw] at hid
        rcases List.mem_append.mp hid with hold | hnew
        · exact hcommits' eventId hold
        · rw [List.mem_singleton.mp hnew]
          exact hthreads' e event (by rw [hcommit]; rfl)
      · rw [hquiet.commits] at hid
        exact hcommits' eventId hid
    · rw [hth] at hevent
      split at hevent
      · exact hthreads' e event (Loyalty.advance_event hadv hevent)
      · exact hthreads' e' event hevent

/-! ## From the outbox to the stats -/

/-- `cfg.event` is what each id stands for. -/
def purchaseRelay (options : Outbox.OutboxModuleOptions) (cfg : Loyalty.Config) :
    RelayConfig PurchaseCompletedEvent where
  options := options
  subscription := purchaseCompletedConsumer
  event := cfg.event
  type := fun event => eventName event.type

abbrev PurchaseRelay := Relay PurchaseCompletedEvent Loyalty.State

abbrev PurchaseLabel := RelayLabel PurchaseCompletedEvent Loyalty.Label

abbrev PurchaseRuns (options : Outbox.OutboxModuleOptions) (cfg : Loyalty.Config)
    (tr : List (Move PurchaseRelay PurchaseLabel)) (r : PurchaseRelay) : Prop :=
  RelayRuns (purchaseRelay options cfg) (handlePurchaseCompleted cfg) tr r

/-- The steps of the loyalty service. -/
def loyaltyMoves (cfg : Loyalty.Config) (tr : List (Move PurchaseRelay PurchaseLabel)) :
    List (Move Loyalty.State Loyalty.Label) :=
  tr.filterMap (handlerMove (handlePurchaseCompleted cfg))

/-- The queue is bound for every purchase. -/
theorem purchase_routes (options : Outbox.OutboxModuleOptions) (cfg : Loyalty.Config)
    (id : ReadableId) : (purchaseRelay options cfg).routes (cfg.event id) = true :=
  Amqp.topicMatches_self _

section Purchases
variable {options : Outbox.OutboxModuleOptions} {cfg : Loyalty.Config}
  {tr : List (Move PurchaseRelay PurchaseLabel)} {r : PurchaseRelay}

/-- What the loyalty service has committed is in the outbox of the purchase service. -/
theorem committed_row (h : PurchaseRuns options cfg tr r) {id : ReadableId}
    (hid : id ∈ r.handler.world.commits) : (r.outbox.world.rows.row id).isSome = true := by
  have law := purchaseCompletedLawful cfg
  obtain ⟨hrun, hcalled⟩ := reaches_handler h law
  obtain ⟨x, hx, hlabel⟩ := (committed_delivered hrun).1 id hid
  obtain ⟨id', hid', hstart⟩ := hcalled x hx (by rw [hlabel]; rfl)
  rw [hlabel] at hstart
  cases hstart
  exact (reaches_linked h law).told.accepted id' hid'

end Purchases

end Bumpa.Delivery
