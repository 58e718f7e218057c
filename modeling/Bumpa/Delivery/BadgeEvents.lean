import Bumpa.Delivery.PurchaseEvents
import Bumpa.Cashback.HandledEvents

/-! # From an unlocked badge to the cashback service

The operation is `handleBadgeUnlocked` next to everything else that the cashback service does, and an
event is done once it is marked as processed. The outbox is the one of the loyalty service, where
the events of achievements are rows as well; no queue is bound for those.
-/
namespace Bumpa.Delivery
open Bumpa.Events Bumpa.Transition
open Loyalty (UnlockEvent)
set_option autoImplicit false

/-- `BadgeUnlockedConsumer`. -/
def badgeUnlockedConsumer : Broker.BrokerSubscription :=
  ⟨"cashback.badge-unlocked", eventName .badgeUnlocked⟩

def unlockType : UnlockEvent → String
  | .achievement event => eventName event.type
  | .badge event => eventName event.type

/-! ## The operation -/

/-- The handler has found its event processed, or its COMMIT has gone through. -/
def resolves (w : Cashback.World) : Cashback.BadgePc → Cashback.Outcome → Bool
  | .check event, .ok => event.eventId ∈ w.db.processedEvents
  | .commit _ _, .ok => true
  | _, _ => false

/-- How the call ends in which a handler takes its next step; `none` if it goes on. -/
def badgeEnds (cfg : Cashback.Config) (s : Cashback.State) (e : ℕ) (o : Cashback.Outcome) :
    Option Broker.Outcome :=
  match s.threads e with
  | .badge pc =>
    match Cashback.handleBadgeUnlocked cfg s.world e pc o with
    | some (_, .done) => some (if resolves s.world pc o then .ok else .fails)
    | _ => none
  | _ => none

def handleBadgeUnlocked (cfg : Cashback.Config) :
    Handler UnlockEvent Cashback.State Cashback.Label where
  step := Cashback.step cfg
  initial := Cashback.initial
  start := fun event => match event with
    | .badge event => some (.badgeUnlocked event)
    | .achievement _ => none
  starts := fun l => match l with
    | .badgeUnlocked _ => true
    | _ => false
  next := fun s => s.nextThread
  settles := fun s l => match l with
    | .run e o => (badgeEnds cfg s e o).map fun outcome => (e, outcome)
    | _ => none

/-! ## A handler that commits has marked its event -/

/-- The event of a handler past its marker. -/
def marking : Cashback.Thread → Option BadgeUnlockedEvent
  | .badge (.enqueue event _) | .badge (.commit event _) => some event
  | _ => none

structure Backed (s : Cashback.State) : Prop where
  beyond : ∀ e, s.nextThread ≤ e → s.threads e = .done
  marker : ∀ e event, marking (s.threads e) = some event →
    s.world.db.locks (.marker event.eventId) = some e ∨
      event.eventId ∈ s.world.db.processedEvents

section Step
variable {cfg : Cashback.Config} {s s' : Cashback.State} {l : Cashback.Label}

theorem advance_processed {w w' : Cashback.World} {e : ℕ} {th th' : Cashback.Thread}
    {o : Cashback.Outcome} (h : Cashback.advance cfg w e th o = some (w', th')) :
    w.db.processedEvents ⊆ w'.db.processedEvents := by
  rcases Cashback.advance_processedEvents h with hsame | ⟨event, t, -, -, hmarks⟩
  · rw [hsame]
    exact List.Subset.refl _
  · rw [hmarks]
    exact List.subset_cons_self _ _

theorem step_processed (h : Cashback.step cfg s l = some s') :
    s.world.db.processedEvents ⊆ s'.world.db.processedEvents := by
  rcases Cashback.step_cases h with ⟨e, o, th', -, hadv, -, -⟩ | ⟨hw, -, -⟩
  · exact advance_processed hadv
  · rw [hw.processedEvents]
    exact List.Subset.refl _

/-- A handler gets past its marker with the lock on it, or finds it there. -/
theorem handle_marking {w w' : Cashback.World} {e : ℕ} {pc : Cashback.BadgePc}
    {o : Cashback.Outcome} {th' : Cashback.Thread}
    (h : Cashback.handleBadgeUnlocked cfg w e pc o = some (w', th')) {event : BadgeUnlockedEvent}
    (hevent : marking th' = some event) :
    w'.db.locks (.marker event.eventId) = some e ∨ event.eventId ∈ w'.db.processedEvents ∨
      (marking (.badge pc) = some event ∧ w'.db.locks = w.db.locks) := by
  have hlock : ∀ key, (w.lock e key).db.locks key = some e := fun key => by
    rw [Cashback.lock_locks, if_pos rfl]
  unfold Cashback.handleBadgeUnlocked at h
  grind [marking, Cashback.addJob_db]

theorem marking_delivered {th : Cashback.Thread} {event : BadgeUnlockedEvent}
    (h : marking th = some event) : th.delivered = some event := by
  unfold marking at h
  split at h <;> cases h <;> rfl

theorem advance_backed {w w' : Cashback.World} {e : ℕ} {th th' : Cashback.Thread}
    {o : Cashback.Outcome} (h : Cashback.advance cfg w e th o = some (w', th'))
    (hs : ∀ event, marking th = some event → w.db.locks (.marker event.eventId) = some e ∨
      event.eventId ∈ w.db.processedEvents)
    {event : BadgeUnlockedEvent} (hevent : marking th' = some event) :
    w'.db.locks (.marker event.eventId) = some e ∨ event.eventId ∈ w'.db.processedEvents := by
  have hdelivered := Cashback.advance_delivered h (marking_delivered hevent)
  cases th with
  | badge pc =>
    rcases handle_marking h hevent with hlocked | hprocessed | ⟨hold, hlocks⟩
    · exact Or.inl hlocked
    · exact Or.inr hprocessed
    · rw [hlocks]
      exact (hs event hold).imp_right fun hmem => advance_processed h hmem
  | _ => cases hdelivered

/-- A label that runs no thread leaves the locks of the threads that stay. -/
theorem step_locks (h : Cashback.step cfg s l = some s') (hl : ∀ e o, l ≠ .run e o) {e : ℕ}
    (he : s'.threads e ≠ .done) (key : Cashback.LockKey) :
    s.world.db.locks key = some e → s'.world.db.locks key = some e := by
  intro hlocked
  cases l with
  | run e' o => exact absurd rfl (hl e' o)
  | crash e' =>
    cases h
    have hne : e ≠ e' := fun heq => he (by simp only [heq, Function.update_self])
    exact (Cashback.unlock_locks_iff _ _ _ _).mpr ⟨hlocked, hne⟩
  | takeJob j =>
    obtain ⟨job, -, -, hw, -⟩ := Cashback.takeJob_spec h
    rw [hw]
    exact hlocked
  | stallJob j =>
    obtain ⟨job, e', -, -, rfl⟩ := Cashback.stallJob_spec h
    exact hlocked
  | webhook hook =>
    obtain ⟨hw | ⟨-, hw⟩, -⟩ := Cashback.receiveWebhook_spec h <;>
      · rw [hw]
        exact hlocked
  | _ =>
    cases h
    exact hlocked

theorem step_backed (hs : Backed s) (h : Cashback.step cfg s l = some s') : Backed s' := by
  have hprocessed := step_processed h
  rcases Cashback.step_cases h with ⟨e, o, th', rfl, hadv, hnext, hth⟩ | ⟨-, hl, hrest⟩
  · refine ⟨fun e' he' => ?_, fun e' event hevent => ?_⟩
    · rw [hth]
      split
      · next heq =>
        subst heq
        rw [hs.beyond e' (hnext ▸ he')] at hadv
        cases hadv
      · exact hs.beyond e' (hnext ▸ he')
    · rw [hth] at hevent
      split at hevent
      · next heq =>
        subst heq
        exact advance_backed hadv (hs.marker e') hevent
      · next hne =>
        rw [Cashback.advance_locks_others hadv hne]
        exact (hs.marker e' event hevent).imp_right fun hmem => hprocessed hmem
  · refine ⟨fun e' he' => ?_, fun e' event hevent => ?_⟩
    · rcases hrest with ⟨th, -, hnext, hth⟩ | ⟨hnext, hth⟩
      · rw [hth, if_neg (by omega)]
        exact hs.beyond e' (by omega)
      · rcases hth e' with heq | heq
        · rw [heq]
          exact hs.beyond e' (hnext ▸ he')
        · exact heq
    · have hlocks := step_locks h hl (e := e') (fun hdone => by rw [hdone] at hevent; cases hevent)
      rcases Cashback.step_threads h hl e' with hsame | hdone | hstarted
      · rw [hsame] at hevent
        exact (hs.marker e' event hevent).imp (hlocks _) fun hmem => hprocessed hmem
      · rw [hdone] at hevent
        cases hevent
      · generalize s'.threads e' = th at hstarted hevent
        cases hstarted <;> cases hevent

theorem initial_backed : Backed Cashback.initial where
  beyond := fun _ _ => rfl
  marker := fun _ _ hnone => by cases hnone

/-! ## What a call is for -/

structure HandlerOf (s : Cashback.State) (e : ℕ) (event : UnlockEvent) : Prop where
  called : e < s.nextThread
  own : ∀ event', (s.threads e).delivered = some event' → event = .badge event'

theorem step_handlerOf {e : ℕ} {event : UnlockEvent} (hs : HandlerOf s e event)
    (h : Cashback.step cfg s l = some s') : HandlerOf s' e event := by
  have hlt := hs.called
  rcases Cashback.step_cases h with ⟨e', o, th', rfl, hadv, hnext, hth⟩ | ⟨-, hl, hrest⟩
  · refine ⟨hnext ▸ hlt, fun event' hevent' => hs.own event' ?_⟩
    rcases Cashback.step_delivered h hevent' with hold | hlabel
    · exact hold
    · cases hlabel
  · rcases hrest with ⟨th, -, hnext, hth⟩ | ⟨hnext, hth⟩
    · refine ⟨by omega, fun event' hevent' => hs.own event' ?_⟩
      rwa [hth, if_neg (by omega)] at hevent'
    · refine ⟨hnext ▸ hlt, fun event' hevent' => ?_⟩
      rcases hth e with heq | heq
      · exact hs.own event' (heq ▸ hevent')
      · rw [heq] at hevent'
        cases hevent'

theorem commitBadge_marked {w : Cashback.World} {e : ℕ} {event : BadgeUnlockedEvent}
    {t : Cashback.CashbackTransaction} (h : w.db.locks (.marker event.eventId) = some e) :
    event.eventId ∈ (w.commitBadge e event t).db.processedEvents := by
  simp only [Cashback.World.commitBadge, if_pos h]
  exact List.mem_cons_self

/-- A call that resolves has its event marked as processed. -/
theorem resolves_processed {e : ℕ} {o : Cashback.Outcome} {event : BadgeUnlockedEvent}
    (hb : Backed s) (hs : HandlerOf s e (.badge event))
    (h : Cashback.step cfg s (.run e o) = some s') (hends : badgeEnds cfg s e o = some .ok) :
    event.eventId ∈ s'.world.db.processedEvents := by
  obtain ⟨th', hadv, -, -⟩ := Cashback.step_run h
  have hprocessed := advance_processed hadv
  have hmarker := hb.marker e
  have hown := hs.own
  simp only [badgeEnds] at hends
  split at hends
  · next pc hth =>
    rw [hth] at hadv hmarker hown
    split at hends
    · cases hends' : resolves s.world pc o with
      | false =>
        rw [hends'] at hends
        cases hends
      | true =>
        unfold resolves at hends'
        split at hends'
        · obtain rfl := UnlockEvent.badge.inj (hown _ rfl)
          exact hprocessed (of_decide_eq_true hends')
        · next event' t =>
          obtain rfl := UnlockEvent.badge.inj (hown _ rfl)
          rcases hmarker event rfl with hlocked | hold
          · obtain ⟨hw, -⟩ := Cashback.some_pair_inj hadv
            rw [hw]
            exact commitBadge_marked hlocked
          · exact hprocessed hold
        · cases hends'
    · cases hends
  · cases hends

theorem deliver_handlerOf {event : UnlockEvent} (hl : (handleBadgeUnlocked cfg).start event = some l)
    (h : Cashback.step cfg s l = some s') :
    HandlerOf s' s.nextThread event ∧ s.nextThread < s'.nextThread := by
  cases event with
  | achievement event => cases hl
  | badge event =>
    cases hl
    cases h
    refine ⟨⟨Nat.lt_succ_self _, fun event' hevent' => ?_⟩, Nat.lt_succ_self _⟩
    rw [Cashback.spawn_threads, if_pos rfl] at hevent'
    cases hevent'
    rfl

theorem badge_nextThread (h : Cashback.step cfg s l = some s') : s.nextThread ≤ s'.nextThread := by
  rcases Cashback.step_cases h with ⟨e, o, th', -, -, hnext, -⟩ | ⟨-, -, ⟨th, -, hnext, -⟩ | ⟨hnext, -⟩⟩
  · exact hnext.ge
  · exact hnext ▸ Nat.le_succ _
  · exact hnext.ge

theorem settles_processed {e : ℕ} {outcome : Broker.Outcome} (hb : Backed s)
    (h : Cashback.step cfg s l = some s')
    (hends : (handleBadgeUnlocked cfg).settles s l = some (e, outcome)) :
    e < s.nextThread ∧ (outcome = .ok → ∀ event, HandlerOf s e event →
      ∀ event', event = .badge event' → event'.eventId ∈ s'.world.db.processedEvents) := by
  cases l with
  | run e' o =>
    obtain ⟨outcome', hends', heq⟩ := Option.map_eq_some_iff.mp hends
    obtain ⟨rfl, rfl⟩ := Prod.mk.inj heq
    refine ⟨Nat.lt_of_not_le fun hle => ?_, fun hok event hs event' hevent' => ?_⟩
    · simp only [badgeEnds, hb.beyond e' hle] at hends'
      cases hends'
    · subst hok hevent'
      exact resolves_processed hb hs h hends'
  | _ => cases hends

end Step

/-- What a handler that resolves has marked stays marked. -/
def badgeUnlockedLawful (cfg : Cashback.Config) : (handleBadgeUnlocked cfg).Lawful where
  Inv := Backed
  For := HandlerOf
  Done := fun s event => ∀ event', event = .badge event' →
    event'.eventId ∈ s.world.db.processedEvents
  initial := initial_backed
  inv := step_backed
  called := fun _ hl h => deliver_handlerOf hl h
  stays := fun _ h hs => step_handlerOf hs h
  next := fun _ h => badge_nextThread h
  settles := settles_processed
  done := fun _ h hdone event hevent => step_processed h (hdone event hevent)

/-! ## From the outbox to the transactions -/

/-- `event` is what each id of an outbox row stands for. -/
def badgeRelay (options : Outbox.OutboxModuleOptions) (event : ReadableId → UnlockEvent) :
    RelayConfig UnlockEvent where
  options := options
  subscription := badgeUnlockedConsumer
  event := event
  type := unlockType

abbrev BadgeRelay := Relay UnlockEvent Cashback.State

abbrev BadgeLabel := RelayLabel UnlockEvent Cashback.Label

abbrev BadgeRuns (options : Outbox.OutboxModuleOptions) (event : ReadableId → UnlockEvent)
    (cfg : Cashback.Config) (tr : List (Move BadgeRelay BadgeLabel)) (r : BadgeRelay) : Prop :=
  RelayRuns (badgeRelay options event) (handleBadgeUnlocked cfg) tr r

/-- The steps of the cashback service. -/
def cashbackMoves (cfg : Cashback.Config) (tr : List (Move BadgeRelay BadgeLabel)) :
    List (Move Cashback.State Cashback.Label) :=
  tr.filterMap (handlerMove (handleBadgeUnlocked cfg))

section Badges
variable {options : Outbox.OutboxModuleOptions} {event : ReadableId → UnlockEvent}
  {cfg : Cashback.Config} {tr : List (Move BadgeRelay BadgeLabel)} {r : BadgeRelay}

/-- What the cashback service was called with is the event of a row. -/
theorem delivered_row (h : BadgeRuns options event cfg tr r) {badge : BadgeUnlockedEvent}
    (hdelivered : Cashback.Delivered (cashbackMoves cfg tr) badge) :
    ∃ id, (r.outbox.world.rows.row id).isSome ∧ event id = .badge badge := by
  have law := badgeUnlockedLawful cfg
  obtain ⟨x, hx, hlabel⟩ := hdelivered
  obtain ⟨id, hid, hstart⟩ := (reaches_handler h law).2 x hx (by rw [hlabel]; rfl)
  refine ⟨id, (reaches_linked h law).told.accepted id hid, ?_⟩
  rw [hlabel] at hstart
  have hevent : (badgeRelay options event).event id = event id := rfl
  rw [hevent] at hstart
  cases heq : event id with
  | badge badge' =>
    rw [heq] at hstart
    cases hstart
    rfl
  | achievement achievement =>
    rw [heq] at hstart
    cases hstart

/-- An event that is marked as processed has a transaction of its badge, if no two rows have events
with one id. -/
theorem processed_transaction (h : BadgeRuns options event cfg tr r)
    (hids : ∀ id badge, (r.outbox.world.rows.row id).isSome → event id = .badge badge →
      badge.eventId = id) {id : ReadableId} {badge : BadgeUnlockedEvent}
    (hid : event id = .badge badge) (hprocessed : id ∈ r.handler.world.db.processedEvents) :
    ∃ k, r.handler.world.badgeOf k = some (Cashback.badgeOf badge) := by
  have hrun := (reaches_handler h (badgeUnlockedLawful cfg)).1
  have hs := Cashback.reaches_handlesEvents hrun
  obtain ⟨badge', k, hid', hmapped, hrow⟩ := hs.processed id hprocessed
  obtain ⟨hdelivered, -, hagrees⟩ := hs.mapped badge' k hmapped
  obtain ⟨id', hrow', hevent⟩ := delivered_row h hdelivered
  obtain rfl : id' = id := (hids id' badge' hrow' hevent).symm.trans hid'
  rw [hid] at hevent
  obtain rfl := UnlockEvent.badge.inj hevent
  rw [← Cashback.badgeOf_isSome, Option.isSome_iff_exists] at hrow
  obtain ⟨named, hnamed⟩ := hrow
  exact ⟨k, hnamed.trans (congrArg some (hagrees named (Or.inl hnamed)))⟩

end Badges

end Bumpa.Delivery
