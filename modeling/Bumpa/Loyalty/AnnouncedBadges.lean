import Bumpa.Loyalty.BadgeEvents

/-! # Badges and their events

A user's unlock of a badge is committed together with an event that says the user, the badge's name
and its reward, and no badge event is committed without such an unlock.
-/
namespace Bumpa.Loyalty
open Bumpa.Events Bumpa.Relational Bumpa.Transition
set_option autoImplicit false

/-- The row's event is of the user's unlock of the badge. -/
def Says (cfg : Config) (row : OutboxEvent) (userId badgeId : String) : Prop :=
  ∃ event badge, row.payload = .badge event ∧ row.id = event.eventId ∧
    event.type = .badgeUnlocked ∧ event.payload.user.id = userId ∧ badge ∈ cfg.badges ∧ badge.id = badgeId ∧
    event.payload.badgeName = badge.name ∧
    event.payload.rewardAmountKobo = some badge.rewardAmountKobo

/-- Unlocks of badges and badge events stand for one another; `left` is an unlock that is saved and
whose event is not. -/
structure Paired (cfg : Config) (unlocks : List Unlock) (outbox : List OutboxEvent)
    (left : Option Unlock) : Prop where
  events : ∀ row ∈ outbox, ∀ event, row.payload = .badge event →
    ∃ userId badgeId, .badge userId badgeId ∈ unlocks ∧ Says cfg row userId badgeId
  rows : ∀ userId badgeId, .badge userId badgeId ∈ unlocks →
    (∃ row ∈ outbox, Says cfg row userId badgeId) ∨ left = some (.badge userId badgeId)
  saved : ∀ u, left = some u → u ∈ unlocks

/-- What an execution has written, and what it goes on with. -/
structure Thread.Pairs (cfg : Config) (th : Thread) : Prop where
  paired : Paired cfg th.unlocks th.outbox th.unannounced
  held : ∀ badge ∈ th.heldBadges, badge ∈ cfg.badges
  own : ∀ event, th.event = some event → event.payload.user.id = event.payload.userId

section Advance
variable {cfg : Config} {w w' : World} {others : List Tx} {th th' : Thread} {o : Outcome}

theorem plain_pairs (h : th.tx = none)
    (hown : ∀ event, th.event = some event → event.payload.user.id = event.payload.userId) :
    th.Pairs cfg := by
  obtain ⟨hunlocks, houtbox, hleft⟩ := plain_unlocks h
  refine ⟨⟨?_, ?_, ?_⟩, ?_, hown⟩
  · rw [houtbox]
    exact List.forall_mem_nil _
  · intro userId badgeId hmem
    rw [hunlocks] at hmem
    cases hmem
  · intro u hu
    rw [hleft] at hu
    cases hu
  · intro badge hmem
    cases th with
    | transaction event tx pc => cases h
    | _ => cases hmem

/-- The event of a badge says what the execution held. -/
theorem announced_says {userId badgeId : String} {row : OutboxEvent} (hs : th.Pairs cfg)
    (h : advance cfg w others th .ok = some (w', th'))
    (hbefore : th.unannounced = some (.badge userId badgeId))
    (houtbox : th'.outbox = th.outbox ++ [row]) : Says cfg row userId badgeId := by
  unfold Thread.unannounced at hbefore
  split at hbefore
  · cases hbefore
  · next event tx badge rest =>
    cases hbefore
    cases h
    have hrow := List.append_cancel_left houtbox
    rw [List.cons.injEq] at hrow
    rw [← hrow.1]
    exact ⟨_, badge, rfl, rfl, rfl, hs.own event rfl, hs.held badge (.head _), rfl, rfl, rfl⟩
  · cases hbefore

theorem advance_pairs (hs : th.Pairs cfg) (h : advance cfg w others th o = some (w', th')) :
    th'.Pairs cfg := by
  have hheld : ∀ badge ∈ th'.heldBadges, badge ∈ cfg.badges := by
    intro badge hmem
    rcases advance_heldBadges h hmem with hold | ⟨-, -, hnew⟩
    · exact hs.held badge hold
    · exact hnew
  have hown : ∀ event, th'.event = some event → event.payload.user.id = event.payload.userId :=
    fun event hevent => hs.own event (advance_event h hevent)
  cases advance_effect h with
  | commits event tx source world plain => exact plain_pairs plain hown
  | ends db ids silent plain => exact plain_pairs plain hown
  | goesOn db ids before after unlocks outbox =>
    refine ⟨?_, hheld, hown⟩
    rw [unlocks, outbox, after, ← before]
    exact hs.paired
  | saves u db ids before after unlocks outbox new free =>
    refine ⟨⟨fun row hrow event hpayload => ?_, fun userId badgeId hmem => ?_, fun u' hu' => ?_⟩,
      hheld, hown⟩
    · rw [outbox] at hrow
      obtain ⟨userId, badgeId, hmem, hsays⟩ := hs.paired.events row hrow event hpayload
      exact ⟨userId, badgeId, unlocks.mem_iff.mpr (List.mem_cons_of_mem _ hmem), hsays⟩
    · rw [outbox]
      rcases List.mem_cons.mp (unlocks.mem_iff.mp hmem) with heq | hold
      · exact Or.inr (by rw [after, heq])
      · have hannounced := hs.paired.rows userId badgeId hold
        rw [before] at hannounced
        exact Or.inl (hannounced.resolve_right (by simp))
    · rw [after, Option.some.injEq] at hu'
      exact unlocks.mem_iff.mpr (hu' ▸ List.mem_cons_self)
  | announces u row db ids succeeds before after unlocks outbox id kind =>
    subst succeeds
    refine ⟨⟨fun row' hrow' event hpayload => ?_, fun userId badgeId hmem => ?_, fun u' hu' => ?_⟩,
      hheld, hown⟩
    · rw [outbox] at hrow'
      rw [unlocks]
      rcases List.mem_append.mp hrow' with hold | hnew
      · exact hs.paired.events row' hold event hpayload
      · rw [List.mem_singleton.mp hnew] at hpayload ⊢
        rw [hpayload] at kind
        cases u with
        | achievement userId achievementId => cases kind
        | badge userId badgeId =>
          exact ⟨userId, badgeId, hs.paired.saved _ before, announced_says hs h before outbox⟩
    · rw [unlocks] at hmem
      rw [outbox]
      rcases hs.paired.rows userId badgeId hmem with ⟨row', hrow', hsays⟩ | hleft
      · exact Or.inl ⟨row', List.mem_append_left _ hrow', hsays⟩
      · exact Or.inl ⟨row, List.mem_append_right _ (.head _), announced_says hs h hleft outbox⟩
    · rw [after] at hu'
      cases hu'

end Advance

/-! ## Runs -/

/-- What is committed is paired, with nothing left. -/
structure BadgesPaired (cfg : Config) (s : State) : Prop where
  committed : Paired cfg s.world.db.unlocks s.world.db.outbox none
  threads : ∀ e, (s.threads e).Pairs cfg

theorem commit_paired {cfg : Config} {db : Database} {event : PurchaseCompletedEvent} {tx : Tx}
    (hdb : Paired cfg db.unlocks db.outbox none)
    (htx : (Thread.transaction event tx .commit).Pairs cfg) :
    Paired cfg (tx.view db).unlocks (tx.view db).outbox none := by
  have hperm := view_unlocks tx db
  refine ⟨fun row hrow event' hpayload => ?_, fun userId badgeId hmem => Or.inl ?_,
    fun u hu => by cases hu⟩
  · rcases List.mem_append.mp hrow with hold | hown
    · obtain ⟨userId, badgeId, hmem, hsays⟩ := hdb.events row hold event' hpayload
      exact ⟨userId, badgeId, hperm.mem_iff.mpr (List.mem_append_left _ hmem), hsays⟩
    · obtain ⟨userId, badgeId, hmem, hsays⟩ := htx.paired.events row hown event' hpayload
      exact ⟨userId, badgeId, hperm.mem_iff.mpr (List.mem_append_right _ hmem), hsays⟩
  · rcases List.mem_append.mp (hperm.mem_iff.mp hmem) with hold | hown
    · obtain ⟨row, hrow, hsays⟩ := (hdb.rows userId badgeId hold).resolve_right (by simp)
      exact ⟨row, List.mem_append_left _ hrow, hsays⟩
    · obtain ⟨row, hrow, hsays⟩ := (htx.paired.rows userId badgeId hown).resolve_right
        (by simp [Thread.unannounced])
      exact ⟨row, List.mem_append_right _ hrow, hsays⟩

theorem step_badgesPaired {cfg : Config} {s s' : State} {l : Label} (hcfg : cfg.OwnSnapshots)
    (hs : BadgesPaired cfg s) (h : step cfg s l = some s') : BadgesPaired cfg s' := by
  obtain ⟨e, th', hth, ⟨o, rfl, -, hadv⟩ | ⟨hw, -, hth'⟩⟩ := step_cases h
  · refine ⟨?_, fun e' => ?_⟩
    · cases advance_effect hadv with
      | commits event tx source world plain =>
        have hpairs := hs.threads e
        rw [source] at hpairs
        rw [world]
        exact commit_paired hs.committed hpairs
      | ends db ids silent plain => exact db ▸ hs.committed
      | goesOn db ids before after unlocks outbox => exact db ▸ hs.committed
      | saves u db ids before after unlocks outbox new free => exact db ▸ hs.committed
      | announces u row db ids succeeds before after unlocks outbox id kind => exact db ▸ hs.committed
    · rw [hth]
      split
      · exact advance_pairs (hs.threads e) hadv
      · exact hs.threads e'
  · refine ⟨hw ▸ hs.committed, fun e' => ?_⟩
    rw [hth]
    split
    · rcases hth' with ⟨rfl, -⟩ | ⟨-, -, eventId, rfl⟩
      · exact plain_pairs rfl fun _ hnone => by cases hnone
      · refine plain_pairs rfl fun event hevent => ?_
        cases hevent
        exact hcfg eventId
    · exact hs.threads e'

theorem initial_badgesPaired (cfg : Config) : BadgesPaired cfg initial where
  committed := ⟨List.forall_mem_nil _, (fun _ _ hmem => by cases hmem), fun _ hu => by cases hu⟩
  threads := fun _ => plain_pairs rfl fun _ hnone => by cases hnone

theorem reaches_badgesPaired {cfg : Config} {tr : List (Move State Label)} {s : State}
    (hcfg : cfg.OwnSnapshots) (h : Reaches cfg tr s) : BadgesPaired cfg s :=
  Run.invariant (BadgesPaired cfg) (fun _ _ _ hs hstep => step_badgesPaired hcfg hs hstep) h
    (initial_badgesPaired cfg)

end Bumpa.Loyalty
