import Bumpa.Loyalty.UnlockEvents

/-! # What a badge event says

An execution selects the active badges once, and goes through those that its user unlocks
(`Thread.heldBadges`). The event of an unlock is built from the badge as it was selected
(`badgeEvent`), whatever the table holds by then.
-/
namespace Bumpa.Loyalty
open Bumpa.Events Bumpa.Relational Bumpa.Transition
set_option autoImplicit false

/-- The badges the execution has selected and not gone through yet. -/
def Thread.heldBadges : Thread → List BadgeConfig
  | .transaction _ _ (.findUserBadges _ badges) => badges
  | .transaction _ _ (.saveBadge badge rest) => badge :: rest
  | .transaction _ _ (.saveBadgeEvent badge rest) => badge :: rest
  | _ => []

/-- The event of an unlock, with a drawn id. -/
def badgeEvent (event : PurchaseCompletedEvent) (badge : BadgeConfig) (id : ReadableId) :
    BadgeUnlockedEvent :=
  createDomainEvent .badgeUnlocked ⟨badge.name, some badge.rewardAmountKobo, badge.rewardCurrency,
    event.payload.user⟩ event.correlationId id

/-- The execution is about to select the badges. -/
def Thread.selectsBadges : Thread → Bool
  | .transaction _ _ (.findBadges _) => true
  | _ => false

theorem badgeNext_heldBadges (event : PurchaseCompletedEvent) (tx : Tx) (badges : List BadgeConfig) :
    (Thread.transaction event tx (badgeNext badges)).heldBadges = badges := by
  cases badges <;> rfl

theorem unlockNext_heldBadges (event : PurchaseCompletedEvent) (tx : Tx) (loop : UnlockLoop) :
    (Thread.transaction event tx (unlockNext loop)).heldBadges = [] := by
  unfold unlockNext
  split <;> rfl

theorem mem_activeBadges {cfg : Config} {badge : BadgeConfig} (h : badge ∈ cfg.activeBadges) :
    badge ∈ cfg.badges := by
  rw [Config.activeBadges, (List.perm_insertionSort _ _).mem_iff] at h
  exact (List.mem_filter.mp h).1

/-- Badges come from the SELECT only. -/
theorem advance_heldBadges {cfg : Config} {w w' : World} {others : List Tx} {th th' : Thread}
    {o : Outcome} (h : advance cfg w others th o = some (w', th')) {badge : BadgeConfig}
    (hbadge : badge ∈ th'.heldBadges) :
    badge ∈ th.heldBadges ∨ o = .ok ∧ th.selectsBadges = true ∧ badge ∈ cfg.badges := by
  cases th with
  | done => cases h
  | alreadyProcessed event =>
    cases o with
    | ok =>
      simp only [advance] at h
      split at h <;> cases h <;> cases hbadge
    | fails written =>
      cases h
      cases hbadge
  | publish ids => cases o <;> cases h <;> cases hbadge
  | transaction event tx pc =>
    cases o with
    | fails written =>
      obtain ⟨rfl, _⟩ := advance_fails h
      cases hbadge
    | ok =>
      have hnext := fun tx badges => badgeNext_heldBadges event tx badges
      have hloop := fun tx loop => unlockNext_heldBadges event tx loop
      cases pc with
      | findBadges achievementIds =>
        cases h
        exact Or.inr ⟨rfl, rfl, mem_activeBadges hbadge⟩
      | findUserBadges achievementIds badges =>
        cases h
        rw [hnext] at hbadge
        exact Or.inl (List.mem_filter.mp hbadge).1
      | saveBadgeEvent badge' rest =>
        cases h
        rw [hnext] at hbadge
        exact Or.inl (List.mem_cons_of_mem _ hbadge)
      | _ =>
        refine Or.inl ?_
        simp only [advance, statement] at h
        grind [Thread.heldBadges]

/-- An outbox row that is new to the transaction takes the id that is drawn, and a badge event is
built from the first of the badges that are left. -/
theorem advance_outbox {cfg : Config} {w w' : World} {others : List Tx} {th th' : Thread}
    {o : Outcome} (h : advance cfg w others th o = some (w', th')) {row : OutboxEvent}
    (hrow : row ∈ th'.outbox) :
    row ∈ th.outbox ∨ o = .ok ∧ row.id = w.nextId ∧ ∀ unlocked, row.payload = .badge unlocked →
      ∃ event tx badge rest, th = .transaction event tx (.saveBadgeEvent badge rest) ∧
        unlocked = badgeEvent event badge w.nextId := by
  cases advance_effect h with
  | commits event tx source world plain =>
    rw [(plain_unlocks plain).2.1] at hrow
    cases hrow
  | ends db ids silent plain =>
    rw [(plain_unlocks plain).2.1] at hrow
    cases hrow
  | goesOn db ids before after unlocks outbox => exact Or.inl (outbox ▸ hrow)
  | saves u db ids before after unlocks outbox new free => exact Or.inl (outbox ▸ hrow)
  | announces u new db ids succeeds before after unlocks outbox id kind =>
    subst succeeds
    rw [outbox, List.mem_append, List.mem_singleton] at hrow
    refine hrow.imp_right ?_
    rintro rfl
    refine ⟨rfl, id, fun unlocked hpayload => ?_⟩
    unfold Thread.unannounced at before
    split at before
    · next event tx loop config =>
      cases h
      have hlast := List.append_cancel_left outbox
      rw [List.cons.injEq] at hlast
      rw [← hlast.1] at hpayload
      cases hpayload
    · next event tx badge rest =>
      cases h
      have hlast := List.append_cancel_left outbox
      rw [List.cons.injEq] at hlast
      rw [← hlast.1] at hpayload
      exact ⟨event, tx, badge, rest, rfl, (UnlockEvent.badge.inj hpayload).symm⟩
    · cases before

/-- What is committed is what the transaction has written. -/
theorem advance_committed {cfg : Config} {w w' : World} {others : List Tx} {th th' : Thread}
    {o : Outcome} (h : advance cfg w others th o = some (w', th')) {row : OutboxEvent}
    (hrow : row ∈ w'.db.outbox) : row ∈ w.db.outbox ∨ row ∈ th.outbox := by
  cases advance_effect h with
  | commits event tx source world plain =>
    rw [world] at hrow
    rw [source]
    exact List.mem_append.mp hrow
  | ends db ids silent plain => exact Or.inl (db ▸ hrow)
  | goesOn db ids before after unlocks outbox => exact Or.inl (db ▸ hrow)
  | saves u db ids before after unlocks outbox new free => exact Or.inl (db ▸ hrow)
  | announces u new db ids succeeds before after unlocks outbox id kind => exact Or.inl (db ▸ hrow)

theorem advance_outbox_stays {cfg : Config} {w w' : World} {others : List Tx} {th th' : Thread}
    {o : Outcome} (h : advance cfg w others th o = some (w', th')) : w.db.outbox <+: w'.db.outbox := by
  cases advance_effect h with
  | commits event tx source world plain =>
    rw [world]
    exact List.prefix_append _ _
  | _ => simp_all

theorem advance_event {cfg : Config} {w w' : World} {others : List Tx} {th th' : Thread}
    {o : Outcome} (h : advance cfg w others th o = some (w', th')) {event : PurchaseCompletedEvent}
    (hevent : th'.event = some event) : th.event = some event := by
  rcases advance_cases h with ⟨_, _, _, _, _, _, hnone⟩ | hquiet
  · rw [hnone] at hevent
    cases hevent
  · rcases hquiet.event with hnone | hsame
    · rw [hnone] at hevent
      cases hevent
    · rw [← hsame, hevent]

theorem announcement_id {x : Move State Label} {a : ReadableId × Unlock}
    (h : announcement x = some a) : a.1 = x.source.world.nextId := by
  unfold announcement at h
  split at h
  · obtain ⟨_, _, rfl⟩ := Option.map_eq_some_iff.mp h
    rfl
  · cases h

end Bumpa.Loyalty
