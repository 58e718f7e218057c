import Bumpa.Cashback.FixedIdentity

/-! # Which transaction an event is handled with

A handler that is past its read works on one transaction: the row of the event's badge, or a new one
(`MappedTo`). Over a whole run a transaction id is used for one badge only, also where a handler
that drew the id is rolled back: the id is not drawn again (`State.Agrees`).

`HandlesEvents` adds what comes of it: a row has the badge and the reward of an event that was
delivered, and an event is marked as processed together with the row it is mapped to.
-/
namespace Bumpa.Cashback
open Bumpa.Events Bumpa.Relational Bumpa.Transition
set_option autoImplicit false

def Delivered (tr : List (Move State Label)) (event : BadgeUnlockedEvent) : Prop :=
  ∃ x ∈ tr, x.label = .badgeUnlocked event

/-- A handler has found or drawn the transaction for the event. -/
def MappedTo (tr : List (Move State Label)) (event : BadgeUnlockedEvent) (k : ReadableId) : Prop :=
  ∃ x ∈ tr, ∃ e t, (x.target.threads e).handled = some (event, t) ∧ t.id = k

def BadgePc.event : BadgePc → BadgeUnlockedEvent
  | .check event | .find event | .save event _ _ | .findMarker event _ | .insertMarker event _
  | .enqueue event _ | .commit event _ => event

def Thread.delivered : Thread → Option BadgeUnlockedEvent
  | .badge pc => some pc.event
  | _ => none

/-! ## One step -/

theorem handled_delivered {th : Thread} {event : BadgeUnlockedEvent} {t : CashbackTransaction}
    (h : th.handled = some (event, t)) : th.delivered = some event := by
  unfold Thread.handled at h
  split at h
  all_goals
    simp only [Option.some.injEq, Prod.mk.injEq, reduceCtorEq] at h
    try obtain ⟨rfl, rfl⟩ := h
    try rfl

theorem handleBadgeUnlocked_event {cfg : Config} {w w' : World} {e : ℕ} {pc pc' : BadgePc}
    {o : Outcome} (h : handleBadgeUnlocked cfg w e pc o = some (w', .badge pc')) :
    pc'.event = pc.event := by
  unfold handleBadgeUnlocked at h
  grind [BadgePc.event]

theorem advance_delivered {cfg : Config} {w w' : World} {e : ℕ} {th th' : Thread} {o : Outcome}
    (h : advance cfg w e th o = some (w', th')) {event : BadgeUnlockedEvent}
    (hdelivered : th'.delivered = some event) : th.delivered = some event := by
  cases th with
  | done => cases h
  | badge pc =>
    rcases (handleBadgeUnlocked_frame h).2.2 with rfl | ⟨pc', rfl⟩
    · cases hdelivered
    · rw [← hdelivered]
      exact congrArg some (handleBadgeUnlocked_event h).symm
  | payment r pc => rcases processPayment_thread h with rfl | ⟨pc', rfl⟩ <;> cases hdelivered
  | retry caller k event' pc =>
    rcases (retryPayment_frame h).2.2 with rfl | ⟨pc', rfl⟩ | ⟨pc', rfl⟩ <;> cases hdelivered
  | manual pc =>
    rcases (retryFailedTransaction_frame h).2 with rfl | ⟨pc', rfl⟩ | ⟨k, event', rfl⟩ <;>
      cases hdelivered
  | scan pc =>
    rcases retryEligibleFailedTransactions_thread h with rfl | ⟨pc', rfl⟩ | ⟨_, _, _, rfl⟩ <;>
      cases hdelivered
  | webhook hook pc => rcases (handleWebhook_frame h).2.2 with rfl | ⟨pc', rfl⟩ <;> cases hdelivered

/-- Only the broker starts a handler. -/
theorem step_delivered {cfg : Config} {s s' : State} {l : Label} (h : step cfg s l = some s')
    {e : ℕ} {event : BadgeUnlockedEvent} (hdelivered : (s'.threads e).delivered = some event) :
    (s.threads e).delivered = some event ∨ l = .badgeUnlocked event := by
  rcases step_cases h with ⟨e', o, th', rfl, hadv, _, hth⟩ | ⟨_, hl, _⟩
  · refine Or.inl ?_
    rw [hth] at hdelivered
    split at hdelivered
    · next heq =>
      rw [heq]
      exact advance_delivered hadv hdelivered
    · exact hdelivered
  · rcases step_threads h hl e with hsame | hdone | hstarted
    · exact Or.inl (by rwa [← hsame])
    · rw [hdone] at hdelivered
      cases hdelivered
    · generalize s'.threads e = th at hstarted hdelivered
      cases hstarted with
      | badge event' => exact Or.inr (congrArg _ (Option.some.inj hdelivered))
      | _ => cases hdelivered

theorem commitBadge_processedEvents (w : World) (e : ℕ) (event : BadgeUnlockedEvent)
    (t : CashbackTransaction) :
    (w.commitBadge e event t).db.processedEvents = w.db.processedEvents ∨
      (w.commitBadge e event t).db.processedEvents = event.eventId :: w.db.processedEvents := by
  unfold World.commitBadge
  split <;> split
  · exact Or.inr rfl
  · exact Or.inl rfl
  · exact Or.inr rfl
  · exact Or.inl rfl

/-- An event is marked when its handler commits. -/
theorem advance_processedEvents {cfg : Config} {w w' : World} {e : ℕ} {th th' : Thread}
    {o : Outcome} (h : advance cfg w e th o = some (w', th')) :
    w'.db.processedEvents = w.db.processedEvents ∨
      ∃ event t, th = .badge (.commit event t) ∧ o.takesEffect = true ∧
        w'.db.processedEvents = event.eventId :: w.db.processedEvents := by
  by_cases hth : ∃ pc, th = .badge pc
  · obtain ⟨pc, rfl⟩ := hth
    have hunlock : (w.unlock e).db.processedEvents = w.db.processedEvents := rfl
    have hlock : ∀ key, (w.lock e key).db.processedEvents = w.db.processedEvents := fun _ => rfl
    have hadd : ∀ k event, ((w.addJob k event).unlock e).db.processedEvents =
        w.db.processedEvents := fun _ _ => rfl
    have hcommit := commitBadge_processedEvents w e
    simp only [advance] at h
    unfold handleBadgeUnlocked at h
    grind [drawIds_db, addJob_db, Outcome.takesEffect]
  · exact Or.inl (congrArg Prod.snd (advance_marks h fun pc hpc => hth ⟨pc, hpc⟩))

theorem Ambient.processedEvents {w w' : World} (h : Ambient w w') :
    w'.db.processedEvents = w.db.processedEvents := by
  cases h <;> rfl

/-! ## Every run -/

/-- What is mapped, created and marked in a reachable state. -/
structure HandlesEvents (cfg : Config) (tr : List (Move State Label)) (s : State) : Prop where
  delivered : ∀ e event, (s.threads e).delivered = some event → Delivered tr event
  handled : ∀ e event t, (s.threads e).handled = some (event, t) → MappedTo tr event t.id
  mapped : ∀ event k, MappedTo tr event k → Delivered tr event ∧ s.Agrees k event
  alike : ∀ event event' k, MappedTo tr event k → MappedTo tr event' k →
    badgeOf event = badgeOf event'
  rows : ∀ k row, s.world.row k = some row →
    ∃ event, Delivered tr event ∧ row.badge = badgeOf event ∧ row.amountKobo = rewardOf cfg event
  processed : ∀ eventId ∈ s.world.db.processedEvents,
    ∃ event k, event.eventId = eventId ∧ MappedTo tr event k ∧ (s.world.row k).isSome

theorem delivered_snoc {tr : List (Move State Label)} {x : Move State Label}
    {event : BadgeUnlockedEvent} :
    Delivered (tr ++ [x]) event ↔ Delivered tr event ∨ x.label = .badgeUnlocked event := by
  simp only [Delivered, List.mem_append, List.mem_singleton, or_and_right, exists_or,
    exists_eq_left]

theorem mappedTo_snoc {tr : List (Move State Label)} {x : Move State Label}
    {event : BadgeUnlockedEvent} {k : ReadableId} :
    MappedTo (tr ++ [x]) event k ↔ MappedTo tr event k ∨
      ∃ e t, (x.target.threads e).handled = some (event, t) ∧ t.id = k := by
  simp only [MappedTo, List.mem_append, List.mem_singleton, or_and_right, exists_or,
    exists_eq_left]

/-- When a handler marks its event, the row of its transaction is there. -/
theorem commit_row {cfg : Config} {s : State} {w' : World} {e : ℕ} {o : Outcome} {th' : Thread}
    {event : BadgeUnlockedEvent} {t : CashbackTransaction} (hs : BadgeRows s)
    (hth : s.threads e = .badge (.commit event t)) (heffect : o.takesEffect = true)
    (hadv : advance cfg s.world e (s.threads e) o = some (w', th')) :
    (w'.row t.id).isSome := by
  have hback := hs.backed e t (by rw [hth]; rfl)
  rw [hth] at hadv hback
  rw [commit_rows hadv, heffect, Bool.true_and]
  split
  · rfl
  · next hnot =>
    rcases hback with hsome | hlocks
    · exact hsome
    · have hheld : s.world.holdsRow e t = true := by
        rw [World.holdsRow, Bool.or_eq_true]
        exact Or.inl (decide_eq_true hlocks)
      exact absurd ⟨hheld, rfl⟩ hnot

section Step
variable {cfg : Config} {tr : List (Move State Label)} {s s' : State} {l : Label}
  (hreach : Reaches cfg tr s) (hs : HandlesEvents cfg tr s) (hstep : step cfg s l = some s')
include hreach hs hstep

/-- A row has the badge and the reward of the event it was created for. -/
theorem rows_step {k : ReadableId} {row : CashbackTransaction} (hrow : s'.world.row k = some row) :
    ∃ event, Delivered (tr ++ [⟨s, l, s'⟩]) event ∧ row.badge = badgeOf event ∧
      row.amountKobo = rewardOf cfg event := by
  have hfixes := fixesIdentity hreach hstep
  cases hbefore : s.world.row k with
  | some row₀ =>
    obtain ⟨row', hrow', hsame⟩ := hfixes.kept k row₀ hbefore
    rw [hrow, Option.some.injEq] at hrow'
    subst hrow'
    obtain ⟨event, hdelivered, hbadge, hamount⟩ := hs.rows k row₀ hbefore
    obtain ⟨_, hbadge', hamount'⟩ := identity_iff.mp hsame
    exact ⟨event, delivered_snoc.mpr (Or.inl hdelivered), hbadge'.trans hbadge,
      hamount'.trans hamount⟩
  | none =>
    obtain ⟨e, o, event, _, hth, hidentity⟩ := hfixes.created k row hbefore hrow
    obtain ⟨_, hbadge, hamount⟩ := identity_iff.mp hidentity
    have hdelivered := hs.delivered e event (by rw [hth]; rfl)
    exact ⟨event, delivered_snoc.mpr (Or.inl hdelivered), hbadge, hamount⟩

theorem processed_step {eventId : ReadableId} (hmem : eventId ∈ s'.world.db.processedEvents) :
    ∃ event k, event.eventId = eventId ∧ MappedTo (tr ++ [⟨s, l, s'⟩]) event k ∧
      (s'.world.row k).isSome := by
  have hkept : eventId ∈ s.world.db.processedEvents → ∃ event k, event.eventId = eventId ∧
      MappedTo (tr ++ [⟨s, l, s'⟩]) event k ∧ (s'.world.row k).isSome := by
    intro hbefore
    obtain ⟨event, k, hid, hmapped, hsome⟩ := hs.processed eventId hbefore
    obtain ⟨row, hrow⟩ := Option.isSome_iff_exists.mp hsome
    obtain ⟨row', hrow', _⟩ := (fixesIdentity hreach hstep).kept k row hrow
    exact ⟨event, k, hid, mappedTo_snoc.mpr (Or.inl hmapped), by rw [hrow']; rfl⟩
  rcases step_cases hstep with ⟨e, o, th', rfl, hadv, _, _⟩ | ⟨hw, _, _⟩
  · rcases advance_processedEvents hadv with hsame | ⟨event, t, hth, heffect, hmarks⟩
    · exact hkept (hsame ▸ hmem)
    · rw [hmarks, List.mem_cons] at hmem
      rcases hmem with rfl | hbefore
      · have hmapped := hs.handled e event t (by rw [hth]; rfl)
        exact ⟨event, t.id, rfl, mappedTo_snoc.mpr (Or.inl hmapped),
          commit_row (reaches_badgeRows hreach) hth heffect hadv⟩
      · exact hkept hbefore
  · exact hkept (hw.processedEvents ▸ hmem)

theorem handlesEvents_step : HandlesEvents cfg (tr ++ [⟨s, l, s'⟩]) s' := by
  have hreach' : Reaches cfg (tr ++ [⟨s, l, s'⟩]) s' := hreach.snoc hstep
  have hdelivered : ∀ e event, (s'.threads e).delivered = some event →
      Delivered (tr ++ [⟨s, l, s'⟩]) event := fun e event ht =>
    delivered_snoc.mpr ((step_delivered hstep ht).imp_left (hs.delivered e event))
  have hnamed : ∀ e event t, (s'.threads e).handled = some (event, t) →
      s'.Names t.id (badgeOf event) := fun e event t ht =>
    Or.inr ⟨e, t, handled_loaded ht, rfl, reaches_handled hreach' ht⟩
  have hmapped : ∀ event k, MappedTo (tr ++ [⟨s, l, s'⟩]) event k →
      Delivered (tr ++ [⟨s, l, s'⟩]) event ∧ s'.Agrees k event := by
    intro event k hm
    rcases mappedTo_snoc.mp hm with hbefore | ⟨e, t, ht, rfl⟩
    · obtain ⟨hdel, hagrees⟩ := hs.mapped event k hbefore
      exact ⟨delivered_snoc.mpr (Or.inl hdel), step_agrees hreach hstep hagrees⟩
    · exact ⟨hdelivered e event (handled_delivered ht),
        (reaches_badgeRows hreach').agrees (hnamed e event t ht)⟩
  refine ⟨hdelivered, fun e event t ht => mappedTo_snoc.mpr (Or.inr ⟨e, t, ht, rfl⟩), hmapped,
    fun event event' k hm hm' => ?_, fun k row hrow => rows_step hreach hs hstep hrow,
    fun eventId hmem => processed_step hreach hs hstep hmem⟩
  -- the later of the two is about what the id is used for by then
  rcases mappedTo_snoc.mp hm with hbefore | ⟨e, t, ht, rfl⟩
  · rcases mappedTo_snoc.mp hm' with hbefore' | ⟨e, t, ht, rfl⟩
    · exact hs.alike event event' k hbefore hbefore'
    · exact ((hmapped event t.id hm).2.2 _ (hnamed e event' t ht)).symm
  · exact (hmapped event' t.id hm').2.2 _ (hnamed e event t ht)

end Step

theorem reaches_handlesEvents {cfg : Config} {tr : List (Move State Label)} {s : State}
    (h : Reaches cfg tr s) : HandlesEvents cfg tr s := by
  have hnone : ∀ event k, ¬ MappedTo [] event k := fun _ _ ⟨_, hx, _⟩ => List.not_mem_nil hx
  exact Run.history (HandlesEvents cfg) ⟨(fun _ _ ht => by cases ht), (fun _ _ _ ht => by cases ht),
    (fun event k hm => absurd hm (hnone event k)), (fun event _ k hm => absurd hm (hnone event k)),
    (fun _ _ hrow => by cases hrow), (List.forall_mem_nil _)⟩
    (fun _ _ _ _ hreach hs hstep => handlesEvents_step hreach hs hstep) h

end Bumpa.Cashback
