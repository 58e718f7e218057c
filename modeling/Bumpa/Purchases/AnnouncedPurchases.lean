import Bumpa.Purchases.ReturnedPurchase

/-! # The outbox mirrors the purchases

Row by row, in the order of the commits: the event of a purchase has its id, its user and its
amount (`reaches_mirrored`). The rest of it is of the call that creates the purchase too: the event
of a committed row is built from a call that was made (`reaches_built`).
-/
namespace Bumpa.Purchases
open Bumpa.Events Bumpa.Relational Bumpa.Transition
set_option autoImplicit false

def Purchase.announcement (row : Purchase) : ReadableId × String × ℕ :=
  (row.id, row.userId, row.amountKobo.val.toNat)

def OutboxEvent.announcement (event : OutboxEvent) : ReadableId × String × ℕ :=
  (event.payload.payload.purchaseId, event.payload.payload.userId, event.payload.payload.amountKobo)

/-- A step commits a purchase and its event, or none. -/
theorem step_adds {tr : List (Move State Label)} {s s' : State} {l : Label} (hreach : Reaches tr s)
    (h : step s l = some s') : s'.world.db = s.world.db ∨
      ∃ row event, s'.world.db.purchases = s.world.db.purchases ++ [row] ∧
        s'.world.db.outbox = s.world.db.outbox ++ [event] ∧
        event.announcement = row.announcement := by
  have hs := reaches_consistent hreach
  obtain ⟨e, th', -, -, -, ⟨new, tx, hth, hw, -⟩ | hquiet⟩ := step_cases hs h
  · have hsound := hs.sound e
    have hcreates := (reaches_callHistory hreach).threads e
    rw [hth] at hsound hcreates
    obtain ⟨⟨row, hrow, -⟩, event, hevent, -⟩ := hsound
    obtain ⟨hid, huser, hamount, -⟩ := hcreates.2.1 row hrow
    obtain ⟨hid', huser', hamount'⟩ := hcreates.2.2 event hevent
    refine Or.inr ⟨row, event, ?_, ?_, ?_⟩
    · rw [hw, World.commit, Tx.view, hrow]
      rfl
    · rw [hw, World.commit, Tx.view, hevent]
      rfl
    · rw [OutboxEvent.announcement, Purchase.announcement, hid', huser', hamount', hid, huser, hamount]
  · exact Or.inl hquiet.db

theorem reaches_mirrored {tr : List (Move State Label)} {s : State} (h : Reaches tr s) :
    s.world.db.outbox.map OutboxEvent.announcement =
      s.world.db.purchases.map Purchase.announcement := by
  refine Run.history (fun _ s => s.world.db.outbox.map OutboxEvent.announcement =
    s.world.db.purchases.map Purchase.announcement) rfl ?_ h
  intro tr s l s' hreach hs hstep
  rcases step_adds hreach hstep with hdb | ⟨row, event, hpurchases, houtbox, hsame⟩
  · rw [hdb]
    exact hs
  · rw [hpurchases, houtbox, List.map_append, List.map_append, hs, List.map_singleton,
      List.map_singleton, hsame]

/-! ## Whose call -/

/-- The event of the purchase that a call creates. -/
def Creation.event (new : Creation) : PurchaseCompletedEvent :=
  buildPurchaseCompletedEvent new.call.dto (buildUserSnapshot new.call.dto) new.purchaseId
    new.call.correlationId new.eventId

def Thread.Builds : Thread → Prop
  | .transaction new tx _ => ∀ event, tx.outbox = some event → event.payload = new.event
  | _ => True

theorem begin_builds (w : World) (call : Call) : (w.begin call).2.Builds := by
  intro event hnone
  cases hnone

theorem createPurchase_builds (w : World) (call : Call) : (w.createPurchase call).2.Builds := by
  unfold World.createPurchase
  split
  · split
    · exact begin_builds w call
    · trivial
  · exact begin_builds w call

theorem caught_builds (call : Call) (error : QueryFailedError) : (call.caught error).Builds := by
  rcases caught_eq call error with heq | ⟨key, -, -, -, heq⟩ <;> rw [heq] <;> trivial

theorem advance_builds {w w' : World} {others : List Tx} {th th' : Thread} {o : Outcome}
    (h : advance w others th o = some (w', th')) (hth : th.Builds) : th'.Builds := by
  cases o with
  | fails written =>
    obtain ⟨call, -, rfl, -⟩ := advance_fails h
    trivial
  | ok =>
    cases th with
    | findExisting call key =>
      simp only [advance] at h
      split at h <;> cases h
      · trivial
      · exact begin_builds w call
    | transaction new tx pc =>
      have hcaught := caught_builds new.call
      cases pc with
      | insertEvent =>
        cases h
        intro event hevent
        exact Option.some.inj hevent ▸ rfl
      | _ =>
        simp only [advance, statement] at h
        grind [Thread.Builds]
    | findWinner call key error =>
      simp only [advance] at h
      split at h <;> cases h <;> trivial
    | publish new =>
      cases h
      trivial
    | _ => cases h

/-- A committed event is that of a call. -/
def Built (tr : List (Move State Label)) (event : OutboxEvent) : Prop :=
  ∃ new : Creation, new.call ∈ calls tr ∧ event.payload = new.event

theorem step_builds {s s' : State} {l : Label} (hs : ∀ e, (s.threads e).Builds)
    (h : step s l = some s') (e : ℕ) : (s'.threads e).Builds := by
  have hupdate : ∀ e' (th : Thread), th.Builds → (Function.update s.threads e' th e).Builds := by
    intro e' th hth
    rw [Function.update_apply]
    split
    · exact hth
    · exact hs e
  cases l with
  | call call =>
    cases h
    exact hupdate _ _ (createPurchase_builds s.world call)
  | run e' o =>
    obtain ⟨⟨w', th'⟩, hadv, rfl⟩ := Option.map_eq_some_iff.mp h
    exact hupdate e' th' (advance_builds hadv (hs e'))
  | crash e' =>
    obtain ⟨call, -, rfl⟩ := Option.map_eq_some_iff.mp h
    exact hupdate e' _ trivial

theorem reaches_built {tr : List (Move State Label)} {s : State} (h : Reaches tr s) :
    ∀ event ∈ s.world.db.outbox, Built tr event := by
  have hinit : (∀ event ∈ initial.world.db.outbox, Built [] event) ∧
      ∀ e, (initial.threads e).Builds := ⟨List.forall_mem_nil _, fun _ => trivial⟩
  refine (Run.history (fun tr s => (∀ event ∈ s.world.db.outbox, Built tr event) ∧
    ∀ e, (s.threads e).Builds) hinit ?_ h).1
  rintro tr s l s' hreach ⟨hcommitted, hthreads⟩ hstep
  refine ⟨fun event hevent => ?_, step_builds hthreads hstep⟩
  have hgrown : ∀ event, Built tr event → Built (tr ++ [⟨s, l, s'⟩]) event :=
    fun event ⟨new, hcall, hbuilt⟩ => ⟨new, calls_snoc tr _ hcall, hbuilt⟩
  obtain ⟨e, th', -, -, -, ⟨new, tx, hth, hw, -⟩ | hquiet⟩ :=
    step_cases (reaches_consistent hreach) hstep
  · rw [hw] at hevent
    rcases List.mem_append.mp hevent with hold | hnew
    · exact hgrown event (hcommitted event hold)
    · have hcreates := (reaches_callHistory hreach).threads e
      have hbuilds := hthreads e
      rw [hth] at hcreates hbuilds
      exact hgrown event ⟨new, hcreates.1, hbuilds event (Option.mem_toList.mp hnew)⟩
  · exact hgrown event (hcommitted event (hquiet.db ▸ hevent))

end Bumpa.Purchases
