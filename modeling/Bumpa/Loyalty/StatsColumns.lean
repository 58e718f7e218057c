import Bumpa.Loyalty.PurchaseOrder

/-! # The columns of `user_stats`

The save of the stats fails when a column would leave its range. A handler that runs alone reaches
that failure (`Overflows`) exactly if the counted purchase does not fit (`overflows_iff`). Purchases
that fit all together are all counted (`processes_fitting`), in whatever order.
-/
namespace Bumpa.Loyalty
open Bumpa.Events Bumpa.Relational Bumpa.Transition
set_option autoImplicit false

def Thread.outOfRange : Thread → Bool
  | .transaction _ _ (.writeStats stats selected) => UserStats.outOfRange selected stats
  | _ => false

/-- An execution comes to a write that is out of range, while no other transaction is open and
nothing else fails. -/
inductive Overflows (cfg : Config) : World → Thread → Prop
  | here {w : World} {th : Thread} (range : th.outOfRange = true) : Overflows cfg w th
  | later {w w' : World} {th th' : Thread} (first : advance cfg w [] th .ok = some (w', th'))
      (rest : Overflows cfg w' th') : Overflows cfg w th

section Overflow
variable {cfg : Config} {w : World} {eventId : ReadableId}

/-- An execution that has counted its purchase overflows only if that count does. -/
theorem overflows_counts {th : Thread} (h : Overflows cfg w th) (hcounts : th.Counts w.db) :
    ∃ event, th.event = some event ∧ ¬w.db.Countable event.payload := by
  induction h with
  | @here w th range =>
    cases th with
    | transaction event tx pc =>
      cases pc with
      | writeStats stats selected =>
        obtain ⟨-, rfl, rfl⟩ := hcounts
        exact ⟨event, rfl, Bool.not_eq_false _ ▸ range⟩
      | _ => cases range
    | _ => cases range
  | @later w w' th th' first rest ih =>
    rcases advance_cases first with ⟨event, tx, -, -, -, htx, hevent⟩ | hquiet
    · have hplain : th'.Counts w'.db := by
        cases th' with
        | transaction _ _ _ => cases htx
        | _ => trivial
      obtain ⟨event', hevent', -⟩ := ih hplain
      cases hevent.symm.trans hevent'
    · obtain ⟨event, hevent, hrange⟩ := ih (hquiet.db ▸ hquiet.counts hcounts)
      rw [hquiet.db] at hrange
      rcases hquiet.event with hnone | hsame
      · cases hnone.symm.trans hevent
      · exact ⟨event, hsame.symm.trans hevent, hrange⟩

/-- The handler fails on the range of the stats exactly if the counted purchase is out of it. -/
theorem overflows_iff (hnew : eventId ∉ w.db.processed) (h : 1 ≤ (cfg.payload eventId).amountKobo) :
    Overflows cfg w (.alreadyProcessed (cfg.event eventId)) ↔
      ¬(Int4.Fits ↑(w.db.purchaseCount (cfg.payload eventId).userId + 1) ∧
        Int4.Fits ↑(w.db.totalSpendKobo (cfg.payload eventId).userId +
          (cfg.payload eventId).amountKobo)) := by
  rw [← countable_iff h]
  constructor
  · intro hoverflows
    obtain ⟨event, hevent, hrange⟩ := overflows_counts hoverflows trivial
    cases hevent
    exact hrange
  · intro hrange
    have hbegin : advance cfg w [] (.alreadyProcessed (cfg.event eventId)) .ok =
        some (w, .transaction (cfg.event eventId) Tx.begin .upsert) := if_neg hnew
    rw [Database.Countable, Bool.not_eq_false,
      ← countPurchase_userId w.db (cfg.payload eventId)] at hrange
    exact .later hbegin (.later rfl (.later rfl (.later rfl (.here hrange))))

end Overflow

/-! ## Purchases that fit together -/

/-- A user's new purchases that fit all together are all counted, and nothing else is. -/
theorem processes_fitting {cfg : Config} {w w' : World} {userId : String}
    {eventIds : List ReadableId} (hcfg : cfg.Keyed)
    (hnew : ∀ eventId ∈ eventIds, eventId ∉ w.db.processed)
    (huser : ∀ eventId ∈ eventIds, (cfg.payload eventId).userId = userId)
    (hamount : ∀ eventId ∈ eventIds, 1 ≤ (cfg.payload eventId).amountKobo)
    (hdistinct : eventIds.Nodup) (hfit : FitTogether cfg w.db userId eventIds.toFinset)
    (h : Processes cfg w eventIds w') :
    ∃ taken : List ReadableId, taken.Perm eventIds ∧ Gains cfg userId taken w.db w'.db ∧
      ∀ eventId ∈ w'.db.processed, eventId ∈ w.db.processed ∨ eventId ∈ eventIds := by
  obtain ⟨taken, hnodup, hgreedy, hgains⟩ := processes_gains hcfg hdistinct hamount h userId
  have hall : pending cfg w.db userId eventIds = eventIds :=
    List.filter_eq_self.mpr fun eventId hmem => by simp [hnew eventId hmem, huser eventId hmem]
  rw [hall, Order.greedy_all (fitTogether_lower cfg w.db userId) hfit] at hgreedy
  have hperm : taken.Perm eventIds := (List.perm_ext_iff_of_nodup hnodup hdistinct).mpr fun eventId => by
    rw [← List.mem_toFinset, hgreedy, List.mem_toFinset]
  refine ⟨taken, hperm, hgains, fun eventId hmem => ?_⟩
  obtain ⟨w'', hrun, hsame⟩ := processes_purchases hcfg w eventIds
  obtain rfl := h.unique hrun
  rw [hsame.processed] at hmem
  exact foldl_purchase_processed hmem

end Bumpa.Loyalty
