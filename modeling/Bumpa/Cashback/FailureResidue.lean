import Bumpa.Cashback.BadgeRows

/-! # What a SUCCESSFUL row keeps of earlier failures

A SUCCESSFUL row should have its failure fields null and a `retryCount` of 0. Two paths set the
status: the success branch of `processPayment` clears the failure fields and `nextRetryAt`, the
webhook clears the failure fields only, and neither touches the count, which the catch block
advances and a manual retry with new bank details resets.

`successes_clean_iff`: every state of a run has only clean SUCCESSFUL rows exactly if each success
is recorded on a copy that has nothing to clear beyond that (`settlesClean`). `success_counted` is
a transaction that is retried after a failure and then paid.
-/
namespace Bumpa.Cashback
open Bumpa.Events Bumpa.Relational Bumpa.Transition
set_option autoImplicit false

/-- No failure fields, no retry to come, no failure counted. -/
structure CashbackTransaction.Clean (t : CashbackTransaction) : Prop where
  reason : t.failureReason = none
  code : t.failureCode = none
  retryable : t.retryable = none
  next : t.nextRetryAt = none
  count : t.retryCount = 0

def World.SuccessesClean (w : World) : Prop :=
  ∀ k row, w.row k = some row → row.status = .successful → row.Clean

/-- A success is recorded on a copy without a count, and by a webhook, without a retry to come. -/
def settlesClean (s : State) : Label → Bool
  | .run e o =>
    match s.threads e with
    | .payment r (.store t account result) =>
      !((Thread.payment r (.store t account result)).storesResult o &&
        result.status = .successful && t.retryCount ≠ 0)
    | .webhook hook (.save t) =>
      !((Thread.webhook hook (.save t)).savesWebhook o && hook.event.outcome = .successful &&
        (t.retryCount ≠ 0 || t.nextRetryAt ≠ none))
    | _ => true
  | _ => true

/-- What handlers have loaded of SUCCESSFUL rows is clean. -/
def State.CopiesClean (s : State) : Prop :=
  ∀ e event t, (s.threads e).handled = some (event, t) → t.status = .successful → t.Clean

/-! ## What the two paths leave -/

theorem withResult_clean {t row : CashbackTransaction} {result : CashbackPaymentResult} :
    (t.withResult row result).Clean ↔ t.retryCount = 0 :=
  ⟨fun h => h.count, fun h => ⟨rfl, rfl, rfl, rfl, h⟩⟩

theorem mark_clean {hook : TransferWebhook} {t : CashbackTransaction}
    (h : hook.event.outcome = .successful) :
    (hook.mark t).Clean ↔ t.retryCount = 0 ∧ t.nextRetryAt = none := by
  have hmark : hook.mark t = t.markedSuccessful := by rw [TransferWebhook.mark, h]
  rw [hmark]
  exact ⟨fun hc => ⟨hc.count, hc.next⟩, fun hc => ⟨rfl, rfl, rfl, hc.2, hc.1⟩⟩

/-- A save of `v`, made if `b`, keeps the SUCCESSFUL rows clean exactly if `v` is. -/
theorem successesClean_save_iff {w w' : World} {b : Bool} {j : ReadableId} {v : CashbackTransaction}
    (hw : w.SuccessesClean)
    (h : ∀ k, w'.row k = if b = true ∧ k = j then some v else w.row k) :
    w'.SuccessesClean ↔ (b = true → v.status = .successful → v.Clean) := by
  constructor
  · intro hclean hb
    exact hclean j v ((h j).trans (if_pos ⟨hb, rfl⟩))
  · intro hv k row hrow hstatus
    rw [h] at hrow
    split at hrow
    · next hsaved =>
      rw [Option.some.injEq] at hrow
      rw [← hrow] at hstatus ⊢
      exact hv hsaved.1 hstatus
    · exact hw k row hrow hstatus

/-! ## One step -/

/-- A save on neither of the two paths leaves a clean row, or one that is not SUCCESSFUL. -/
theorem RowWrite.clean {cfg : Config} {s : State} {e : ℕ} {k : ReadableId} {v : CashbackTransaction}
    (hv : RowWrite cfg s.world e (s.threads e) k v) (hw : s.world.SuccessesClean)
    (hcopies : s.CopiesClean) (hstore : ∀ r t account result,
      s.threads e ≠ .payment r (.store t account result))
    (hsave : ∀ hook t, s.threads e ≠ .webhook hook (.save t)) (hstatus : v.status = .successful) :
    v.Clean := by
  generalize hth : s.threads e = th at hv hstore hsave
  cases hv with
  | @commit event t held => exact hcopies e event v (by rw [hth]; rfl) hstatus
  | @resetCount t row account found =>
    have hrow := hw _ row found hstatus
    exact ⟨hrow.reason, hrow.code, hrow.retryable, hrow.next, rfl⟩
  | claim => cases hstatus
  | reset => cases hstatus
  | failure => cases hstatus
  | revive => cases hstatus
  | store => exact absurd rfl (hstore _ _ _ _)
  | webhook => exact absurd rfl (hsave _ _)

theorem successesClean_run {cfg : Config} {s s' : State} {e : ℕ} {o : Outcome} {th' : Thread}
    (hw : s.world.SuccessesClean) (hcopies : s.CopiesClean)
    (hadv : advance cfg s.world e (s.threads e) o = some (s'.world, th')) :
    s'.world.SuccessesClean ↔ settlesClean s (.run e o) = true := by
  have hother : settlesClean s (.run e o) = true →
      (∀ r t account result, s.threads e ≠ .payment r (.store t account result)) →
      (∀ hook t, s.threads e ≠ .webhook hook (.save t)) →
      (s'.world.SuccessesClean ↔ settlesClean s (.run e o) = true) := by
    intro hsettles hstore hsave
    refine iff_of_true (fun k row hrow hstatus => ?_) hsettles
    rcases advance_rows hadv with hsame | ⟨k', v, hv, hwritten⟩
    · exact hw k row ((hsame k).symm.trans hrow) hstatus
    · rw [hwritten] at hrow
      split at hrow
      · rw [Option.some.injEq] at hrow
        rw [← hrow] at hstatus ⊢
        exact hv.clean hw hcopies hstore hsave hstatus
      · exact hw k row hrow hstatus
  cases hth : s.threads e with
  | payment r pc =>
    cases pc with
    | store t account result =>
      rw [hth] at hadv
      have hstatus : (t.withResult (s.world.rowOf t) result).status = .successful ↔
          result.status = .successful := CashbackTransactionStatus.ofPayment_eq_successful
      rw [successesClean_save_iff hw (store_rows hadv), hstatus, withResult_clean]
      simp only [settlesClean, hth, Thread.storesResult]
      by_cases hsuccess : result.status = .successful <;> simp [hsuccess, imp_iff_not_or]
    | _ => exact hother (by simp only [settlesClean, hth]) (by simp [hth]) (by simp [hth])
  | webhook hook pc =>
    cases pc with
    | save t =>
      rw [hth] at hadv
      rw [successesClean_save_iff hw (webhookSave_rows hadv), mark_status,
        CashbackTransactionStatus.ofPayment_eq_successful]
      simp only [settlesClean, hth, Thread.savesWebhook]
      by_cases hsuccess : hook.event.outcome = .successful
      · rw [mark_clean hsuccess]
        simp [hsuccess, imp_iff_not_or]
      · simp [hsuccess]
    | _ => exact hother (by simp only [settlesClean, hth]) (by simp [hth]) (by simp [hth])
  | _ => exact hother (by simp only [settlesClean, hth]) (by simp [hth]) (by simp [hth])

theorem successesClean_iff {cfg : Config} {s s' : State} {l : Label} (hw : s.world.SuccessesClean)
    (hcopies : s.CopiesClean) (h : step cfg s l = some s') :
    s'.world.SuccessesClean ↔ settlesClean s l = true := by
  rcases step_cases h with ⟨e, o, th', rfl, hadv, _, _⟩ | ⟨hambient, hl, _⟩
  · exact successesClean_run hw hcopies hadv
  · refine iff_of_true (fun k row hrow => hw k row ?_) ?_
    · rwa [World.row, hambient.transactions] at hrow
    · cases l with
      | run e o => exact absurd rfl (hl e o)
      | _ => rfl

/-- A handler has loaded a row as it is, which is clean, or creates one that is PENDING. -/
theorem copiesClean_step {cfg : Config} {s s' : State} {l : Label} (hw : s.world.SuccessesClean)
    (hcopies : s.CopiesClean) (h : step cfg s l = some s') : s'.CopiesClean := by
  intro e' event t ht hstatus
  rcases step_cases h with ⟨e, o, th', rfl, hadv, _, hth⟩ | ⟨_, hl, _⟩
  · by_cases he : e' = e
    · rw [hth, if_pos he] at ht
      obtain ⟨pc, hpc, hstep⟩ := advance_handled hadv ht
      rcases handleBadgeUnlocked_handled hstep ht with ⟨hbefore, _⟩ | ⟨_, _, hrow | ⟨rfl, _⟩⟩
      · exact hcopies e event t (by rw [hpc, hbefore]) hstatus
      · exact hw t.id t hrow hstatus
      · cases hstatus
    · rw [hth, if_neg he] at ht
      exact hcopies e' event t ht hstatus
  · have hsame := (loaded_ambient h hl (handled_loaded ht)).1
    exact hcopies e' event t (by rwa [← hsame]) hstatus

/-! ## Every run -/

theorem copiesClean {cfg : Config} {tr : List (Move State Label)} {s : State}
    (h : Reaches cfg tr s) (hclean : ∀ x ∈ tr, x.target.world.SuccessesClean) :
    s.world.SuccessesClean ∧ s.CopiesClean := by
  induction h with
  | nil => exact ⟨(fun k row hrow => by cases hrow), fun e event t ht => by cases ht⟩
  | snoc _ last ih =>
    obtain ⟨hw, hcopies⟩ := ih fun x hx => hclean x (List.mem_append_left _ hx)
    exact ⟨hclean _ (List.mem_append_right _ (List.mem_singleton_self _)),
      copiesClean_step hw hcopies last⟩

/-- In every state the SUCCESSFUL rows are clean, exactly if every success is recorded on a copy
that has no count and, by a webhook, no retry to come. -/
theorem successes_clean_iff {cfg : Config} {tr : List (Move State Label)} {s : State}
    (h : Reaches cfg tr s) :
    (∀ x ∈ tr, x.target.world.SuccessesClean) ↔
      Guarded (fun s l => settlesClean s l = true) tr := by
  induction h with
  | nil => exact ⟨fun _ => List.forall_mem_nil _, fun _ => List.forall_mem_nil _⟩
  | snoc prev last ih =>
    rw [guarded_snoc, ← ih]
    simp only [List.mem_append, List.mem_singleton, or_imp, forall_and, forall_eq]
    refine and_congr_right fun hbefore => ?_
    obtain ⟨hw, hcopies⟩ := copiesClean prev hbefore
    exact successesClean_iff hw hcopies last

/-! ## Schedules -/

theorem successes_clean_paid : ∃ tr s, Reaches mockConfig tr s ∧
    s.world.statusOf 0 = some .successful ∧ ∀ x ∈ tr, x.target.world.SuccessesClean := by
  obtain ⟨tr, s, h, hp⟩ := exists_run_of_trace (step mockConfig) initial
    (deliver 0 (badgeEvent 0 "Bronze" "0123456789") ++ .takeJob 0 :: Label.oks 1 7)
    (fun r => (r.1.all fun x => settlesClean x.source x.label) &&
      decide (r.2.world.statusOf 0 = some .successful)) (by decide +kernel)
  rw [Bool.and_eq_true, decide_eq_true_eq] at hp
  exact ⟨tr, s, h, hp.2, (successes_clean_iff h).mpr (guarded_of_all hp.1)⟩

/-- No operation is under way. -/
def State.idle (s : State) : Bool := (List.range s.nextThread).all fun e => (s.threads e).isDone

/-- Operations run one after the other, each to its end. -/
def oneAtATime (s : State) : Label → Bool
  | .run _ _ => true
  | .crash _ => false
  | _ => s.idle

/-- The first attempt is rejected for good, an operator retries the transaction, and a webhook
reports that the second transfer succeeded. The count is still 1. -/
theorem success_counted : ¬ ∀ (cfg : Config) (tr : List (Move State Label)) (s : State),
    Reaches cfg tr s → Guarded (fun s l => oneAtATime s l = true) tr → s.idle = true →
    s.world.SuccessesClean := by
  intro hall
  obtain ⟨tr, s, h, hp⟩ := exists_run_of_trace (step paystackConfig) initial
    (deliver 0 (badgeEvent 0 "Bronze" "0123456789") ++ .takeJob 0 :: Label.oks 1 4 ++
      .run 1 (.fails (.other "Could not resolve account name") false) :: Label.oks 1 2 ++
      .retryRequest 0 ⟨none, none⟩ :: Label.oks 2 5 ++ payNewRecipient 3 1 "RCP_1" ++
      Label.oks 3 3 ++ .webhook ⟨.success, ⟨.paystack, 6⟩, none, none⟩ :: Label.oks 4 3)
    (fun r => (r.1.all fun x => oneAtATime x.source x.label) && r.2.idle &&
      (r.2.world.row 0).any fun row => row.status = .successful && row.retryCount = 1)
    (by decide +kernel)
  simp only [Bool.and_eq_true, Option.any_eq_true, decide_eq_true_eq] at hp
  obtain ⟨⟨hsequential, hidle⟩, row, hrow, hstatus, hcount⟩ := hp
  have hclean := hall _ tr s h (guarded_of_all hsequential) hidle 0 row hrow hstatus
  rw [hclean.count] at hcount
  cases hcount

end Bumpa.Cashback
