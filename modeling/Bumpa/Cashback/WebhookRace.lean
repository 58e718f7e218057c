import Bumpa.Cashback.Attempts

/-! # A webhook against the attempt it is about

An attempt has had its transfer accepted and awaits Paystack's answer; the webhook about the
transfer may arrive at any time from then on. Both sides load the row, change the copy and save
all of it later. `webhook_kept_iff` says when the webhook's outcome is the final status: exactly
when the attempt does not commit over it. `webhook_overwritten` is a schedule in which it does.

The induction follows both program points. `AttemptPhase` lists the attempt's, and `RaceInvariant`
adds what the row's status is: what the attempt left before the webhook is saved, and after that
the webhook's outcome unless the attempt has committed since.
-/
namespace Bumpa.Cashback
open Bumpa.Events Bumpa.Relational Bumpa.Transition
set_option autoImplicit false

/-! ## The two parties -/

/-- Attempt `p` of the run `r` has a transfer accepted under `reference`, its row is as the claim
left it, and webhook handler `h` has received a webhook about the transfer. -/
structure WebhookRace (cfg : Config) (s : State) (p h : ℕ) (r : PaymentRun) (hook : TransferWebhook) :
    Prop where
  reached : ∃ tr, Reaches cfg tr s
  attempt : ∃ t account result, s.threads p = .payment r (.receive t account result) ∧
    result.reference = hook.reference
  claimed : ∃ row, s.world.row r.transactionId = some row ∧ row.status = .processing ∧
    row.providerReference = some hook.reference
  webhook : s.threads h = .webhook hook .find

/-- The parties run on, and nobody else writes the row. The handler's read and save go through; a
webhook whose handling fails is sent again. -/
def RaceMove (k : ReadableId) (p h : ℕ) (x : Move State Label) : Prop :=
  (∃ o, x.label = .run p o) ∨
  (∃ o, x.label = .run h o ∧
    (o = .ok ∨ ∃ hook eventId, x.source.threads h = .webhook hook (.publish eventId))) ∨
  ((∀ o, x.label ≠ .run p o) ∧ (∀ o, x.label ≠ .run h o) ∧
    x.target.threads p = x.source.threads p ∧ x.target.threads h = x.source.threads h ∧
    x.target.world.row k = x.source.world.row k)

/-- After the webhook is saved the attempt commits over it: its PENDING result, unless its own
FAILED follows and is what the webhook says too, or its FAILED over the webhook's SUCCESSFUL. -/
def overwritesWebhook (p h : ℕ) (hook : TransferWebhook) (tr : List (Move State Label)) : Bool :=
  let saves := stepOf h Thread.savesWebhook
  match hook.event.outcome with
  | .failed =>
    followed saves (stepOf p Thread.storesResult) tr &&
      !followed saves (stepOf p Thread.recordsFailure) tr
  | _ =>
    followed saves (stepOf p Thread.storesResult) tr ||
      followed saves (stepOf p Thread.recordsFailure) tr

/-! ## The attempt -/

/-- The attempt has made its last write. -/
def Thread.Closed (th : Thread) : Prop :=
  th = .done ∨ ∃ r eventId, th = .payment r (.publishFailure eventId)

inductive AttemptPhase (r : PaymentRun) (reference : Reference) : Thread → Prop
  | receive {t : CashbackTransaction} {account : PayoutAccount} {result : CashbackPaymentResult}
      (id : t.id = r.transactionId) (copy : t.providerReference = some reference)
      (under : result.reference = reference) (pending : result.status = .pending) :
      AttemptPhase r reference (.payment r (.receive t account result))
  | store {t : CashbackTransaction} {account : PayoutAccount} {result : CashbackPaymentResult}
      (id : t.id = r.transactionId) (copy : t.providerReference = some reference)
      (under : result.reference = reference) (pending : result.status = .pending) :
      AttemptPhase r reference (.payment r (.store t account result))
  | publish {t : CashbackTransaction} : AttemptPhase r reference (.payment r (.publish t []))
  | recover {t : CashbackTransaction} {error : Thrown} (id : t.id = r.transactionId)
      (copy : t.providerReference = some reference) :
      AttemptPhase r reference (.payment r (.recover t error))
  | closed {th : Thread} (h : th.Closed) : AttemptPhase r reference th

theorem Thread.Closed.step {cfg : Config} {w w' : World} {e : ℕ} {th th' : Thread} {o : Outcome}
    (hth : th.Closed) (h : advance cfg w e th o = some (w', th')) :
    th' = .done ∧ (∀ k, w'.row k = w.row k) ∧ th.storesResult o = false ∧
      th.recordsFailure o = false := by
  rcases hth with rfl | ⟨r, eventId, rfl⟩
  · cases h
  · have hdone : th' = .done := by
      simp only [advance, processPayment, publishFailure] at h
      grind
    refine ⟨hdone, fun k => ?_, rfl, rfl⟩
    rcases advance_rows h with hsame | ⟨k', v, hv, _⟩
    · exact hsame k
    · cases hv

/-- One step of the attempt on the row of its transaction. -/
theorem attempt_step {cfg : Config} {w w' : World} {e : ℕ} {r : PaymentRun} {o : Outcome}
    {reference : Reference} {th th' : Thread} {row : CashbackTransaction}
    (hth : AttemptPhase r reference th) (h : advance cfg w e th o = some (w', th'))
    (hrow : w.row r.transactionId = some row) (href : row.providerReference = some reference) :
    AttemptPhase r reference th' ∧ ∃ row', w'.row r.transactionId = some row' ∧
      row'.providerReference = some reference ∧
      (th.storesResult o = true → row'.status = .pending ∧ th.recordsFailure o = false) ∧
      (th.recordsFailure o = true → row'.status = .failed ∧ th'.Closed) ∧
      (th.storesResult o = false → th.recordsFailure o = false →
        row'.status = row.status ∨ row.status = .processing ∧ row'.status = .pending) := by
  have hfailed : ∀ j, (w.failJob e j).row r.transactionId = some row := fun j => by
    rw [World.row, failJob_db, ← World.row, hrow]
  cases hth with
  | @receive t account result id copy under pending =>
    simp only [advance, processPayment, receive] at h
    cases o with
    | ok =>
      obtain ⟨rfl, rfl⟩ := some_pair_inj h
      exact ⟨.store id copy under pending, row, hrow, href, by simp [Thread.storesResult],
        by simp [Thread.recordsFailure], fun _ _ => Or.inl rfl⟩
    | fails error written =>
      obtain ⟨rfl, rfl⟩ := some_pair_inj h
      exact ⟨.recover id copy, row, hrow, href, by simp [Thread.storesResult],
        by simp [Thread.recordsFailure], fun _ _ => Or.inl rfl⟩
    | recipient code => cases h
  | @store t account result id copy under pending =>
    have hstored : (w.storeResult r t account result).row r.transactionId =
        some (t.withResult (w.rowOf t) result) := by
      rw [storeResult_row, if_pos id.symm]
    have hreference : (t.withResult (w.rowOf t) result).providerReference = some reference := by
      rw [← under]
      rfl
    have hstatus : (t.withResult (w.rowOf t) result).status = .pending := by
      simp only [CashbackTransaction.withResult, pending, CashbackTransactionStatus.ofPayment]
    simp only [advance, processPayment, store] at h
    cases o with
    | ok =>
      simp only at h
      split_ifs at h with hfree hsuccess
      · rw [pending] at hsuccess
        cases hsuccess
      · obtain ⟨rfl, rfl⟩ := some_pair_inj h
        exact ⟨.publish, _, hstored, hreference, fun _ => ⟨hstatus, rfl⟩,
          by simp [Thread.recordsFailure], by simp [Thread.storesResult, Outcome.takesEffect]⟩
    | fails error written =>
      cases written with
      | false =>
        obtain ⟨rfl, rfl⟩ := some_pair_inj h
        exact ⟨.recover id hreference, row, hrow, href,
          by simp [Thread.storesResult, Outcome.takesEffect], by simp [Thread.recordsFailure],
          fun _ _ => Or.inl rfl⟩
      | true =>
        simp only at h
        split_ifs at h
        obtain ⟨rfl, rfl⟩ := some_pair_inj h
        exact ⟨.recover id hreference, _, hstored, hreference, fun _ => ⟨hstatus, rfl⟩,
          by simp [Thread.recordsFailure], by simp [Thread.storesResult, Outcome.takesEffect]⟩
    | recipient code => cases h
  | publish =>
    simp only [advance, processPayment, publish] at h
    cases o with
    | ok =>
      obtain ⟨rfl, rfl⟩ := some_pair_inj h
      refine ⟨.closed (Or.inl rfl), row, ?_, href, by simp [Thread.storesResult],
        by simp [Thread.recordsFailure], fun _ _ => Or.inl rfl⟩
      rw [World.row, completeJob_db, ← World.row, hrow]
    | fails error written => simp at h
    | recipient code => cases h
  | @recover t error id copy =>
    have hreset := resetTransaction_row hrow
    have hrecorded : ∀ failure, (w.storeFailure cfg r t failure).row r.transactionId =
        some (t.withFailure (w.rowOf t) cfg w.now failure) := fun failure => by
      rw [storeFailure_row, if_pos id.symm]
    simp only [advance, processPayment, recover] at h
    grind [failJob_db, Thread.storesResult, Thread.recordsFailure, Outcome.takesEffect,
      CashbackTransaction.withFailure, AttemptPhase.closed, Thread.Closed]
  | closed hclosed =>
    obtain ⟨rfl, hsame, hstores, hrecords⟩ := hclosed.step h
    refine ⟨.closed (Or.inl rfl), row, (hsame _).trans hrow, href, ?_, ?_, fun _ _ => Or.inl rfl⟩
    · rw [hstores]
      simp
    · rw [hrecords]
      simp

/-! ## The webhook handler -/

theorem findByReference_eq {s : State} (hs : UniqueReferences s) {k : ReadableId}
    {reference : Reference} {row : CashbackTransaction} (hrow : s.world.row k = some row)
    (href : row.providerReference = some reference) :
    s.world.findByReference reference = some row := by
  have hid : row.id = k := s.world.db.transactions.key_eq hrow
  cases hfind : s.world.findByReference reference with
  | none =>
    have hnone := Table.find?_eq_none hfind hrow
    simp [href] at hnone
  | some row' =>
    obtain ⟨hrow', href'⟩ := Table.find?_eq_some hfind
    have hkey : row'.id = k := hs.unique 0 0 row'.id k reference
      (Or.inl ⟨row', hrow', rfl, of_decide_eq_true href'⟩) (Or.inl ⟨row, hrow, hid, href⟩)
    rw [hkey] at hrow'
    exact hrow'.symm.trans hrow

/-! ## The invariant of the race -/

/-- The webhook has been saved. -/
abbrev webhookSaved (h : ℕ) (tr : List (Move State Label)) : Bool :=
  tr.any (stepOf h Thread.savesWebhook)

/-- The attempt has stored its PENDING result since. -/
abbrev storedSince (p h : ℕ) (tr : List (Move State Label)) : Bool :=
  followed (stepOf h Thread.savesWebhook) (stepOf p Thread.storesResult) tr

/-- The attempt has recorded a failure since. -/
abbrev failedSince (p h : ℕ) (tr : List (Move State Label)) : Bool :=
  followed (stepOf h Thread.savesWebhook) (stepOf p Thread.recordsFailure) tr

/-- The handler's program point; until it has saved, its copy carries the webhook's reference. -/
inductive HandlerPhase (k : ReadableId) (hook : TransferWebhook) (saved : Bool) : Thread → Prop
  | find (unsaved : saved = false) : HandlerPhase k hook saved (.webhook hook .find)
  | save {t : CashbackTransaction} (unsaved : saved = false) (id : t.id = k)
      (copy : t.providerReference = some hook.reference) :
      HandlerPhase k hook saved (.webhook hook (.save t))
  | publish {eventId : ReadableId} (after : saved = true) :
      HandlerPhase k hook saved (.webhook hook (.publish eventId))
  | done : HandlerPhase k hook saved .done

/-- The status before the webhook is saved: the attempt's, who is through once it is FAILED. A
handler that stopped without saving found the webhook's outcome there. -/
def StatusBefore (s : State) (p h : ℕ) (hook : TransferWebhook)
    (status : CashbackTransactionStatus) : Prop :=
  status ≠ .successful ∧ (status = .failed → (s.threads p).Closed) ∧
    (s.threads h = .done → status = .ofPayment hook.event.outcome)

/-- The status after it: the webhook's outcome, unless the attempt has committed since. -/
def StatusAfter (s : State) (p h : ℕ) (hook : TransferWebhook) (tr : List (Move State Label))
    (status : CashbackTransactionStatus) : Prop :=
  (failedSince p h tr = true → (s.threads p).Closed) ∧
    status =
      if failedSince p h tr then .failed
      else if storedSince p h tr then .pending
      else .ofPayment hook.event.outcome

structure RaceInvariant (p h : ℕ) (r : PaymentRun) (hook : TransferWebhook)
    (tr : List (Move State Label)) (s : State) : Prop where
  attempt : AttemptPhase r hook.reference (s.threads p)
  handler : HandlerPhase r.transactionId hook (webhookSaved h tr) (s.threads h)
  row : ∃ row, s.world.row r.transactionId = some row ∧
    row.providerReference = some hook.reference ∧
    (webhookSaved h tr = false → StatusBefore s p h hook row.status) ∧
    (webhookSaved h tr = true → StatusAfter s p h hook tr row.status)

theorem stepOf_run (e e' : ℕ) (kind : Thread → Outcome → Bool) (s s' : State) (o : Outcome) :
    stepOf e kind ⟨s, .run e' o, s'⟩ = (decide (e' = e) && kind (s.threads e) o) := rfl

theorem stepOf_eq_false {e : ℕ} {kind : Thread → Outcome → Bool} {s s' : State} {l : Label}
    (h : ∀ o, l ≠ .run e o) : stepOf e kind ⟨s, l, s'⟩ = false := by
  unfold stepOf
  split
  · next e' o heq =>
    have hne : e' ≠ e := by
      rintro rfl
      exact h o heq
    simp [hne]
  · rfl

theorem webhookSaved_snoc (h : ℕ) (tr : List (Move State Label)) (x : Move State Label) :
    webhookSaved h (tr ++ [x]) = (webhookSaved h tr || stepOf h Thread.savesWebhook x) := by
  rw [webhookSaved, List.any_append, List.any_cons, List.any_nil, Bool.or_false]

/-- A move of neither party. -/
theorem RaceInvariant.other {p h : ℕ} {r : PaymentRun} {hook : TransferWebhook}
    {tr : List (Move State Label)} {s s' : State} {l : Label} (hs : RaceInvariant p h r hook tr s)
    (hp : ∀ o, l ≠ .run p o) (hh : ∀ o, l ≠ .run h o) (hpth : s'.threads p = s.threads p)
    (hhth : s'.threads h = s.threads h)
    (hrow : s'.world.row r.transactionId = s.world.row r.transactionId) :
    RaceInvariant p h r hook (tr ++ [⟨s, l, s'⟩]) s' := by
  have hsaved : webhookSaved h (tr ++ [⟨s, l, s'⟩]) = webhookSaved h tr := by
    rw [webhookSaved_snoc, stepOf_eq_false hh, Bool.or_false]
  have hstored : storedSince p h (tr ++ [⟨s, l, s'⟩]) = storedSince p h tr := by
    rw [storedSince, followed_snoc, stepOf_eq_false hp, Bool.and_false, Bool.or_false]
  have hfailed : failedSince p h (tr ++ [⟨s, l, s'⟩]) = failedSince p h tr := by
    rw [failedSince, followed_snoc, stepOf_eq_false hp, Bool.and_false, Bool.or_false]
  constructor
  · rw [hpth]
    exact hs.attempt
  · rw [hhth, hsaved]
    exact hs.handler
  · rw [hrow, hsaved]
    simp only [StatusBefore, StatusAfter, hpth, hhth, hstored, hfailed]
    exact hs.row

/-- A move of the attempt. -/
theorem RaceInvariant.attempt_move {cfg : Config} {p h : ℕ} {r : PaymentRun}
    {hook : TransferWebhook} {tr : List (Move State Label)} {s s' : State} {o : Outcome}
    (hs : RaceInvariant p h r hook tr s) (hne : p ≠ h) (hstep : step cfg s (.run p o) = some s') :
    RaceInvariant p h r hook (tr ++ [⟨s, .run p o, s'⟩]) s' := by
  obtain ⟨th', hadv, _, hth⟩ := step_run hstep
  have hpth : s'.threads p = th' := by rw [hth, if_pos rfl]
  have hhth : s'.threads h = s.threads h := by rw [hth, if_neg (Ne.symm hne)]
  have hsaved : webhookSaved h (tr ++ [⟨s, .run p o, s'⟩]) = webhookSaved h tr := by
    rw [webhookSaved_snoc, stepOf_run]
    simp [hne]
  have hstored : storedSince p h (tr ++ [⟨s, .run p o, s'⟩]) =
      (storedSince p h tr || (webhookSaved h tr && (s.threads p).storesResult o)) := by
    rw [storedSince, followed_snoc, stepOf_run]
    simp
  have hfailed : failedSince p h (tr ++ [⟨s, .run p o, s'⟩]) =
      (failedSince p h tr || (webhookSaved h tr && (s.threads p).recordsFailure o)) := by
    rw [failedSince, followed_snoc, stepOf_run]
    simp
  obtain ⟨row, hrow, href, hbefore, hafter⟩ := hs.row
  obtain ⟨hphase, row', hrow', href', hstores, hrecords, hquiet⟩ :=
    attempt_step hs.attempt hadv hrow href
  -- an attempt past its last write leaves the row alone
  have hclosed : (s.threads p).Closed → th' = .done ∧ row' = row ∧
      (s.threads p).storesResult o = false ∧ (s.threads p).recordsFailure o = false := by
    intro hc
    obtain ⟨hdone, hsame, hns, hnr⟩ := hc.step hadv
    rw [hsame, hrow, Option.some.injEq] at hrow'
    exact ⟨hdone, hrow'.symm, hns, hnr⟩
  refine ⟨by rw [hpth]; exact hphase, by rw [hhth, hsaved]; exact hs.handler, row', hrow', href',
    ?_, ?_⟩
  · rw [hsaved]
    intro hunsaved
    obtain ⟨hns, hf, hd⟩ := hbefore hunsaved
    simp only [StatusBefore, hpth, hhth]
    have hdoneClosed : th' = .done → th'.Closed := Or.inl
    have houtcome := outcome_cases hook.event
    grind [CashbackTransactionStatus.ofPayment]
  · rw [hsaved]
    intro hdone
    obtain ⟨hf, hstatus⟩ := hafter hdone
    simp only [StatusAfter, hpth, hstored, hfailed, hdone, Bool.true_and]
    have hdoneClosed : th' = .done → th'.Closed := Or.inl
    have houtcome := outcome_cases hook.event
    grind [CashbackTransactionStatus.ofPayment]

/-- A move of the handler whose read or save goes through, or of its publishing. -/
theorem RaceInvariant.handler_move {cfg : Config} {p h : ℕ} {r : PaymentRun}
    {hook : TransferWebhook} {tr : List (Move State Label)} {s s' : State} {o : Outcome}
    (hs : RaceInvariant p h r hook tr s) (hne : p ≠ h) (hunique : UniqueReferences s)
    (hserved : o = .ok ∨ ∃ hook eventId, s.threads h = .webhook hook (.publish eventId))
    (hstep : step cfg s (.run h o) = some s') :
    RaceInvariant p h r hook (tr ++ [⟨s, .run h o, s'⟩]) s' := by
  obtain ⟨th', hadv, _, hth⟩ := step_run hstep
  have hhth : s'.threads h = th' := by rw [hth, if_pos rfl]
  have hpth : s'.threads p = s.threads p := by rw [hth, if_neg hne]
  have hquiet : stepOf p Thread.storesResult ⟨s, .run h o, s'⟩ = false ∧
      stepOf p Thread.recordsFailure ⟨s, .run h o, s'⟩ = false := by
    constructor <;> rw [stepOf_run] <;> simp [Ne.symm hne]
  have hsaved : webhookSaved h (tr ++ [⟨s, .run h o, s'⟩]) =
      (webhookSaved h tr || (s.threads h).savesWebhook o) := by
    rw [webhookSaved_snoc, stepOf_run]
    simp
  have hstored : storedSince p h (tr ++ [⟨s, .run h o, s'⟩]) = storedSince p h tr := by
    rw [storedSince, followed_snoc, hquiet.1, Bool.and_false, Bool.or_false]
  have hfailed : failedSince p h (tr ++ [⟨s, .run h o, s'⟩]) = failedSince p h tr := by
    rw [failedSince, followed_snoc, hquiet.2, Bool.and_false, Bool.or_false]
  obtain ⟨row, hrow, href, hbefore, hafter⟩ := hs.row
  have hattempt : AttemptPhase r hook.reference (s'.threads p) := by
    rw [hpth]
    exact hs.attempt
  cases hhandler : s.threads h with
  | webhook hook' pc =>
    have hphase := hs.handler
    rw [hhandler] at hphase hadv hsaved hserved
    cases hphase with
    | find unsaved =>
      obtain rfl : o = .ok := by
        rcases hserved with ho | ⟨_, _, heq⟩
        · exact ho
        · cases heq
      have hstill : webhookSaved h (tr ++ [⟨s, .run h .ok, s'⟩]) = false := by
        rw [hsaved, unsaved]
        rfl
      obtain ⟨hns, hf, _⟩ := hbefore unsaved
      simp only [advance, handleWebhook, findByReference_eq hunique hrow href] at hadv
      split at hadv
      · next hsame =>
        -- the attempt has recorded what the webhook says, so the webhook is ignored
        obtain ⟨hw, rfl⟩ := some_pair_inj hadv
        refine ⟨hattempt, by rw [hhth]; exact .done, row, by rw [hw]; exact hrow, href, ?_, ?_⟩
        · intro _
          refine ⟨hns, fun hfail => ?_, fun _ => hsame⟩
          rw [hpth]
          exact hf hfail
        · rw [hstill]
          simp
      · obtain ⟨hw, rfl⟩ := some_pair_inj hadv
        have hid : row.id = r.transactionId := s.world.db.transactions.key_eq hrow
        refine ⟨hattempt, by rw [hhth, hstill]; exact .save rfl hid href, row,
          by rw [hw]; exact hrow, href, ?_, ?_⟩
        · intro _
          refine ⟨hns, fun hfail => ?_, fun hdone => ?_⟩
          · rw [hpth]
            exact hf hfail
          · rw [hhth] at hdone
            cases hdone
        · rw [hstill]
          simp
    | @save t unsaved id copy =>
      obtain rfl : o = .ok := by
        rcases hserved with ho | ⟨_, _, heq⟩
        · exact ho
        · cases heq
      have hnow : webhookSaved h (tr ++ [⟨s, .run h .ok, s'⟩]) = true := by
        rw [hsaved, Thread.savesWebhook, Outcome.takesEffect, Bool.or_true]
      simp only [advance, handleWebhook] at hadv
      split_ifs at hadv
      obtain ⟨hw, rfl⟩ := some_pair_inj hadv
      have hmark : (hook.mark t).id = r.transactionId := by rw [mark_id, id]
      have hrow' : s'.world.row r.transactionId = some (hook.mark t) := by
        rw [hw, World.row, World.storeWebhook, notifyTransfer_db, drawIds_db,
          saveOutboxEvent_transactions, saveTransaction_row, if_pos hmark.symm]
      refine ⟨hattempt, by rw [hhth, hnow]; exact .publish rfl, hook.mark t, hrow',
        by rw [mark_reference, copy], ?_, ?_⟩
      · rw [hnow]
        simp
      · intro _
        have hnone : failedSince p h tr = false ∧ storedSince p h tr = false :=
          ⟨followed_eq_false unsaved, followed_eq_false unsaved⟩
        rw [StatusAfter, hfailed, hstored, hnone.1, hnone.2]
        exact ⟨by simp, mark_status hook t⟩
    | publish after =>
      rw [after, Bool.true_or] at hsaved
      have hw : s'.world = s.world ∧ th' = .done := by
        simp only [advance, handleWebhook] at hadv
        grind
      obtain ⟨hf, hstatus⟩ := hafter after
      refine ⟨hattempt, by rw [hhth, hw.2]; exact .done, row, by rw [hw.1]; exact hrow, href, ?_, ?_⟩
      · rw [hsaved]
        simp
      · intro _
        rw [StatusAfter, hfailed, hstored, hpth]
        exact ⟨hf, hstatus⟩
  | done =>
    rw [hhandler] at hadv
    cases hadv
  | _ =>
    have hphase := hs.handler
    rw [hhandler] at hphase
    cases hphase

theorem WebhookRace.invariant {cfg : Config} {s₀ s : State} {p h : ℕ} {r : PaymentRun}
    {hook : TransferWebhook} {tr : List (Move State Label)} (hrace : WebhookRace cfg s₀ p h r hook)
    (hrun : Run (step cfg) s₀ tr s) (hmoves : ∀ x ∈ tr, RaceMove r.transactionId p h x) :
    RaceInvariant p h r hook tr s := by
  obtain ⟨tr₀, hreach⟩ := hrace.reached
  obtain ⟨t, account, result, hattempt, hunder⟩ := hrace.attempt
  have hne : p ≠ h := by
    rintro rfl
    rw [hrace.webhook] at hattempt
    cases hattempt
  induction hrun with
  | nil =>
    obtain ⟨row, hrow, hprocessing, href⟩ := hrace.claimed
    have hcoherent := reaches_coherent hreach p
    rw [hattempt] at hcoherent
    obtain ⟨hid, hcopy, hpending⟩ := hcoherent
    rw [hunder] at hcopy
    refine ⟨?_, ?_, row, hrow, href, fun _ => ⟨?_, ?_, ?_⟩, by simp⟩
    · rw [hattempt]
      exact .receive hid hcopy hunder hpending
    · rw [hrace.webhook]
      exact .find rfl
    · simp [hprocessing]
    · simp [hprocessing]
    · simp [hrace.webhook]
  | @snoc tr t' u l prev last ih =>
    have hs := ih fun x hx => hmoves x (List.mem_append_left _ hx)
    rcases hmoves ⟨t', l, u⟩ (List.mem_append_right _ (List.mem_singleton_self _)) with
      ⟨o, ho⟩ | ⟨o, ho, hserved⟩ | ⟨hnp, hnh, hp, hh, hrow⟩
    · obtain rfl : l = .run p o := ho
      exact hs.attempt_move hne last
    · obtain rfl : l = .run h o := ho
      exact hs.handler_move hne (reaches_uniqueReferences (hreach.trans prev)) hserved last
    · exact hs.other hnp hnh hp hh hrow

/-- Once the handler is done, and so also when both are, the status is the webhook's outcome exactly
if the attempt has not committed over it. -/
theorem webhook_kept_iff {cfg : Config} {s₀ s : State} {p h : ℕ} {r : PaymentRun}
    {hook : TransferWebhook} {tr : List (Move State Label)} (hrace : WebhookRace cfg s₀ p h r hook)
    (hrun : Run (step cfg) s₀ tr s) (hmoves : ∀ x ∈ tr, RaceMove r.transactionId p h x)
    (hh : s.threads h = .done) :
    s.world.statusOf r.transactionId = some (.ofPayment hook.event.outcome) ↔
      overwritesWebhook p h hook tr = false := by
  obtain ⟨_, _, row, hrow, _, hbefore, hafter⟩ := hrace.invariant hrun hmoves
  have hstatus : s.world.statusOf r.transactionId = some row.status := by
    rw [World.statusOf, ← World.row, hrow, Option.map_some]
  have hdefined : overwritesWebhook p h hook tr =
      match hook.event.outcome with
      | .failed => storedSince p h tr && !failedSince p h tr
      | _ => storedSince p h tr || failedSince p h tr := rfl
  rw [hstatus, Option.some.injEq, hdefined]
  cases hsaved : webhookSaved h tr with
  | false =>
    have hstored : storedSince p h tr = false := followed_eq_false hsaved
    have hfailed : failedSince p h tr = false := followed_eq_false hsaved
    have hskipped := (hbefore hsaved).2.2 hh
    rcases outcome_cases hook.event with ho | ho <;> simp [hskipped, ho, hstored, hfailed]
  | true =>
    rw [(hafter hsaved).2]
    rcases outcome_cases hook.event with ho | ho <;> cases storedSince p h tr <;>
      cases failedSince p h tr <;> simp [ho, CashbackTransactionStatus.ofPayment]

/-! ## Schedules -/

def raceReady (s : State) (p h : ℕ) (hook : TransferWebhook) : Bool :=
  match s.threads p, s.threads h with
  | .payment r (.receive _ _ result), .webhook hook' .find =>
    result.reference = hook.reference && hook' = hook &&
      (s.world.row r.transactionId).any fun row =>
        row.status = .processing && row.providerReference = some hook.reference
  | _, _ => false

theorem raceReady_spec {cfg : Config} {tr : List (Move State Label)} {s : State} {p h : ℕ}
    {hook : TransferWebhook} (hreach : Reaches cfg tr s) (hready : raceReady s p h hook = true) :
    ∃ r, WebhookRace cfg s p h r hook := by
  unfold raceReady at hready
  split at hready
  · next r t account result hook' hp hh =>
    simp only [Bool.and_eq_true, decide_eq_true_eq, Option.any_eq_true] at hready
    obtain ⟨⟨hunder, rfl⟩, row, hrow, hprocessing, href⟩ := hready
    exact ⟨r, ⟨tr, hreach⟩, ⟨t, account, result, hp, hunder⟩, ⟨row, hrow, hprocessing, href⟩, hh⟩
  · cases hready

/-- Thread 1 has a transfer accepted, the webhook about it arrives on thread 2, and then the two
take turns as listed. -/
theorem exists_race (event : TransferEvent) (turns : List ℕ)
    (q : List (Move State Label) × State → Bool)
    (h : ((trace (step paystackConfig) initial (deliver 0 (badgeEvent 0 "Bronze" "0123456789") ++
      payNewRecipient 1 0 "RCP_1" ++ [.webhook (firstWebhook event)])).any fun start =>
        raceReady start.2 1 2 (firstWebhook event) &&
          (trace (step paystackConfig) start.2 (turns.map fun e => .run e .ok)).any fun r =>
            (r.1.all fun x => match x.label with
              | .run e .ok => e = 1 || e = 2
              | _ => false) &&
              (r.2.threads 1).isDone && (r.2.threads 2).isDone && q r) = true) :
    ∃ s₀ r tr s, WebhookRace paystackConfig s₀ 1 2 r (firstWebhook event) ∧
      Run (step paystackConfig) s₀ tr s ∧ (∀ x ∈ tr, RaceMove r.transactionId 1 2 x) ∧
      s.threads 1 = .done ∧ s.threads 2 = .done ∧ q (tr, s) = true := by
  obtain ⟨tr₀, s₀, hreach, hstart⟩ := exists_run_of_trace _ _ _ _ h
  rw [Bool.and_eq_true] at hstart
  obtain ⟨r, hrace⟩ := raceReady_spec hreach hstart.1
  obtain ⟨tr, s, hrun, hend⟩ := exists_run_of_trace _ _ _ _ hstart.2
  simp only [Bool.and_eq_true, List.all_eq_true] at hend
  refine ⟨s₀, r, tr, s, hrace, hrun, fun x hx => ?_, isDone_iff.mp hend.1.1.2, isDone_iff.mp hend.1.2,
    hend.2⟩
  have hturn := hend.1.1.1 x hx
  split at hturn
  · next e heq =>
    simp only [Bool.or_eq_true, decide_eq_true_eq] at hturn
    rcases hturn with rfl | rfl
    · exact Or.inl ⟨_, heq⟩
    · exact Or.inr (Or.inl ⟨_, heq, Or.inl rfl⟩)
  · cases hturn

theorem webhook_kept_after_store : ∃ s₀ r tr s,
    WebhookRace paystackConfig s₀ 1 2 r (firstWebhook .success) ∧
      Run (step paystackConfig) s₀ tr s ∧
      s.world.statusOf r.transactionId = some .successful := by
  obtain ⟨s₀, r, tr, s, hrace, hrun, hmoves, _, hh, hq⟩ :=
    exists_race .success [1, 1, 1, 2, 2, 2]
      (fun r => !overwritesWebhook 1 2 (firstWebhook .success) r.1) (by decide +kernel)
  rw [Bool.not_eq_true'] at hq
  exact ⟨s₀, r, tr, s, hrace, hrun, (webhook_kept_iff hrace hrun hmoves hh).mpr hq⟩

/-- The webhook is saved while the attempt still waits, and the attempt stores PENDING over it. -/
theorem webhook_overwritten : ¬ ∀ (cfg : Config) (s₀ s : State) (p h : ℕ) (r : PaymentRun)
    (hook : TransferWebhook) (tr : List (Move State Label)), WebhookRace cfg s₀ p h r hook →
    Run (step cfg) s₀ tr s → (∀ x ∈ tr, RaceMove r.transactionId p h x) →
    s.threads p = .done → s.threads h = .done →
    s.world.statusOf r.transactionId = some (.ofPayment hook.event.outcome) := by
  intro hall
  obtain ⟨s₀, r, tr, s, hrace, hrun, hmoves, hp, hh, hq⟩ :=
    exists_race .success [2, 2, 2, 1, 1, 1]
      (fun r => r.2.world.db.transactions.rows.all (·.status = .pending)) (by decide +kernel)
  have hkept := hall _ _ _ _ _ _ _ _ hrace hrun hmoves hp hh
  obtain ⟨row, hrow, hstatus⟩ := Option.map_eq_some_iff.mp hkept
  have hmem : row ∈ s.world.db.transactions.rows :=
    Table.mem_rows.mpr (by rw [s.world.db.transactions.key_eq hrow]; exact hrow)
  have hpending := of_decide_eq_true (List.all_eq_true.mp hq row hmem)
  rw [hpending] at hstatus
  cases hstatus

end Bumpa.Cashback
