import Bumpa.Cashback.Writes

/-! # One live transfer per transaction

A transfer is live while Paystack has accepted it and has not reported it failed or reversed. The
claim is meant to keep a transaction at one live transfer, but its guard is the status PENDING,
which a row also has while it waits for its webhook or after an accepted call was seen as an error.

`single_payment`: live transfers stay at most one in every run in which a claim is won only on a
settled transaction, one without a live transfer and without another attempt between its claim and
Paystack's answer. `double_payment` is a run that claims an unsettled one: the answer to an
accepted transfer is lost, and the next attempt of the job pays again under a fresh reference. A
call that rejects has been accepted before it rejects or not at all: that Paystack accepts a
transfer after the call for it was given up, is no step of a run.

The invariant is mutual exclusion: the attempts between claim and answer (`Thread.paying`) hold
the right to create the transaction's one live transfer.
-/
namespace Bumpa.Cashback
open Bumpa.Events Bumpa.Relational Bumpa.Transition
set_option autoImplicit false

def Transfer.live (k : ReadableId) (tr : Transfer) : Bool :=
  tr.transactionId = k && !tr.reported

/-- Accepted transfers of the transaction not reported failed or reversed. -/
def World.liveTransfers (w : World) (k : ReadableId) : ℕ :=
  w.paystack.transfers.countP (Transfer.live k)

/-- The transaction an attempt has claimed and may still have a transfer accepted for. -/
def Thread.paying : Thread → Option ReadableId
  | .payment r (.findAccount _ _) => some r.transactionId
  | .payment r (.saveAccount _ _ _ _) => some r.transactionId
  | .payment r (.sendCashback _ _ _) => some r.transactionId
  | .payment r (.initiateTransfer _ _ _ _) => some r.transactionId
  | _ => none

def State.settled (s : State) (k : ReadableId) : Bool :=
  s.world.liveTransfers k = 0 && (List.range s.nextThread).all fun e => (s.threads e).paying ≠ some k

/-- A claim that wins its row finds the transaction settled. -/
def claimsSettled (s : State) : Label → Bool
  | .run e .ok =>
    match s.threads e with
    | .payment r (.claim _) =>
      s.world.statusOf r.transactionId ≠ some .pending || s.settled r.transactionId
    | _ => true
  | _ => true

/-! ## What a step does to transfers and to the attempts that may create one -/

theorem liveTransfers_eq {w w' : World} (h : w'.paystack.transfers = w.paystack.transfers)
    (k : ReadableId) : w'.liveTransfers k = w.liveTransfers k := by
  rw [World.liveTransfers, h, World.liveTransfers]

theorem notifyTransfer_live (w : World) (reference : Reference) (k : ReadableId) :
    (w.notifyTransfer reference).liveTransfers k = w.liveTransfers k := by
  unfold World.liveTransfers World.notifyTransfer
  rw [List.countP_map]
  congr 1
  funext tr
  simp only [Function.comp_apply, Transfer.live]
  split <;> rfl

theorem reportTransfer_live (w : World) (reference : Reference) (k : ReadableId) :
    (w.reportTransfer reference).liveTransfers k ≤ w.liveTransfers k := by
  unfold World.liveTransfers World.reportTransfer
  rw [List.countP_map]
  refine List.countP_mono_left fun tr _ h => ?_
  simp only [Function.comp_apply, Transfer.live] at h ⊢
  split at h
  · simp at h
  · exact h

theorem acceptTransfer_live (w : World) (transfer : Transfer) (k : ReadableId) :
    (w.acceptTransfer transfer).liveTransfers k =
      w.liveTransfers k + (if transfer.live k then 1 else 0) := by
  simp only [World.liveTransfers, World.acceptTransfer, List.countP_append, List.countP_singleton]

/-- Only the acceptance by Paystack adds a live transfer, and it ends the attempt's turn. -/
theorem processPayment_live {cfg : Config} {w w' : World} {e : ℕ} {r : PaymentRun}
    {pc : PaymentPc} {o : Outcome} {th' : Thread}
    (h : processPayment cfg w e r pc o = some (w', th')) (k : ReadableId) :
    w'.liveTransfers k = w.liveTransfers k ∨
      (Thread.payment r pc).paying = some k ∧ th'.paying = none ∧
        w'.liveTransfers k = w.liveTransfers k + 1 := by
  cases pc with
  | find =>
    refine Or.inl (liveTransfers_eq ?_ k)
    simp only [processPayment, findTransaction] at h
    grind [failJob_paystack, completeJob_paystack]
  | claim t =>
    refine Or.inl (liveTransfers_eq ?_ k)
    have hclaim : ∀ j reference,
        ((w.drawIds 1).claimTransaction j reference).paystack = w.paystack := fun _ _ => rfl
    simp only [processPayment, claim] at h
    grind [failJob_paystack, completeJob_paystack, drawIds_paystack]
  | findAccount t reference =>
    refine Or.inl (liveTransfers_eq ?_ k)
    simp only [processPayment, findAccount] at h
    grind [drawIds_paystack]
  | saveAccount t reference account isNew =>
    refine Or.inl (liveTransfers_eq ?_ k)
    simp only [processPayment, saveAccount] at h
    grind [saveAccount_paystack]
  | sendCashback t account request =>
    refine Or.inl (liveTransfers_eq ?_ k)
    simp only [processPayment, sendCashback] at h
    grind [createRecipient_transfers]
  | initiateTransfer t account request recipientCode =>
    simp only [processPayment, initiateTransfer] at h
    cases o with
    | ok =>
      obtain ⟨rfl, rfl⟩ := some_pair_inj h
      rw [acceptTransfer_live]
      by_cases hk : r.transactionId = k
      · refine Or.inr ⟨by rw [Thread.paying, hk], rfl, ?_⟩
        simp [Transfer.live, hk]
      · refine Or.inl ?_
        simp [Transfer.live, hk]
    | fails error written =>
      obtain ⟨rfl, _⟩ := some_pair_inj h
      exact Or.inl rfl
    | recipient code => cases h
  | receive t account result =>
    refine Or.inl (liveTransfers_eq ?_ k)
    simp only [processPayment, receive] at h
    grind
  | store t account result =>
    refine Or.inl (liveTransfers_eq ?_ k)
    simp only [processPayment, store] at h
    grind [storeResult_paystack]
  | publish t eventIds =>
    refine Or.inl (liveTransfers_eq ?_ k)
    simp only [processPayment, publish] at h
    grind [completeJob_paystack]
  | recover t error =>
    refine Or.inl (liveTransfers_eq ?_ k)
    have hreset : (w.resetTransaction r.transactionId).paystack = w.paystack := rfl
    have hfail : ∀ failure, (w.storeFailure cfg r t failure).paystack = w.paystack := fun _ => rfl
    simp only [processPayment, recover] at h
    grind [failJob_paystack]
  | publishFailure eventId =>
    refine Or.inl (liveTransfers_eq ?_ k)
    simp only [processPayment, publishFailure] at h
    grind [completeJob_paystack, failJob_paystack]

/-- An attempt gets its turn by a claim that wins a PENDING row, and in no other way. -/
theorem processPayment_paying {cfg : Config} {w w' : World} {e : ℕ} {r : PaymentRun}
    {pc : PaymentPc} {o : Outcome} {th' : Thread}
    (h : processPayment cfg w e r pc o = some (w', th')) {k : ReadableId}
    (hk : th'.paying = some k) :
    (Thread.payment r pc).paying = some k ∨
      (∃ t, pc = .claim t) ∧ o = .ok ∧ k = r.transactionId ∧
        w.statusOf r.transactionId = some .pending := by
  cases pc with
  | find =>
    simp only [processPayment, findTransaction] at h
    grind [Thread.paying]
  | claim t =>
    simp only [processPayment, claim] at h
    grind [Thread.paying]
  | findAccount t reference =>
    simp only [processPayment, findAccount] at h
    grind [Thread.paying]
  | saveAccount t reference account isNew =>
    simp only [processPayment, saveAccount] at h
    grind [Thread.paying]
  | sendCashback t account request =>
    simp only [processPayment, sendCashback] at h
    grind [Thread.paying]
  | initiateTransfer t account request recipientCode =>
    simp only [processPayment, initiateTransfer] at h
    grind [Thread.paying]
  | receive t account result =>
    simp only [processPayment, receive] at h
    grind [Thread.paying]
  | store t account result =>
    simp only [processPayment, store] at h
    grind [Thread.paying]
  | publish t eventIds =>
    simp only [processPayment, publish] at h
    grind [Thread.paying]
  | recover t error =>
    simp only [processPayment, recover] at h
    grind [Thread.paying]
  | publishFailure eventId =>
    simp only [processPayment, publishFailure] at h
    grind [Thread.paying]

theorem handleWebhook_live {w w' : World} {hook : TransferWebhook} {pc : WebhookPc}
    {o : Outcome} {th' : Thread} (h : handleWebhook w hook pc o = some (w', th'))
    (k : ReadableId) : w'.liveTransfers k = w.liveTransfers k := by
  rcases (handleWebhook_frame h).1 with heq | heq
  · exact liveTransfers_eq (by rw [heq]) k
  · exact (liveTransfers_eq (by rw [heq]) k).trans (notifyTransfer_live w hook.reference k)

theorem advance_live {cfg : Config} {w w' : World} {e : ℕ} {th th' : Thread} {o : Outcome}
    (h : advance cfg w e th o = some (w', th')) (k : ReadableId) :
    w'.liveTransfers k = w.liveTransfers k ∨
      th.paying = some k ∧ th'.paying = none ∧ w'.liveTransfers k = w.liveTransfers k + 1 := by
  cases th with
  | done => cases h
  | badge pc => exact Or.inl (liveTransfers_eq (by rw [(handleBadgeUnlocked_frame h).1]) k)
  | payment r pc => exact processPayment_live h k
  | retry caller j event pc => exact Or.inl (liveTransfers_eq (by rw [(retryPayment_frame h).1]) k)
  | manual pc => exact Or.inl (liveTransfers_eq (by rw [(retryFailedTransaction_frame h).1]) k)
  | scan pc =>
    exact Or.inl (liveTransfers_eq
      (by rw [(retryEligibleFailedTransactions_world h).2.2]) k)
  | webhook hook pc => exact Or.inl (handleWebhook_live h k)

theorem advance_paying {cfg : Config} {w w' : World} {e : ℕ} {th th' : Thread} {o : Outcome}
    (h : advance cfg w e th o = some (w', th')) {k : ReadableId} (hk : th'.paying = some k) :
    th.paying = some k ∨ ∃ r t, th = .payment r (.claim t) ∧ o = .ok ∧ k = r.transactionId ∧
      w.statusOf r.transactionId = some .pending := by
  obtain ⟨r, pc', rfl⟩ : ∃ r pc', th' = .payment r pc' := by
    unfold Thread.paying at hk
    split at hk <;> first | exact ⟨_, _, rfl⟩ | cases hk
  obtain ⟨pc, rfl, hstep⟩ := advance_payment h
  rcases processPayment_paying hstep hk with hpc | ⟨⟨t, rfl⟩, ho, hkr, hpend⟩
  · exact Or.inl hpc
  · exact Or.inr ⟨r, t, rfl, ho, hkr, hpend⟩

/-! ## The invariant -/

structure SinglePayment (s : State) : Prop where
  beyond : ∀ e, s.nextThread ≤ e → s.threads e = .done
  unique : ∀ e e' k, (s.threads e).paying = some k → (s.threads e').paying = some k → e = e'
  exclusive : ∀ e k, (s.threads e).paying = some k → s.world.liveTransfers k = 0
  single : ∀ k, s.world.liveTransfers k ≤ 1

theorem singlePayment_initial : SinglePayment initial where
  beyond := fun _ _ => rfl
  unique := fun e e' k h => by cases h
  exclusive := fun e k h => by cases h
  single := fun k => Nat.zero_le 1

theorem settled_spec {s : State} (hs : SinglePayment s) {k : ReadableId}
    (h : s.settled k = true) :
    s.world.liveTransfers k = 0 ∧ ∀ e, (s.threads e).paying ≠ some k := by
  simp only [State.settled, Bool.and_eq_true, decide_eq_true_eq, List.all_eq_true,
    List.mem_range] at h
  refine ⟨h.1, fun e => ?_⟩
  by_cases he : e < s.nextThread
  · exact h.2 e he
  · rw [hs.beyond e (Nat.le_of_not_lt he)]
    exact fun hk => by cases hk

/-- Steps that give no attempt its turn and add no live transfer keep the invariant. -/
theorem SinglePayment.mono {s s' : State} (hs : SinglePayment s)
    (hbeyond : ∀ e, s'.nextThread ≤ e → s'.threads e = .done)
    (hpaying : ∀ e k, (s'.threads e).paying = some k → (s.threads e).paying = some k)
    (hlive : ∀ k, s'.world.liveTransfers k ≤ s.world.liveTransfers k) : SinglePayment s' where
  beyond := hbeyond
  unique := fun e e' k h h' => hs.unique e e' k (hpaying e k h) (hpaying e' k h')
  exclusive := fun e k h => Nat.le_zero.mp ((hlive k).trans_eq (hs.exclusive e k (hpaying e k h)))
  single := fun k => (hlive k).trans (hs.single k)

theorem Started.paying {th : Thread} (h : Started th) : th.paying = none := by
  cases h <;> rfl

theorem Ambient.liveTransfers {w w' : World} (h : Ambient w w') (k : ReadableId) :
    w'.liveTransfers k ≤ w.liveTransfers k := by
  cases h with
  | report reference => exact reportTransfer_live w reference k
  | _ => exact (liveTransfers_eq rfl k).le

theorem singlePayment_run {cfg : Config} {s s' : State} {e : ℕ} {o : Outcome} {th' : Thread}
    (hG : claimsSettled s (.run e o) = true) (hs : SinglePayment s)
    (hadv : advance cfg s.world e (s.threads e) o = some (s'.world, th'))
    (hnext : s'.nextThread = s.nextThread)
    (hth : ∀ e', s'.threads e' = if e' = e then th' else s.threads e') : SinglePayment s' := by
  have hself : s'.threads e = th' := by rw [hth, if_pos rfl]
  have hother : ∀ e', e' ≠ e → s'.threads e' = s.threads e' := fun e' he => by
    rw [hth, if_neg he]
  have hbeyond : ∀ e', s'.nextThread ≤ e' → s'.threads e' = .done := by
    intro e' he'
    rw [hnext] at he'
    have hne : e' ≠ e := by
      rintro rfl
      rw [hs.beyond e' he'] at hadv
      cases hadv
    rw [hother e' hne, hs.beyond e' he']
  -- a transaction in whose turn this thread is after the step was settled, or was its own before
  have hturn : ∀ k, th'.paying = some k →
      (∀ e', e' ≠ e → (s.threads e').paying ≠ some k) ∧ s.world.liveTransfers k = 0 := by
    intro k hk
    rcases advance_paying hadv hk with hown | ⟨r, t, hpc, rfl, rfl, hpend⟩
    · exact ⟨fun e' he' hk' => he' (hs.unique e' e k hk' hown), hs.exclusive e k hown⟩
    · simp only [claimsSettled, hpc, hpend, ne_eq, not_true_eq_false, decide_false,
        Bool.false_or] at hG
      obtain ⟨hlive, hfree⟩ := settled_spec hs hG
      exact ⟨fun e' _ => hfree e', hlive⟩
  have hlive : ∀ e' k, (s'.threads e').paying = some k →
      s'.world.liveTransfers k = s.world.liveTransfers k := by
    intro e' k hk
    rcases advance_live hadv k with heq | ⟨hown, hnone, _⟩
    · exact heq
    · by_cases he' : e' = e
      · subst he'
        rw [hself, hnone] at hk
        cases hk
      · rw [hother e' he'] at hk
        exact absurd (hs.unique e' e k hk hown) he'
  refine ⟨hbeyond, ?_, ?_, ?_⟩
  · intro e₁ e₂ k h₁ h₂
    by_cases he₁ : e₁ = e <;> by_cases he₂ : e₂ = e
    · rw [he₁, he₂]
    · subst he₁
      rw [hself] at h₁
      rw [hother e₂ he₂] at h₂
      exact absurd h₂ ((hturn k h₁).1 e₂ he₂)
    · subst he₂
      rw [hself] at h₂
      rw [hother e₁ he₁] at h₁
      exact absurd h₁ ((hturn k h₂).1 e₁ he₁)
    · rw [hother e₁ he₁] at h₁
      rw [hother e₂ he₂] at h₂
      exact hs.unique e₁ e₂ k h₁ h₂
  · intro e' k hk
    rw [hlive e' k hk]
    by_cases he' : e' = e
    · subst he'
      rw [hself] at hk
      exact (hturn k hk).2
    · rw [hother e' he'] at hk
      exact hs.exclusive e' k hk
  · intro k
    rcases advance_live hadv k with heq | ⟨hown, _, hone⟩
    · rw [heq]
      exact hs.single k
    · rw [hone, hs.exclusive e k hown]

theorem singlePayment_step {cfg : Config} (s : State) (l : Label) (s' : State)
    (hG : claimsSettled s l = true) (hs : SinglePayment s) (h : step cfg s l = some s') :
    SinglePayment s' := by
  rcases step_cases h with ⟨e, o, th', rfl, hadv, hnext, hth⟩ | ⟨hw, _, hrest⟩
  · exact singlePayment_run hG hs hadv hnext hth
  · rcases hrest with ⟨th, hstarted, hnext, hth⟩ | ⟨hnext, hth⟩
    · refine hs.mono (fun e he => ?_) (fun e k hk => ?_) hw.liveTransfers
      · rw [hth, if_neg (by omega)]
        exact hs.beyond e (by omega)
      · rw [hth] at hk
        split at hk
        · rw [hstarted.paying] at hk
          cases hk
        · exact hk
    · refine hs.mono (fun e he => ?_) (fun e k hk => ?_) hw.liveTransfers
      · rcases hth e with heq | heq
        · rw [heq]
          exact hs.beyond e (hnext ▸ he)
        · exact heq
      · rcases hth e with heq | heq
        · rw [heq] at hk
          exact hk
        · rw [heq] at hk
          cases hk

/-- If every claim that wins its row finds the transaction settled, a transaction never has two
live transfers. -/
theorem single_payment {cfg : Config} {tr : List (Move State Label)} {s : State}
    (h : Reaches cfg tr s) (hG : Guarded (fun s l => claimsSettled s l = true) tr)
    (k : ReadableId) : s.world.liveTransfers k ≤ 1 :=
  (Run.guarded_invariant SinglePayment singlePayment_step h hG singlePayment_initial).1.single k

theorem single_payment_undisturbed : ∃ tr s, Reaches paystackConfig tr s ∧
    s.world.liveTransfers 0 = 1 ∧ ∀ k, s.world.liveTransfers k ≤ 1 := by
  obtain ⟨tr, s, h, hp⟩ := exists_run_of_trace (step paystackConfig) initial
    (deliver 0 (badgeEvent 0 "Bronze" "0123456789") ++ payNewRecipient 1 0 "RCP_1" ++
      Label.oks 1 3)
    (fun r => (r.1.all fun x => claimsSettled x.source x.label) &&
      decide (r.2.world.liveTransfers 0 = 1)) (by decide +kernel)
  rw [Bool.and_eq_true, decide_eq_true_eq] at hp
  exact ⟨tr, s, h, hp.2, single_payment h (guarded_of_all hp.1)⟩

/-- The answer to an accepted transfer is lost, and the next attempt of the job pays again. -/
theorem double_payment : ¬ ∀ (cfg : Config) (tr : List (Move State Label)) (s : State),
    Reaches cfg tr s → ∀ k, s.world.liveTransfers k ≤ 1 := by
  intro hall
  obtain ⟨tr, s, h, htwo⟩ := exists_run_of_trace (step paystackConfig) initial
    (deliver 0 (badgeEvent 0 "Bronze" "0123456789") ++ payNewRecipient 1 0 "RCP_1" ++
      [.run 1 (.fails fetchFailed false), .run 1 .ok] ++ payNewRecipient 2 0 "RCP_1")
    (fun r => decide (r.2.world.liveTransfers 0 = 2)) (by decide +kernel)
  have hle := hall paystackConfig tr s h 0
  have heq : s.world.liveTransfers 0 = 2 := of_decide_eq_true htwo
  omega

end Bumpa.Cashback
