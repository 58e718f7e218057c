import Bumpa.Cashback.Attempts

/-! # What carries a PENDING or PROCESSING row on

Nothing ever looks for PENDING or PROCESSING rows, so something has to carry each of them on. For
either it may be a webhook that Paystack still owes (`World.webhookDue`); for a PENDING row also a
job that BullMQ will start (`State.jobDue`) or an attempt on its way to the claim; for a PROCESSING
row the attempt whose claim it is in, as long as that runs. `State.notStranded` says that one of
them is there. Between the flip of `retryPayment` and the job it adds, only that thread is.

The sections say of each kind of support what a step of a thread does to it.
-/
namespace Bumpa.Cashback
open Bumpa.Events Bumpa.Relational Bumpa.Transition
set_option autoImplicit false

/-! ## Supports -/

def CashbackTransaction.isOpen (row : CashbackTransaction) : Bool :=
  row.status = .pending || row.status = .processing

/-- Paystack has accepted a transfer under the row's reference and owes the webhook. -/
def World.webhookDue (w : World) (row : CashbackTransaction) : Bool :=
  w.paystack.transfers.any fun tr =>
    row.providerReference = some tr.request.reference && !tr.notified

/-- BullMQ will start the job: it waits, or its worker is gone and it may stall once more. -/
def Job.startable (threads : ℕ → Thread) (k : ReadableId) (job : Job) : Bool :=
  job.transactionId = k &&
    match job.state with
    | .waiting => true
    | .active e => (threads e).isDone && job.stalledCount < maxStalledCount
    | .failed => false

def State.jobDue (s : State) (k : ReadableId) : Bool :=
  (List.range s.world.queue.nextJob).any fun j =>
    (s.world.queue.jobs j).any (Job.startable s.threads k)

/-- An attempt on its way to the claim. -/
def Thread.claims (k : ReadableId) : Thread → Bool
  | .payment r .find => r.transactionId = k
  | .payment r (.claim _) => r.transactionId = k
  | _ => false

/-- The attempt whose claim the row is in, before its last write of the row. -/
def Thread.settles (row : CashbackTransaction) : Thread → Bool
  | .payment _ (.publish _ _) => false
  | .payment r pc => (Thread.payment r pc).copy.any fun t =>
      t.id = row.id && t.providerReference = row.providerReference
  | _ => false

/-- `retryPayment` between its flip and its job. -/
def Thread.revives (k : ReadableId) : Thread → Bool
  | .retry _ k' _ .enqueue => k' = k
  | _ => false

/-- The attempt will claim the row or settle it. -/
def Thread.attempts (row : CashbackTransaction) (th : Thread) : Bool :=
  row.status = .pending && th.claims row.id || row.status = .processing && th.settles row

def Thread.supports (row : CashbackTransaction) (th : Thread) : Bool :=
  th.attempts row || row.status = .pending && th.revives row.id

/-- A job or an attempt, or a webhook to come, will carry an open row on. -/
def State.notStranded (s : State) (row : CashbackTransaction) : Bool :=
  !row.isOpen || s.world.webhookDue row || row.status = .pending && s.jobDue row.id ||
    (List.range s.nextThread).any fun e => (s.threads e).attempts row

/-- The same with the retries counted in, and of the threads only those in `live`. -/
def State.supported (s : State) (live : ℕ → Bool) (row : CashbackTransaction) : Bool :=
  !row.isOpen || s.world.webhookDue row || row.status = .pending && s.jobDue row.id ||
    (List.range s.nextThread).any fun e => live e && (s.threads e).supports row

/-- The job of the attempt goes back to the waiting list if the attempt fails now. -/
def World.goesBack (w : World) (e : ℕ) (r : PaymentRun) : Bool :=
  (w.queue.jobs r.job).any fun job => job.transactionId = r.transactionId &&
    job.state = .active e && job.attemptsMade + 1 < jobAttempts

/-! ## The supports one by one -/

theorem supported_iff {s : State} {live : ℕ → Bool} {row : CashbackTransaction} :
    s.supported live row = true ↔ row.isOpen = false ∨ s.world.webhookDue row = true ∨
      (row.status = .pending ∧ s.jobDue row.id = true) ∨
      ∃ e < s.nextThread, live e = true ∧ (s.threads e).supports row = true := by
  simp [State.supported, or_assoc]

theorem notStranded_of_supported {s : State} {live : ℕ → Bool} {row : CashbackTransaction}
    (h : s.supported live row = true) :
    s.notStranded row = true ∨ ∃ e, (s.threads e).revives row.id = true := by
  rcases supported_iff.mp h with h | h | ⟨hpending, h⟩ | ⟨e, he, _, h⟩
  · exact Or.inl (by simp [State.notStranded, h])
  · exact Or.inl (by simp [State.notStranded, h])
  · exact Or.inl (by simp [State.notStranded, hpending, h])
  · rw [Thread.supports, Bool.or_eq_true] at h
    rcases h with h | h
    · refine Or.inl ?_
      rw [State.notStranded, Bool.or_eq_true]
      exact Or.inr (List.any_eq_true.mpr ⟨e, List.mem_range.mpr he, h⟩)
    · rw [Bool.and_eq_true] at h
      exact Or.inr ⟨e, h.2⟩

theorem jobDue_iff {s : State} {k : ReadableId} : s.jobDue k = true ↔
    ∃ j job, j < s.world.queue.nextJob ∧ s.world.queue.jobs j = some job ∧
      job.startable s.threads k = true := by
  simp only [State.jobDue, List.any_eq_true, List.mem_range, Option.any_eq_true]
  constructor
  · rintro ⟨j, hj, job, hjob, hstart⟩
    exact ⟨j, job, hj, hjob, hstart⟩
  · rintro ⟨j, job, hj, hjob, hstart⟩
    exact ⟨j, hj, job, hjob, hstart⟩

/-! ## Jobs -/

/-- Thread `e` adds jobs, and changes only a job that is active on it. -/
structure KeepsJobs (e : ℕ) (w w' : World) : Prop where
  nextJob : w.queue.nextJob ≤ w'.queue.nextJob
  jobs : ∀ j job, j < w.queue.nextJob → w.queue.jobs j = some job → job.state ≠ .active e →
    w'.queue.jobs j = some job
  beyond : ∀ j, w'.queue.nextJob ≤ j → w.queue.jobs j = none → w'.queue.jobs j = none
  active : ∀ j job e', w'.queue.jobs j = some job → job.state = .active e' →
    w.queue.jobs j = some job

theorem KeepsJobs.of_eq {e : ℕ} {w w' : World} (h : w'.queue = w.queue) : KeepsJobs e w w' := by
  constructor
  · rw [h]
  · intro j job _ hjob _
    rw [h, hjob]
  · intro j _ hjob
    rw [h, hjob]
  · intro j job e' hjob _
    rw [← h, hjob]

theorem addJob_keepsJobs (e : ℕ) (w : World) (k : ReadableId) (event : BadgeUnlockedEvent) :
    KeepsJobs e w (w.addJob k event) := by
  constructor
  · exact Nat.le_succ _
  · intro j job hj hjob _
    exact (Function.update_of_ne (Nat.ne_of_lt hj) _ _).trans hjob
  · intro j hj hjob
    exact (Function.update_of_ne (Nat.ne_of_gt hj) _ _).trans hjob
  · intro j job e' hjob hactive
    simp only [World.addJob, Function.update_apply] at hjob
    split at hjob
    · cases hjob
      cases hactive
    · exact hjob

/-- The job's thread ends its own run of the job. -/
theorem setJob_keepsJobs {e j : ℕ} {w : World} {job : Job} {new : Option Job}
    (h : w.queue.jobs j = some job) (hactive : job.state = .active e)
    (hnew : ∀ job' ∈ new, ∀ e', job'.state ≠ .active e') :
    KeepsJobs e w (w.setJob j new) := by
  constructor
  · exact Nat.le_refl _
  · intro j' job' _ hjob' hne
    refine (Function.update_of_ne ?_ _ _).trans hjob'
    rintro rfl
    rw [h, Option.some.injEq] at hjob'
    exact hne (hjob' ▸ hactive)
  · intro j' _ hjob'
    refine (Function.update_of_ne ?_ _ _).trans hjob'
    rintro rfl
    rw [h] at hjob'
    cases hjob'
  · intro j' job' e' hjob' hactive'
    simp only [World.setJob, Function.update_apply] at hjob'
    split at hjob'
    · exact absurd hactive' (hnew job' hjob' e')
    · exact hjob'

theorem completeJob_keepsJobs (e j : ℕ) (w : World) : KeepsJobs e w (w.completeJob e j) := by
  unfold World.completeJob
  split
  · next job hjob =>
    split
    · next hactive => exact setJob_keepsJobs hjob hactive (by simp)
    · exact KeepsJobs.of_eq rfl
  · exact KeepsJobs.of_eq rfl

theorem failJob_keepsJobs (e j : ℕ) (w : World) : KeepsJobs e w (w.failJob e j) := by
  unfold World.failJob
  split
  · next job hjob =>
    split
    · next hactive =>
      refine setJob_keepsJobs hjob hactive ?_
      rintro job' ⟨⟩ e'
      dsimp only
      split <;> simp
    · exact KeepsJobs.of_eq rfl
  · exact KeepsJobs.of_eq rfl

theorem KeepsJobs.after {e : ℕ} {w v w' : World} (h : KeepsJobs e v w')
    (hv : v.queue = w.queue) : KeepsJobs e w w' := by
  constructor
  · rw [← hv]
    exact h.nextJob
  · intro j job hj hjob hne
    rw [← hv] at hj hjob
    exact h.jobs j job hj hjob hne
  · intro j hj hjob
    rw [← hv] at hjob
    exact h.beyond j hj hjob
  · intro j job e' hjob hactive
    rw [← hv]
    exact h.active j job e' hjob hactive

theorem failJob_queue {e j : ℕ} {v w : World} (h : v.queue = w.queue) :
    (v.failJob e j).queue = (w.failJob e j).queue := by
  unfold World.failJob
  rw [h]
  split
  · split
    · simp only [World.setJob, h]
    · exact h
  · exact h

/-- The attempt has failed, and its job goes back. -/
theorem failJob_goesBack {w : World} {e : ℕ} {r : PaymentRun} (h : w.goesBack e r = true) :
    ∃ job, (w.failJob e r.job).queue.jobs r.job = some job ∧
      job.transactionId = r.transactionId ∧ job.state = .waiting := by
  obtain ⟨job, hjob, hback⟩ := (Option.any_eq_true _ _).mp h
  simp only [Bool.and_eq_true, decide_eq_true_eq] at hback
  obtain ⟨⟨hk, hactive⟩, hattempts⟩ := hback
  refine ⟨{ job with attemptsMade := job.attemptsMade + 1, state := .waiting }, ?_, hk, rfl⟩
  simp only [World.failJob, hjob, hactive, if_true, hattempts]
  exact Function.update_self _ _ _

theorem commitBadge_queue (w : World) (e : ℕ) (event : BadgeUnlockedEvent)
    (t : CashbackTransaction) : (w.commitBadge e event t).queue = w.queue := by
  unfold World.commitBadge
  split <;> split <;> rfl

theorem processPayment_jobs {cfg : Config} {w w' : World} {e : ℕ} {r : PaymentRun}
    {pc : PaymentPc} {o : Outcome} {th' : Thread}
    (h : processPayment cfg w e r pc o = some (w', th')) : KeepsJobs e w w' := by
  have hfail : ∀ v : World, v.queue = w.queue → KeepsJobs e w (v.failJob e r.job) :=
    fun v hv => (failJob_keepsJobs e r.job v).after hv
  have hcomplete : ∀ v : World, v.queue = w.queue → KeepsJobs e w (v.completeJob e r.job) :=
    fun v hv => (completeJob_keepsJobs e r.job v).after hv
  have hsame : ∀ v : World, v.queue = w.queue → KeepsJobs e w v := fun v => KeepsJobs.of_eq
  have hclaim : ∀ k reference, ((w.drawIds 1).claimTransaction k reference).queue = w.queue :=
    fun _ _ => rfl
  have hreset : (w.resetTransaction r.transactionId).queue = w.queue := rfl
  have hstore : ∀ t failure, (w.storeFailure cfg r t failure).queue = w.queue := fun _ _ => rfl
  have haccept : ∀ transfer, (w.acceptTransfer transfer).queue = w.queue := fun _ => rfl
  cases pc
  all_goals
    simp only [processPayment, findTransaction, claim, findAccount, saveAccount, sendCashback,
      initiateTransfer, receive, store, publish, recover, publishFailure] at h
    grind [drawIds_queue, saveAccount_queue, createRecipient_queue, storeResult_queue]

theorem advance_jobs {cfg : Config} {w w' : World} {e : ℕ} {th th' : Thread} {o : Outcome}
    (h : advance cfg w e th o = some (w', th')) : KeepsJobs e w w' := by
  have hsame : ∀ v : World, v.queue = w.queue → KeepsJobs e w v := fun v => KeepsJobs.of_eq
  have hadd : ∀ k event, KeepsJobs e w (w.addJob k event) := addJob_keepsJobs e w
  cases th with
  | done => cases h
  | badge pc =>
    have hunlock : ∀ v : World, KeepsJobs e w v → KeepsJobs e w (v.unlock e) :=
      fun v hv => ⟨hv.nextJob, hv.jobs, hv.beyond, hv.active⟩
    simp only [advance] at h
    unfold handleBadgeUnlocked at h
    grind [unlock_queue, lock_queue, drawIds_queue, commitBadge_queue]
  | payment r pc => exact processPayment_jobs h
  | retry caller k event pc =>
    have hrevive : (w.reviveTransaction k).queue = w.queue := rfl
    simp only [advance] at h
    unfold retryPayment at h
    grind
  | manual pc =>
    have hreset : ∀ k, (w.resetRetryCount k).queue = w.queue := fun _ => rfl
    simp only [advance] at h
    unfold retryFailedTransaction at h
    grind [drawIds_queue, saveAccount_queue]
  | scan pc => exact KeepsJobs.of_eq (retryEligibleFailedTransactions_world h).2.1
  | webhook hook pc =>
    have hstore : ∀ t, (w.storeWebhook hook t).queue = w.queue := fun _ => rfl
    simp only [advance] at h
    unfold handleWebhook at h
    grind [notifyTransfer_queue]

/-- Jobs and the threads they are active on have numbers that are not still to come. -/
structure JobsKnown (s : State) : Prop where
  beyond : ∀ j, s.world.queue.nextJob ≤ j → s.world.queue.jobs j = none
  active : ∀ j job e, s.world.queue.jobs j = some job → job.state = .active e → e < s.nextThread

theorem JobsKnown.lt {s : State} (hs : JobsKnown s) {j : ℕ} {job : Job}
    (h : s.world.queue.jobs j = some job) : j < s.world.queue.nextJob := by
  refine Nat.lt_of_not_le fun hle => ?_
  rw [hs.beyond j hle] at h
  cases h

/-- A job is replaced by one that is not active, or active on a known thread. -/
theorem JobsKnown.setJob {s s' : State} (hs : JobsKnown s) {j : ℕ} {job new : Job}
    (hjob : s.world.queue.jobs j = some job) (hw : s'.world = s.world.setJob j (some new))
    (hnext : s.nextThread ≤ s'.nextThread)
    (hnew : ∀ e, new.state = .active e → e < s'.nextThread) : JobsKnown s' := by
  have hjobs : ∀ j', s'.world.queue.jobs j' =
      if j' = j then some new else s.world.queue.jobs j' := fun j' => by
    rw [hw]
    exact Function.update_apply _ _ _ _
  constructor
  · intro j' hj'
    have hlt := hs.lt hjob
    rw [hw] at hj'
    rw [hjobs, if_neg (Nat.ne_of_gt (Nat.lt_of_lt_of_le hlt hj'))]
    exact hs.beyond j' hj'
  · intro j' job' e hjob' hactive
    rw [hjobs] at hjob'
    split at hjob'
    · cases hjob'
      exact hnew e hactive
    · exact Nat.lt_of_lt_of_le (hs.active j' job' e hjob' hactive) hnext

theorem JobsKnown.of_queue {s s' : State} (hs : JobsKnown s)
    (hqueue : s'.world.queue = s.world.queue) (hnext : s.nextThread ≤ s'.nextThread) :
    JobsKnown s' := by
  constructor
  · rw [hqueue]
    exact hs.beyond
  · intro j job e hjob hactive
    rw [hqueue] at hjob
    exact Nat.lt_of_lt_of_le (hs.active j job e hjob hactive) hnext

theorem reaches_jobsKnown {cfg : Config} {tr : List (Move State Label)} {s : State}
    (h : Reaches cfg tr s) : JobsKnown s := by
  refine Run.invariant JobsKnown ?_ h ⟨fun _ _ => rfl, fun _ _ _ h => by cases h⟩
  intro s l s' hs hstep
  cases l with
  | run e o =>
    obtain ⟨th', hadv, hnext, _⟩ := step_run hstep
    have hkeeps := advance_jobs hadv
    constructor
    · exact fun j hj => hkeeps.beyond j hj (hs.beyond j (Nat.le_trans hkeeps.nextJob hj))
    · intro j job e' hjob hactive
      rw [hnext]
      exact hs.active j job e' (hkeeps.active j job e' hjob hactive) hactive
  | takeJob j₀ =>
    obtain ⟨job, hjob, _, hw, hnext, _⟩ := takeJob_spec hstep
    refine hs.setJob hjob hw (by omega) ?_
    rintro e ⟨⟩
    omega
  | stallJob j₀ =>
    obtain ⟨job, e, hjob, _, rfl⟩ := stallJob_spec hstep
    refine hs.setJob hjob rfl (Nat.le_refl _) fun e' hactive => ?_
    dsimp only at hactive
    split at hactive <;> cases hactive
  | webhook hook =>
    obtain ⟨hw, hnext, _⟩ := receiveWebhook_spec hstep
    refine hs.of_queue ?_ (by omega)
    rcases hw with hw | ⟨_, hw⟩ <;> rw [hw]
    rfl
  | tick ms | crash e =>
    cases hstep
    exact hs.of_queue rfl (Nat.le_refl _)
  | _ =>
    cases hstep
    exact hs.of_queue rfl (Nat.le_succ _)

/-! ## Webhooks to come -/

theorem webhookDue_iff {w : World} {row : CashbackTransaction} : w.webhookDue row = true ↔
    ∃ tr ∈ w.paystack.transfers,
      row.providerReference = some tr.request.reference ∧ tr.notified = false := by
  simp [World.webhookDue]

theorem webhookDue_congr {w : World} {row row' : CashbackTransaction}
    (h : row'.providerReference = row.providerReference) :
    w.webhookDue row' = w.webhookDue row := by
  rw [World.webhookDue, h]
  rfl

/-- Paystack owes the webhooks it owed. -/
def KeepsDue (w w' : World) : Prop :=
  ∀ row, w.webhookDue row = true → w'.webhookDue row = true

theorem KeepsDue.of_append {w w' : World} {extra : List Transfer}
    (h : w'.paystack.transfers = w.paystack.transfers ++ extra) : KeepsDue w w' := by
  intro row hdue
  obtain ⟨tr, htr, hrest⟩ := webhookDue_iff.mp hdue
  exact webhookDue_iff.mpr ⟨tr, h ▸ List.mem_append_left _ htr, hrest⟩

theorem KeepsDue.of_eq {w w' : World} (h : w'.paystack.transfers = w.paystack.transfers) :
    KeepsDue w w' :=
  KeepsDue.of_append (h.trans (List.append_nil _).symm)

theorem reportTransfer_due (w : World) (reference : Reference) :
    KeepsDue w (w.reportTransfer reference) := by
  intro row hdue
  obtain ⟨tr, htr, href, hnotified⟩ := webhookDue_iff.mp hdue
  refine webhookDue_iff.mpr ⟨_, List.mem_map_of_mem htr, ?_⟩
  split <;> exact ⟨href, hnotified⟩

/-- Taking in a webhook settles what is owed under its reference only. -/
theorem notifyTransfer_due {w w' : World} {reference : Reference}
    (h : w'.paystack = (w.notifyTransfer reference).paystack) {row : CashbackTransaction}
    (hdue : w.webhookDue row = true) (hne : row.providerReference ≠ some reference) :
    w'.webhookDue row = true := by
  obtain ⟨tr, htr, href, hnotified⟩ := webhookDue_iff.mp hdue
  refine webhookDue_iff.mpr ⟨tr, ?_, href, hnotified⟩
  rw [h]
  refine List.mem_map.mpr ⟨tr, htr, if_neg ?_⟩
  rintro rfl
  exact hne href

theorem processPayment_due {cfg : Config} {w w' : World} {e : ℕ} {r : PaymentRun}
    {pc : PaymentPc} {o : Outcome} {th' : Thread}
    (h : processPayment cfg w e r pc o = some (w', th')) : KeepsDue w w' := by
  have hsame : ∀ v : World, v.paystack.transfers = w.paystack.transfers → KeepsDue w v :=
    fun v => KeepsDue.of_eq
  have hfail : ∀ v : World, v.paystack = w.paystack → KeepsDue w (v.failJob e r.job) :=
    fun v hv => KeepsDue.of_eq (by rw [failJob_paystack, hv])
  have hcomplete : ∀ v : World, v.paystack = w.paystack → KeepsDue w (v.completeJob e r.job) :=
    fun v hv => KeepsDue.of_eq (by rw [completeJob_paystack, hv])
  have hclaim : ∀ k reference,
      ((w.drawIds 1).claimTransaction k reference).paystack = w.paystack := fun _ _ => rfl
  have hreset : (w.resetTransaction r.transactionId).paystack = w.paystack := rfl
  have hstore : ∀ t failure, (w.storeFailure cfg r t failure).paystack = w.paystack :=
    fun _ _ => rfl
  have haccept : ∀ transfer, KeepsDue w (w.acceptTransfer transfer) :=
    fun _ => KeepsDue.of_append rfl
  cases pc
  all_goals
    simp only [processPayment, findTransaction, claim, findAccount, saveAccount, sendCashback,
      initiateTransfer, receive, store, publish, recover, publishFailure] at h
    grind [drawIds_paystack, saveAccount_paystack, createRecipient_transfers, storeResult_paystack]

/-- Only a webhook handler takes in a webhook. -/
theorem advance_due {cfg : Config} {w w' : World} {e : ℕ} {th th' : Thread} {o : Outcome}
    (h : advance cfg w e th o = some (w', th')) (hth : ∀ hook pc, th ≠ .webhook hook pc) :
    KeepsDue w w' := by
  cases th with
  | done => cases h
  | badge pc => exact KeepsDue.of_eq (by rw [(handleBadgeUnlocked_frame h).1])
  | payment r pc => exact processPayment_due h
  | retry caller k event pc => exact KeepsDue.of_eq (by rw [(retryPayment_frame h).1])
  | manual pc => exact KeepsDue.of_eq (by rw [(retryFailedTransaction_frame h).1])
  | scan pc => exact KeepsDue.of_eq (by rw [(retryEligibleFailedTransactions_world h).2.2])
  | webhook hook pc => exact absurd rfl (hth hook pc)

/-- A webhook that is taken in found no row, found one that is closed, or closes its row. -/
theorem handleWebhook_cases {w w' : World} {hook : TransferWebhook} {pc : WebhookPc} {o : Outcome}
    {th' : Thread} (h : handleWebhook w hook pc o = some (w', th')) :
    (w'.paystack = w.paystack ∧ w'.db.transactions = w.db.transactions) ∨
    (w'.paystack = (w.notifyTransfer hook.reference).paystack ∧
      ((w'.db = w.db ∧ ∀ t, w.findByReference hook.reference = some t → t.isOpen = false) ∨
        ∃ t, pc = .save t ∧ ∀ k, w'.row k = if k = t.id then some (hook.mark t) else w.row k)) := by
  have hsaved : ∀ t k, (w.storeWebhook hook t).row k =
      if k = t.id then some (hook.mark t) else w.row k := fun t k => by
    rw [World.row, storeWebhook_transactions, saveTransaction_row, mark_id]
  have hclosed : ∀ t : CashbackTransaction, t.status = .ofPayment hook.event.outcome →
      t.isOpen = false := fun t ht => by
    rcases outcome_cases hook.event with heq | heq <;>
      simp [CashbackTransaction.isOpen, ht, heq, CashbackTransactionStatus.ofPayment]
  have hpaystack : ∀ t, (w.storeWebhook hook t).paystack =
      (w.notifyTransfer hook.reference).paystack := fun _ => rfl
  unfold handleWebhook at h
  grind [notifyTransfer_db]

/-! ## A thread's own support -/

theorem payment_supports {r : PaymentRun} {pc : PaymentPc} {row : CashbackTransaction} :
    (Thread.payment r pc).supports row = true ↔
      (row.status = .pending ∧ (Thread.payment r pc).claims row.id = true) ∨
      (row.status = .processing ∧ (Thread.payment r pc).settles row = true) := by
  simp [Thread.supports, Thread.attempts, Thread.revives]

theorem claims_iff {r : PaymentRun} {pc : PaymentPc} {k : ReadableId} :
    (Thread.payment r pc).claims k = true ↔
      (pc = .find ∨ ∃ t, pc = .claim t) ∧ r.transactionId = k := by
  cases pc <;> simp [Thread.claims]

theorem claimTransaction_row {w : World} {k : ReadableId} {row : CashbackTransaction}
    (hrow : w.row k = some row) (hpending : row.status = .pending) (n : ℕ) (reference : Reference) :
    ((w.drawIds n).claimTransaction k reference).row k = some (row.claimed reference) := by
  have hid : ∀ t : CashbackTransaction, (t.claimed reference).id = t.id := fun _ => rfl
  have hdrawn : (w.drawIds n).row k = some row := hrow
  refine (updateTransaction_row _ hid hdrawn).trans ?_
  rw [if_pos (by simpa using hpending)]

/-- An attempt on its way to the claim stays there, or its failure ends it. -/
theorem payment_claims {cfg : Config} {w w' : World} {e : ℕ} {r : PaymentRun} {pc : PaymentPc}
    {o : Outcome} {th' : Thread} (h : processPayment cfg w e r pc o = some (w', th'))
    {row : CashbackTransaction} (hrow : w.row row.id = some row)
    (hrow' : w'.row row.id = some row) (hpending : row.status = .pending)
    (hclaims : (Thread.payment r pc).claims row.id = true) :
    th'.claims row.id = true ∨
      (((pc = .find ∧ ∃ error written, o = .fails error written) ∨
        ∃ t error, pc = .claim t ∧ o = .fails error false) ∧
        w'.queue = (w.failJob e r.job).queue) := by
  obtain ⟨hpc, hk⟩ := claims_iff.mp hclaims
  rcases hpc with rfl | ⟨t, rfl⟩
  · simp only [processPayment, findTransaction, hk] at h
    grind [Thread.claims]
  · have hclaimed : ∀ n reference,
        ((w.drawIds n).claimTransaction r.transactionId reference).row row.id ≠ some row := by
      intro n reference heq
      rw [hk, claimTransaction_row hrow hpending, Option.some.injEq] at heq
      rw [← heq] at hpending
      cases hpending
    have hstatus : w.statusOf r.transactionId = some .pending := by
      rw [hk, World.statusOf, ← World.row, hrow, Option.map_some, hpending]
    cases o with
    | ok =>
      simp only [processPayment, claim, hstatus, if_true] at h
      split at h
      · obtain ⟨rfl, _⟩ := some_pair_inj h
        exact absurd hrow' (hclaimed _ _)
      · cases h
    | fails error written =>
      cases written with
      | false =>
        obtain ⟨rfl, _⟩ := some_pair_inj h
        exact Or.inr ⟨Or.inr ⟨t, error, rfl, rfl⟩, failJob_queue rfl⟩
      | true =>
        simp only [processPayment, claim] at h
        split at h
        · obtain ⟨rfl, _⟩ := some_pair_inj h
          rw [World.row, failJob_db] at hrow'
          exact absurd hrow' (hclaimed _ _)
        · cases h
    | recipient code => cases h

theorem settles_iff {r : PaymentRun} {pc : PaymentPc} {row : CashbackTransaction} :
    (Thread.payment r pc).settles row = true ↔ (∀ t ids, pc ≠ .publish t ids) ∧
      ∃ t, (Thread.payment r pc).copy = some t ∧ t.id = row.id ∧
        t.providerReference = row.providerReference := by
  cases pc <;> simp [Thread.settles, Thread.copy]

/-- The attempt whose claim the row is in goes on with it, or ends by a catch block that cannot
write the row. -/
theorem payment_settles {cfg : Config} {w w' : World} {e : ℕ} {r : PaymentRun} {pc : PaymentPc}
    {o : Outcome} {th' : Thread} (h : processPayment cfg w e r pc o = some (w', th'))
    (hpc : pc.Coherent r) {row : CashbackTransaction} (hrow : w.row row.id = some row)
    (hrow' : w'.row row.id = some row) (hprocessing : row.status = .processing)
    (hsettles : (Thread.payment r pc).settles row = true) :
    th'.settles row = true ∨ ∃ t error, pc = .recover t error ∧ o.takesEffect = false := by
  obtain ⟨hpublish, t, hcopy, hid, href⟩ := settles_iff.mp hsettles
  cases pc with
  | find => cases hcopy
  | claim t => cases hcopy
  | publishFailure eventId => cases hcopy
  | publish t ids => exact absurd rfl (hpublish t ids)
  | store t₀ account result =>
    cases hcopy
    have hrows := store_rows h row.id
    by_cases heffect : o.takesEffect = true
    · rw [if_pos ⟨heffect, hid.symm⟩, hrow', Option.some.injEq] at hrows
      rw [hrows] at hprocessing
      cases hstatus : result.status <;>
        simp [CashbackTransaction.withResult, hstatus, CashbackTransactionStatus.ofPayment]
          at hprocessing
    · refine Or.inl ?_
      cases o with
      | ok => exact absurd rfl heffect
      | fails error written =>
        cases written with
        | true => exact absurd rfl heffect
        | false =>
          obtain ⟨_, rfl⟩ := some_pair_inj h
          refine settles_iff.mpr ⟨by simp, _, rfl, hid, ?_⟩
          rw [← href, hpc.2.1]
          rfl
      | recipient code => cases h
  | recover t₀ error =>
    cases hcopy
    refine Or.inr ⟨t, error, rfl, ?_⟩
    rw [← Bool.not_eq_true]
    intro heffect
    have hkey : r.transactionId = row.id := hpc.symm.trans hid
    have hreset : (w.resetTransaction r.transactionId).row row.id ≠ some row := by
      rw [hkey, resetTransaction_row hrow, if_pos hprocessing]
      intro heq
      rw [← Option.some.inj heq] at hprocessing
      cases hprocessing
    have hfailed : ∀ failure, (w.storeFailure cfg r t failure).row row.id ≠ some row := by
      intro failure heq
      rw [storeFailure_row, if_pos hid.symm] at heq
      rw [← Option.some.inj heq] at hprocessing
      cases hprocessing
    have hdb : ∀ v : World, (v.failJob e r.job).row row.id = v.row row.id := fun v => by
      rw [World.row, failJob_db]
    simp only [processPayment, recover] at h
    grind [Outcome.takesEffect]
  | _ =>
    cases hcopy
    refine Or.inl ?_
    simp only [processPayment, findAccount, saveAccount, sendCashback, initiateTransfer,
      receive] at h
    simp only [PaymentPc.Coherent] at hpc
    grind [settles_iff, Thread.copy]

/-! ## What the others support -/

theorem startable_congr {threads threads' : ℕ → Thread} {job : Job} {k : ReadableId}
    (h : ∀ e, job.state = .active e → (threads' e).isDone = (threads e).isDone) :
    job.startable threads' k = job.startable threads k := by
  unfold Job.startable
  cases hstate : job.state with
  | active e => simp only [h e hstate]
  | _ => rfl

/-- Jobs that BullMQ will start remain so if each of them does. -/
theorem jobDue_mono {s s' : State} {k : ReadableId}
    (hnext : s.world.queue.nextJob ≤ s'.world.queue.nextJob)
    (hjobs : ∀ j job, j < s.world.queue.nextJob → s.world.queue.jobs j = some job →
      job.startable s.threads k = true →
      ∃ job', s'.world.queue.jobs j = some job' ∧ job'.startable s'.threads k = true)
    (h : s.jobDue k = true) : s'.jobDue k = true := by
  obtain ⟨j, job, hj, hjob, hstart⟩ := jobDue_iff.mp h
  obtain ⟨job', hjob', hstart'⟩ := hjobs j job hj hjob hstart
  exact jobDue_iff.mpr ⟨j, job', Nat.lt_of_lt_of_le hj hnext, hjob', hstart'⟩

theorem startable_waiting {threads : ℕ → Thread} {job : Job} (h : job.state = .waiting) :
    job.startable threads job.transactionId = true := by
  simp [Job.startable, h]

/-- BullMQ starts a job of a thread only once the thread is gone. -/
theorem startable_active {threads : ℕ → Thread} {job : Job} {k : ReadableId} {e : ℕ}
    (h : job.state = .active e) : job.startable threads k = true ↔
      job.transactionId = k ∧ threads e = .done ∧ job.stalledCount < maxStalledCount := by
  simp [Job.startable, h, isDone_iff]

/-- A job that BullMQ will start is not the one a living thread works on. -/
theorem jobDue_run {cfg : Config} {s s' : State} {e : ℕ} {o : Outcome} {th' : Thread}
    (hadv : advance cfg s.world e (s.threads e) o = some (s'.world, th'))
    (hthreads : ∀ e', s'.threads e' = if e' = e then th' else s.threads e') {k : ReadableId}
    (h : s.jobDue k = true) : s'.jobDue k = true := by
  have hkeeps := advance_jobs hadv
  refine jobDue_mono hkeeps.nextJob (fun j job hj hjob hstart => ?_) h
  have hne : job.state ≠ .active e := by
    intro hactive
    rw [((startable_active hactive).mp hstart).2.1] at hadv
    cases hadv
  refine ⟨job, hkeeps.jobs j job hj hjob hne, ?_⟩
  rw [startable_congr fun e' hactive => ?_, hstart]
  rw [hthreads, if_neg]
  rintro rfl
  exact hne hactive

theorem supported_split {s : State} {row : CashbackTransaction} (e : ℕ)
    (h : s.supported (fun _ => true) row = true) :
    s.supported (fun e' => e' ≠ e) row = true ∨ (s.threads e).supports row = true := by
  rcases supported_iff.mp h with hclosed | hdue | hjob | ⟨e', he', _, hsupports⟩
  · exact Or.inl (supported_iff.mpr (Or.inl hclosed))
  · exact Or.inl (supported_iff.mpr (Or.inr (Or.inl hdue)))
  · exact Or.inl (supported_iff.mpr (Or.inr (Or.inr (Or.inl hjob))))
  · by_cases h : e' = e
    · exact Or.inr (h ▸ hsupports)
    · exact Or.inl (supported_iff.mpr
        (Or.inr (Or.inr (Or.inr ⟨e', he', by simpa using h, hsupports⟩))))

/-- Support by threads that do not move outlasts a step. -/
theorem supported_mono {s s' : State} {live : ℕ → Bool} {row : CashbackTransaction}
    (hdue : s.world.webhookDue row = true → s'.world.webhookDue row = true)
    (hjobs : ∀ k, s.jobDue k = true → s'.jobDue k = true)
    (hnext : s.nextThread ≤ s'.nextThread)
    (hthreads : ∀ e, live e = true → e < s.nextThread → s'.threads e = s.threads e)
    (h : s.supported live row = true) : s'.supported (fun _ => true) row = true := by
  refine supported_iff.mpr ?_
  rcases supported_iff.mp h with hclosed | hdue' | ⟨hpending, hjob⟩ | ⟨e, he, hlive, hsupports⟩
  · exact Or.inl hclosed
  · exact Or.inr (Or.inl (hdue hdue'))
  · exact Or.inr (Or.inr (Or.inl ⟨hpending, hjobs _ hjob⟩))
  · refine Or.inr (Or.inr (Or.inr ⟨e, Nat.lt_of_lt_of_le he hnext, rfl, ?_⟩))
    rw [hthreads e hlive he]
    exact hsupports

/-- Support depends on the id, the status and the reference of a row. -/
theorem supported_congr {s : State} {live : ℕ → Bool} {row row' : CashbackTransaction}
    (hid : row'.id = row.id) (hstatus : row'.status = row.status)
    (href : row'.providerReference = row.providerReference) :
    s.supported live row' = s.supported live row := by
  have hsettles : ∀ th : Thread, th.settles row' = th.settles row := by
    intro th
    cases th with
    | payment r pc => cases pc <;> simp only [Thread.settles, hid, href]
    | _ => rfl
  have hsupports : ∀ th : Thread, th.supports row' = th.supports row := fun th => by
    rw [Thread.supports, Thread.attempts, hstatus, hid, hsettles]
    rfl
  simp only [State.supported, CashbackTransaction.isOpen, hstatus, webhookDue_congr href, hid,
    hsupports]

end Bumpa.Cashback
