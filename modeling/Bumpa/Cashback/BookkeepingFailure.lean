import Bumpa.Cashback.Attempts

/-! # Failures after the provider has answered

Once `sendCashback` has resolved, what is left of the attempt is bookkeeping: the transaction that
stores the result, and publishing. All of it runs inside the `try`, so a failure there reaches the
catch block, which cannot tell it from a failed payment.

The attempt survives a failure (`survives`) only if a success has been committed by then, that is,
if publishing fails or the commit of the result goes through and its answer is lost; if moreover
the error is classified as retryable and another attempt is left, so that the catch block resets
the row if it is PROCESSING, which it is not, and hands the job back, whose next attempt skips the
row; and if no other operation has opened the row again by then. Every other failure is recorded as
FAILED, or the reset makes the paid row PENDING (`recover_treats_iff`).

`bookkeeping_failure_survived`: an execution that got the provider's answer and has only such
failures treats none of them as a payment failure. `bookkeeping_failure_recorded` is a run in which
publishing fails and a paid transaction is recorded and announced as FAILED.
-/
namespace Bumpa.Cashback
open Bumpa.Events Bumpa.Relational Bumpa.Transition
set_option autoImplicit false

/-- The step of thread `e`, an execution of `r`, treats the payment as failed: it records a row as
FAILED, emits a FAILED event, writes PENDING from the catch block, or hands its job back while the
row is there to be claimed again. -/
def TreatsAsFailure (e : ℕ) (r : PaymentRun) (x : Move State Label) : Prop :=
  ∃ o, x.label = .run e o ∧
    ((∃ k row, x.target.world.row k = some row ∧ row.status = .failed ∧
        x.source.world.row k ≠ some row) ∨
      (∃ event, event.payload.status = .failed ∧
        x.target.world.db.outboxEvents = x.source.world.db.outboxEvents ++ [event]) ∨
      (∃ t error k, x.source.threads e = .payment r (.recover t error) ∧
        x.target.world.statusOf k = some .pending ∧
        x.source.world.statusOf k ≠ some .pending) ∨
      ∃ job job', x.source.world.queue.jobs r.job = some job ∧ job.state = .active e ∧
        x.target.world.queue.jobs r.job = some job' ∧ job'.state = .waiting ∧
        x.target.world.statusOf r.transactionId = some .pending)

/-- If thread `e` throws now, BullMQ runs the job again, and the row can be claimed. -/
def World.retriesClaim (w : World) (e : ℕ) (r : PaymentRun) : Bool :=
  (w.queue.jobs r.job).any (fun job =>
    job.state = .active e && job.attemptsMade + 1 < jobAttempts) &&
    w.statusOf r.transactionId = some .pending

/-- The row is PENDING or PROCESSING. -/
def World.opened (w : World) (k : ReadableId) : Bool :=
  w.statusOf k = some .pending || w.statusOf k = some .processing

/-- The await of thread `e`, which has the provider's answer, is not rejected, or it is one of the
rejections that the execution survives; and the row is not open when the catch block runs. -/
def survives (e : ℕ) (s : State) : Label → Bool
  | .run e' o =>
    e' ≠ e ||
      match s.threads e, o with
      | .payment r (.store _ _ result), .fails error written =>
        written && result.status = .successful && handsBack r (classifyCashbackFailure error)
      | .payment r (.publish _ _), .fails error _ => handsBack r (classifyCashbackFailure error)
      | .payment r (.recover _ _), _ => !s.world.opened r.transactionId
      | _, _ => true
  | _ => true

/-! ## The rest of an execution -/

/-- An execution that has the provider's answer, and in its catch block an error after which it
hands the job back. -/
inductive Settling (r : PaymentRun) : Thread → Prop
  | store (t : CashbackTransaction) (account : PayoutAccount) (result : CashbackPaymentResult) :
      Settling r (.payment r (.store t account result))
  | publish (t : CashbackTransaction) (eventIds : List ReadableId) :
      Settling r (.payment r (.publish t eventIds))
  | recover (t : CashbackTransaction) {error : Thrown}
      (back : handsBack r (classifyCashbackFailure error) = true) :
      Settling r (.payment r (.recover t error))
  | done : Settling r .done

theorem settling_step {cfg : Config} {s : State} {w' : World} {e : ℕ} {r : PaymentRun}
    {th' : Thread} {o : Outcome} (hth : Settling r (s.threads e))
    (hG : survives e s (.run e o) = true)
    (h : advance cfg s.world e (s.threads e) o = some (w', th')) : Settling r th' := by
  generalize hpc : s.threads e = th at hth h
  simp only [survives, hpc, ne_eq, not_true_eq_false, decide_false, Bool.false_or] at hG
  cases hth with
  | store t account result =>
    simp only [advance, processPayment, Cashback.store] at h
    grind [Settling]
  | publish t eventIds =>
    simp only [advance, processPayment, Cashback.publish] at h
    grind [Settling]
  | recover t back =>
    simp only [advance, processPayment, Cashback.recover] at h
    grind [Settling]
  | done => cases h

/-- What a job that failed its attempt is afterwards. -/
theorem failJob_waiting (w : World) (e j : ℕ) :
    (∃ job job', w.queue.jobs j = some job ∧ job.state = .active e ∧
      (w.failJob e j).queue.jobs j = some job' ∧ job'.state = .waiting) ↔
      ((w.queue.jobs j).any fun job =>
        job.state = .active e && job.attemptsMade + 1 < jobAttempts) = true := by
  unfold World.failJob
  cases hjob : w.queue.jobs j with
  | none => simp
  | some job =>
    by_cases hactive : job.state = .active e
    · by_cases hleft : job.attemptsMade + 1 < jobAttempts <;>
        simp [hactive, hleft, World.setJob]
    · simp [hactive, hjob]

/-! ## One step -/

/-- The job is handed back while the row can be claimed: the last way of treating it as failed. -/
def HandsBackClaimable (e : ℕ) (r : PaymentRun) (w w' : World) : Prop :=
  ∃ job job', w.queue.jobs r.job = some job ∧ job.state = .active e ∧
    w'.queue.jobs r.job = some job' ∧ job'.state = .waiting ∧
    w'.statusOf r.transactionId = some .pending

/-- A step that writes nothing can only hand the job back. -/
theorem treatsAsFailure_of_db {s s' : State} {e : ℕ} {o : Outcome} {r : PaymentRun}
    (hdb : s'.world.db = s.world.db) :
    TreatsAsFailure e r ⟨s, .run e o, s'⟩ ↔ HandsBackClaimable e r s.world s'.world := by
  constructor
  · rintro ⟨o', _, hrow | ⟨event, _, hevent⟩ | ⟨t, error, k, _, hafter, hbefore⟩ | hback⟩
    · obtain ⟨k, row, hrow, _, hne⟩ := hrow
      rw [World.row, hdb] at hrow
      exact absurd hrow hne
    · simp [hdb] at hevent
    · rw [World.statusOf, hdb] at hafter
      exact absurd hafter hbefore
    · exact hback
  · exact fun hback => ⟨o, rfl, Or.inr (Or.inr (Or.inr hback))⟩

/-- A step that leaves the queue hands no job back. -/
theorem not_handsBack_of_queue {w w' : World} {e : ℕ} {r : PaymentRun}
    (h : w'.queue = w.queue) : ¬ HandsBackClaimable e r w w' := by
  rintro ⟨job, job', hjob, hactive, hjob', hwaiting, _⟩
  rw [h, hjob, Option.some.injEq] at hjob'
  rw [← hjob', hactive] at hwaiting
  cases hwaiting

theorem not_handsBack_completeJob {w : World} {e : ℕ} {r : PaymentRun} :
    ¬ HandsBackClaimable e r w (w.completeJob e r.job) := by
  rintro ⟨job, job', hjob, hactive, hjob', _, _⟩
  simp [World.completeJob, hjob, hactive, World.setJob] at hjob'

/-- A throw hands the job back to be claimed exactly if BullMQ has attempts left for it and the row
is PENDING. -/
theorem handsBack_failJob_iff {w v : World} {e : ℕ} {r : PaymentRun} (hq : v.queue = w.queue) :
    HandsBackClaimable e r w (v.failJob e r.job) ↔
      ((w.queue.jobs r.job).any fun job =>
        job.state = .active e && job.attemptsMade + 1 < jobAttempts) = true ∧
        v.statusOf r.transactionId = some .pending := by
  have hstatus : (v.failJob e r.job).statusOf r.transactionId = v.statusOf r.transactionId := by
    rw [World.statusOf, failJob_db, World.statusOf]
  have hjobs := failJob_waiting v e r.job
  rw [← hq, ← hjobs, HandsBackClaimable, hstatus, ← hq]
  constructor
  · rintro ⟨job, job', hjob, hactive, hjob', hwaiting, hpending⟩
    exact ⟨⟨job, job', hjob, hactive, hjob', hwaiting⟩, hpending⟩
  · rintro ⟨⟨job, job', hjob, hactive, hjob', hwaiting⟩, hpending⟩
    exact ⟨job, job', hjob, hactive, hjob', hwaiting, hpending⟩

/-- The transaction of the success branch announces a success, or nothing. -/
theorem storeResult_outbox (w : World) (r : PaymentRun) (t : CashbackTransaction)
    (account : PayoutAccount) (result : CashbackPaymentResult) :
    (w.storeResult r t account result).db.outboxEvents = w.db.outboxEvents ∨
      ∃ event, event.payload.status = .successful ∧
        (w.storeResult r t account result).db.outboxEvents = w.db.outboxEvents ++ [event] := by
  unfold World.storeResult
  split <;> split
  · exact Or.inr ⟨_, rfl, rfl⟩
  · exact Or.inl rfl
  · exact Or.inr ⟨_, rfl, rfl⟩
  · exact Or.inl rfl

theorem store_not_treats {s s' : State} {e : ℕ} {o : Outcome} {r : PaymentRun}
    {t : CashbackTransaction} {account : PayoutAccount} {result : CashbackPaymentResult}
    {th' : Thread} (hth : s.threads e = .payment r (.store t account result))
    (hstatus : result.status ≠ .failed)
    (h : store s.world r t account result o = some (s'.world, th')) :
    ¬ TreatsAsFailure e r ⟨s, .run e o, s'⟩ := by
  have hworld : s'.world = s.world ∨ s'.world = s.world.storeResult r t account result := by
    unfold store at h
    grind
  rcases hworld with heq | heq
  · rw [treatsAsFailure_of_db (by rw [heq])]
    exact not_handsBack_of_queue (by rw [heq])
  · rintro ⟨o', _, ⟨k, row, hrow, hfailed, hne⟩ | ⟨event, hevent, houtbox⟩ |
      ⟨t', error, k, hth', _⟩ | hback⟩
    · rw [heq, storeResult_row] at hrow
      split at hrow
      · rw [Option.some.injEq] at hrow
        rw [← hrow] at hfailed
        exact hstatus (CashbackTransactionStatus.ofPayment_eq_failed.mp hfailed)
      · exact hne hrow
    · rw [heq] at houtbox
      rcases storeResult_outbox s.world r t account result with hsame | ⟨event', hevent', happ⟩
      · simp [hsame] at houtbox
      · rw [happ] at houtbox
        have hsame := List.append_cancel_left houtbox
        rw [List.cons.injEq] at hsame
        rw [hsame.1, hevent] at hevent'
        cases hevent'
    · rw [hth] at hth'
      cases hth'
    · exact not_handsBack_of_queue (by rw [heq, storeResult_queue]) hback

/-- Recording a failure is what the step does, whatever its reason. -/
theorem recordsFailure_treats {cfg : Config} {s s' : State} {e : ℕ} {o : Outcome} {r : PaymentRun}
    {t : CashbackTransaction} {error : Thrown} {th' : Thread}
    (h : recover cfg s.world e r t error o = some (s'.world, th'))
    (hrecords : (Thread.payment r (.recover t error)).recordsFailure o = true) :
    TreatsAsFailure e r ⟨s, .run e o, s'⟩ := by
  refine ⟨o, rfl, Or.inr (Or.inl ?_)⟩
  have hfailed : ∀ v : World, (v.failJob e r.job).db.outboxEvents = v.db.outboxEvents := fun v => by
    rw [failJob_db]
  have hevent : ∃ event : CashbackProcessedEvent, event.payload.status = .failed ∧
      (s.world.storeFailure cfg r t (classifyCashbackFailure error)).db.outboxEvents =
        s.world.db.outboxEvents ++ [event] := ⟨_, rfl, rfl⟩
  simp only [Thread.recordsFailure, Bool.and_eq_true, Bool.not_eq_true'] at hrecords
  unfold recover at h
  grind [Outcome.takesEffect]

/-- The reset matches a PROCESSING row and nothing else. -/
theorem resetTransaction_of_ne {w : World} {k : ReadableId}
    (h : w.statusOf k ≠ some .processing) : w.resetTransaction k = w := by
  unfold World.resetTransaction World.updateTransaction Table.updateWhere
  split
  · rfl
  · next row hrow =>
    have hne : row.status ≠ .processing := fun hprocessing =>
      h (by rw [World.statusOf, hrow, Option.map_some, hprocessing])
    simp only [hne, decide_false, Bool.false_eq_true, if_false]

theorem resetTransaction_status {w : World} {k : ReadableId}
    (h : w.statusOf k = some .processing) : (w.resetTransaction k).statusOf k = some .pending := by
  obtain ⟨row, hrow, hprocessing⟩ := Option.map_eq_some_iff.mp h
  have hreset := resetTransaction_row hrow
  rw [if_pos hprocessing] at hreset
  rw [World.statusOf, ← World.row, hreset, Option.map_some]

/-- What the catch block does to the payment: it records a failure, resets a PROCESSING row, or
hands the job back while the row is PENDING. -/
theorem recover_treats_iff {cfg : Config} {s s' : State} {e : ℕ} {o : Outcome} {r : PaymentRun}
    {t : CashbackTransaction} {error : Thrown} {th' : Thread}
    (hth : s.threads e = .payment r (.recover t error))
    (h : recover cfg s.world e r t error o = some (s'.world, th')) :
    TreatsAsFailure e r ⟨s, .run e o, s'⟩ ↔
      (Thread.payment r (.recover t error)).recordsFailure o = true ∨
        (o.takesEffect = true ∧ s.world.statusOf r.transactionId = some .processing) ∨
        s.world.retriesClaim e r = true := by
  cases hrecords : (Thread.payment r (.recover t error)).recordsFailure o with
  | true => exact iff_of_true (recordsFailure_treats h hrecords) (Or.inl rfl)
  | false =>
    -- the block throws; before that it has reset the row, if that took effect
    have hworld : s'.world = s.world.failJob e r.job ∧ o.takesEffect = false ∨
        s'.world = (s.world.resetTransaction r.transactionId).failJob e r.job ∧
          o.takesEffect = true := by
      unfold recover at h
      grind [Thread.recordsFailure, Outcome.takesEffect]
    rcases hworld with ⟨heq, heffect⟩ | ⟨heq, heffect⟩
    · rw [treatsAsFailure_of_db (by rw [heq, failJob_db]), heq, handsBack_failJob_iff rfl]
      simp [heffect, World.retriesClaim]
    · by_cases hprocessing : s.world.statusOf r.transactionId = some .processing
      · have hpending : s'.world.statusOf r.transactionId = some .pending := by
          rw [heq, World.statusOf, failJob_db, ← World.statusOf]
          exact resetTransaction_status hprocessing
        refine iff_of_true ⟨o, rfl, Or.inr (Or.inr (Or.inl ⟨t, error, r.transactionId, hth,
          hpending, ?_⟩))⟩ (Or.inr (Or.inl ⟨heffect, hprocessing⟩))
        simp [hprocessing]
      · rw [resetTransaction_of_ne hprocessing] at heq
        rw [treatsAsFailure_of_db (by rw [heq, failJob_db]), heq, handsBack_failJob_iff rfl]
        simp [hprocessing, World.retriesClaim]

theorem publish_not_treats {s s' : State} {e : ℕ} {o : Outcome} {r : PaymentRun}
    {t : CashbackTransaction} {eventIds : List ReadableId} {th' : Thread}
    (h : publish s.world e r t eventIds o = some (s'.world, th')) :
    ¬ TreatsAsFailure e r ⟨s, .run e o, s'⟩ := by
  have hworld : s'.world = s.world ∨ s'.world = s.world.completeJob e r.job := by
    unfold publish at h
    grind
  rcases hworld with heq | heq
  · rw [treatsAsFailure_of_db (by rw [heq])]
    exact not_handsBack_of_queue (by rw [heq])
  · rw [treatsAsFailure_of_db (by rw [heq, completeJob_db]), heq]
    exact not_handsBack_completeJob

/-- A step of an execution that survives its failures does not treat the payment as failed. -/
theorem settling_spares {cfg : Config} {s s' : State} {e : ℕ} {o : Outcome} {r : PaymentRun}
    {th' : Thread} (hth : Settling r (s.threads e)) (hco : (s.threads e).Coherent)
    (hG : survives e s (.run e o) = true)
    (hadv : advance cfg s.world e (s.threads e) o = some (s'.world, th')) :
    ¬ TreatsAsFailure e r ⟨s, .run e o, s'⟩ := by
  generalize hpc : s.threads e = th at hth hco hadv
  cases hth with
  | store t account result => exact store_not_treats hpc hco.2.2 hadv
  | publish t eventIds => exact publish_not_treats hadv
  | @recover t error back =>
    have hclosed : s.world.opened r.transactionId = false := by
      simpa [survives, hpc] using hG
    simp only [World.opened, Bool.or_eq_false_iff, decide_eq_false_iff_not] at hclosed
    rw [recover_treats_iff hpc hadv]
    rintro (hrecords | ⟨_, hprocessing⟩ | hretries)
    · simp [Thread.recordsFailure, back] at hrecords
    · exact hclosed.2 hprocessing
    · rw [World.retriesClaim, Bool.and_eq_true, decide_eq_true_eq] at hretries
      exact hclosed.1 hretries.2
  | done => cases hadv

/-! ## The execution -/

/-- While the execution survives its failures, it stays within bookkeeping. -/
theorem settling_run {cfg : Config} {tr₀ tr : List (Move State Label)} {s₀ s : State} {e : ℕ}
    {r : PaymentRun} (hreach : Reaches cfg tr₀ s₀) (hstarted : e < s₀.nextThread)
    (hsettling : Settling r (s₀.threads e)) (hrun : Run (step cfg) s₀ tr s)
    (hG : Guarded (fun s l => survives e s l = true) tr) :
    ∀ x ∈ tr, Settling r (x.source.threads e) ∧ (x.source.threads e).Coherent := by
  intro x hx
  refine ((Run.guarded_invariant (fun s => e < s.nextThread ∧ Settling r (s.threads e) ∧
    (s.threads e).Coherent) ?_ hrun hG ⟨hstarted, hsettling, reaches_coherent hreach e⟩).2 x hx).1.2
  rintro s l s' hg ⟨hlt, hsettling, hco⟩ hstep
  rcases step_cases hstep with ⟨e', o, th', rfl, hadv, hnext, hth⟩ | ⟨_, _, hrest⟩
  · rw [hth, hnext]
    split
    · next heq =>
      subst heq
      exact ⟨hlt, settling_step hsettling hg hadv, advance_coherent hadv hco⟩
    · exact ⟨hlt, hsettling, hco⟩
  · rcases hrest with ⟨th, _, hnext, hth⟩ | ⟨hnext, hth⟩
    · rw [hth, if_neg (by omega)]
      exact ⟨by omega, hsettling, hco⟩
    · rcases hth e with heq | heq
      · rw [heq]
        exact ⟨by omega, hsettling, hco⟩
      · rw [heq]
        exact ⟨by omega, .done, trivial⟩

/-- An execution that has the provider's answer, and in which only such awaits are rejected as it
survives, treats the payment as failed at no step. -/
theorem bookkeeping_failure_survived {cfg : Config} {tr₀ tr : List (Move State Label)}
    {s₀ s : State} {e : ℕ} {r : PaymentRun} {t : CashbackTransaction} {account : PayoutAccount}
    {result : CashbackPaymentResult} (hreach : Reaches cfg tr₀ s₀)
    (hstore : s₀.threads e = .payment r (.store t account result))
    (hrun : Run (step cfg) s₀ tr s) (hG : Guarded (fun s l => survives e s l = true) tr) :
    ∀ x ∈ tr, ¬ TreatsAsFailure e r x := by
  have hstarted : e < s₀.nextThread := by
    by_contra hbeyond
    rw [thread_beyond hreach e (Nat.le_of_not_lt hbeyond)] at hstore
    cases hstore
  have hsettling : Settling r (s₀.threads e) := by
    rw [hstore]
    exact .store t account result
  intro x hx
  obtain ⟨hown, hco⟩ := settling_run hreach hstarted hsettling hrun hG x hx
  have hstep := hrun.step_of_mem x hx
  have hg := hG x hx
  rintro ⟨o, hl, htreats⟩
  obtain ⟨s₁, l, s₂⟩ := x
  obtain rfl : l = .run e o := hl
  obtain ⟨th', hadv, _, _⟩ := step_run hstep
  exact settling_spares hown hco hg hadv ⟨o, rfl, htreats⟩

/-! ## Schedules -/

def State.stores (s : State) (e : ℕ) : Bool :=
  match s.threads e with
  | .payment _ (.store _ _ _) => true
  | _ => false

/-- The mock provider has paid on thread 1, and the listed outcomes follow. -/
theorem exists_execution (outcomes : List Outcome) (q : List (Move State Label) × State → Bool)
    (h : (trace (step mockConfig) initial (deliver 0 (badgeEvent 0 "Bronze" "0123456789") ++
      .takeJob 0 :: Label.oks 1 5)).any (fun start => start.2.stores 1 &&
        (trace (step mockConfig) start.2 (outcomes.map (.run 1))).any q) = true) :
    ∃ tr₀ s₀ r t account result tr s, Reaches mockConfig tr₀ s₀ ∧
      s₀.threads 1 = .payment r (.store t account result) ∧ Run (step mockConfig) s₀ tr s ∧
      q (tr, s) = true := by
  obtain ⟨tr₀, s₀, hreach, hstart⟩ := exists_run_of_trace _ _ _ _ h
  rw [Bool.and_eq_true] at hstart
  obtain ⟨tr, s, hrun, hq⟩ := exists_run_of_trace _ _ _ _ hstart.2
  have hstores := hstart.1
  unfold State.stores at hstores
  split at hstores
  · next r t account result hth => exact ⟨tr₀, s₀, r, t, account, result, tr, s, hreach, hth, hrun, hq⟩
  · cases hstores

/-- Publishing fails with an error that is classified as retryable, on the first attempt. -/
theorem bookkeeping_without_failure : ∃ s₀ r tr s, Run (step mockConfig) s₀ tr s ∧
    s.world.statusOf 0 = some .successful ∧ ∀ x ∈ tr, ¬ TreatsAsFailure 1 r x := by
  obtain ⟨tr₀, s₀, r, t, account, result, tr, s, hreach, hstore, hrun, hq⟩ :=
    exists_execution [.ok, .fails (.other "connect ECONNREFUSED 127.0.0.1:5432") false, .ok]
      (fun r => (r.1.all fun x => survives 1 x.source x.label) &&
        decide (r.2.world.statusOf 0 = some .successful)) (by decide +kernel)
  rw [Bool.and_eq_true, decide_eq_true_eq] at hq
  exact ⟨s₀, r, tr, s, hrun, hq.2,
    bookkeeping_failure_survived hreach hstore hrun (guarded_of_all hq.1)⟩

/-- The result is stored, publishing fails, and the catch block records FAILED. -/
theorem bookkeeping_failure_recorded : ¬ ∀ (cfg : Config) (tr₀ tr : List (Move State Label))
    (s₀ s : State) (e : ℕ) (r : PaymentRun) (t : CashbackTransaction) (account : PayoutAccount)
    (result : CashbackPaymentResult), Reaches cfg tr₀ s₀ →
    s₀.threads e = .payment r (.store t account result) → Run (step cfg) s₀ tr s →
    ∀ x ∈ tr, ¬ TreatsAsFailure e r x := by
  intro hall
  obtain ⟨tr₀, s₀, r, t, account, result, tr, s, hreach, hstore, hrun, hq⟩ :=
    exists_execution [.ok, .fails (.other "read ECONNRESET") false, .ok]
      (fun r => r.1.any fun x =>
        (match x.label with
          | .run e _ => decide (e = 1)
          | _ => false) &&
        (x.target.world.row 0).any (·.status = .failed) && x.source.world.row 0 ≠ x.target.world.row 0)
      (by decide +kernel)
  obtain ⟨x, hx, hbad⟩ := List.any_eq_true.mp hq
  simp only [Bool.and_eq_true, Option.any_eq_true, decide_eq_true_eq] at hbad
  obtain ⟨⟨hlabel, row, hrow, hfailed⟩, hne⟩ := hbad
  split at hlabel
  · next e o hl =>
    rw [decide_eq_true_eq] at hlabel
    subst hlabel
    refine hall _ _ _ _ _ _ _ _ _ _ hreach hstore hrun x hx ⟨o, hl, Or.inl ⟨0, row, hrow, hfailed, ?_⟩⟩
    rw [hrow] at hne
    exact hne
  · cases hlabel

end Bumpa.Cashback
