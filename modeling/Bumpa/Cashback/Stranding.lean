import Bumpa.Cashback.Supports

/-! # When no cashback is stranded

The row, the job and the transfer are written one after another, and between two of these writes a
row may depend on one operation alone. `leavesNoGap` says of each of these gaps who must not die or
lose a call in it:

* an attempt before its claim, unless BullMQ runs the job again;
* an attempt after its claim, until Paystack has accepted the transfer; a claim that has won must
  not be lost on the way, either;
* the catch block, whose reset to PENDING is of use only to a job that goes back;
* the PENDING result of a transfer whose webhook was faster;
* `retryPayment` between its flip and its job;
* the commit of `handleBadgeUnlocked` after the last attempt of the job it has added.

Another job or attempt of the transaction that has still to come, or a webhook that Paystack still
owes, makes up for a gap. `not_stranded`: in a run that leaves no gap every open row has a job, an
attempt or a webhook to come, unless a retry is about to add the job. The induction is about
supports (`AllSupported`); `dispensable` is what a step must be for a row not to lose its last one.
`cashback_stranded` is a crash right after the claim.
-/
namespace Bumpa.Cashback
open Bumpa.Events Bumpa.Relational Bumpa.Transition
set_option autoImplicit false

/-! ## The gaps -/

/-- The job of the attempt may stall once more if its worker dies now. -/
def World.restarts (w : World) (e : ℕ) (r : PaymentRun) : Bool :=
  (w.queue.jobs r.job).any fun job => job.transactionId = r.transactionId &&
    job.state = .active e && job.stalledCount < maxStalledCount

/-- BullMQ will start a job of the transaction, or another attempt has not claimed it yet. -/
def State.anotherAttempt (s : State) (e : ℕ) (k : ReadableId) : Bool :=
  s.jobDue k || (List.range s.nextThread).any fun e' => e' ≠ e && (s.threads e').claims k

/-- The row is not PENDING, or does not depend on thread `e`. -/
def State.spares (s : State) (e : ℕ) (k : ReadableId) : Bool :=
  s.world.statusOf k ≠ some .pending || s.anotherAttempt e k

/-- The row is still PROCESSING under the reference of this claim. -/
def World.claimStands (w : World) (t : CashbackTransaction) : Bool :=
  (w.row t.id).any fun row =>
    row.status = .processing && t.providerReference = row.providerReference

/-- A webhook about the reference has been taken in. -/
def World.tookIn (w : World) (reference : Reference) : Bool :=
  w.paystack.transfers.any fun tr => tr.request.reference = reference && tr.notified

/-- Nobody dies and no call is lost between two writes of which a row needs both. -/
def leavesNoGap (s : State) : Label → Bool
  | .run e o =>
    match s.threads e, o with
    | .badge (.commit _ t), o =>
      !(o.takesEffect && s.world.holdsRow e t) || !t.isOpen || s.world.webhookDue t ||
        t.status = .pending && s.anotherAttempt e t.id
    | .payment r .find, .fails _ _ => s.world.goesBack e r || s.spares e r.transactionId
    | .payment r (.claim _), .fails _ false => s.world.goesBack e r || s.spares e r.transactionId
    | .payment r (.claim _), .fails _ true => s.world.statusOf r.transactionId ≠ some .pending
    | .payment _ (.store _ _ result), o =>
      !o.takesEffect || result.status ≠ .pending || !s.world.tookIn result.reference
    | .payment r (.recover t error), o =>
      if o.takesEffect then
        !handsBack r (classifyCashbackFailure error) || s.world.goesBack e r ||
          s.world.statusOf r.transactionId ≠ some .processing ||
          s.anotherAttempt e r.transactionId
      else !s.world.claimStands t || s.world.webhookDue t
    | .retry _ k _ .flip, .fails _ true =>
      s.world.statusOf k ≠ some .failed || s.anotherAttempt e k
    | .retry _ k _ .enqueue, .fails _ false => s.spares e k
    | _, _ => true
  | .crash e =>
    match s.threads e with
    | .payment r .find => s.world.restarts e r || s.spares e r.transactionId
    | .payment r (.claim _) => s.world.restarts e r || s.spares e r.transactionId
    | .payment _ (.publish _ _) => true
    | .payment r pc =>
      (Thread.payment r pc).copy.all fun t => !s.world.claimStands t || s.world.webhookDue t
    | .retry _ k _ .enqueue => s.spares e k
    | _ => true
  | _ => true

/-! ## Rows and the threads they depend on -/

/-- The transaction whose row the thread may support. -/
def Thread.served : Thread → Option ReadableId
  | .payment r _ => some r.transactionId
  | .retry _ k _ _ => some k
  | _ => none

/-- The thread supports no row that has no other support. -/
def State.dispensable (s : State) (e : ℕ) : Bool :=
  (s.threads e).served.all fun k => (s.world.row k).all fun row =>
    !(s.threads e).supports row || s.supported (fun e' => e' ≠ e) row

/-- What the supports need of a step of a thread, one program point after the other. -/
structure RunKeepsSupport (s : State) (e : ℕ) (o : Outcome) : Prop where
  commit : ∀ event t, s.threads e = .badge (.commit event t) →
    (o.takesEffect && s.world.holdsRow e t) = true → s.supported (fun _ => true) t = true
  find : ∀ r error written, s.threads e = .payment r .find → o = .fails error written →
    s.world.goesBack e r = true ∨ s.dispensable e = true
  claim : ∀ r t error, s.threads e = .payment r (.claim t) → o = .fails error false →
    s.world.goesBack e r = true ∨ s.dispensable e = true
  claimLost : ∀ r t error, s.threads e = .payment r (.claim t) → o = .fails error true →
    s.world.statusOf r.transactionId ≠ some .pending
  store : ∀ r t account result, s.threads e = .payment r (.store t account result) →
    o.takesEffect = true →
    s.supported (fun _ => true) (t.withResult (s.world.rowOf t) result) = true
  reset : ∀ r t error, s.threads e = .payment r (.recover t error) → o.takesEffect = true →
    handsBack r (classifyCashbackFailure error) = true →
    s.world.goesBack e r = true ∨ ∀ row, s.world.row r.transactionId = some row →
      row.status = .processing → s.supported (fun _ => true) { row with status := .pending } = true
  recover : ∀ r t error, s.threads e = .payment r (.recover t error) → o.takesEffect = false →
    s.dispensable e = true
  revive : ∀ caller k event error row, s.threads e = .retry caller k event .flip →
    o = .fails error true → s.world.row k = some row → row.status = .failed →
    s.supported (fun _ => true) row.revived = true
  enqueue : ∀ caller k event error, s.threads e = .retry caller k event .enqueue →
    o = .fails error false → s.dispensable e = true

/-- Every open row is supported. -/
def AllSupported (s : State) : Prop :=
  ∀ k row, s.world.row k = some row → s.supported (fun _ => true) row = true

/-! ## What threads support -/

theorem supports_cases {th : Thread} {row : CashbackTransaction} (h : th.supports row = true) :
    (∃ r pc, th = .payment r pc) ∨
      row.status = .pending ∧ ∃ caller event, th = .retry caller row.id event .enqueue := by
  cases th with
  | payment r pc => exact Or.inl ⟨r, pc, rfl⟩
  | retry caller k event pc =>
    cases pc with
    | enqueue =>
      simp only [Thread.supports, Thread.attempts, Thread.claims, Thread.settles, Thread.revives,
        Bool.and_false, Bool.or_false, Bool.false_or, Bool.and_eq_true, decide_eq_true_eq] at h
      exact Or.inr ⟨h.1, caller, event, by rw [h.2]⟩
    | _ => simp [Thread.supports, Thread.attempts, Thread.claims, Thread.settles,
        Thread.revives] at h
  | _ => simp [Thread.supports, Thread.attempts, Thread.claims, Thread.settles,
      Thread.revives] at h

theorem supports_eq_false {th : Thread} {row : CashbackTransaction}
    (hpayment : ∀ r pc, th ≠ .payment r pc)
    (hretry : ∀ caller k event, th ≠ .retry caller k event .enqueue) : th.supports row = false := by
  rw [← Bool.not_eq_true]
  intro h
  rcases supports_cases h with ⟨r, pc, hth⟩ | ⟨_, caller, event, hth⟩
  · exact hpayment r pc hth
  · exact hretry caller row.id event hth

/-- A thread supports rows of the transaction it serves only. -/
theorem supports_served {th : Thread} (hth : th.Coherent) {row : CashbackTransaction}
    (h : th.supports row = true) : th.served = some row.id := by
  rcases supports_cases h with ⟨r, pc, rfl⟩ | ⟨_, caller, event, rfl⟩
  · rw [Thread.served, Option.some.injEq]
    rcases payment_supports.mp h with ⟨_, hclaims⟩ | ⟨_, hsettles⟩
    · exact (claims_iff.mp hclaims).2
    · obtain ⟨_, t, hcopy, hid, _⟩ := settles_iff.mp hsettles
      rw [← hid]
      cases pc
      all_goals
        simp only [Thread.copy, Option.some.injEq, reduceCtorEq] at hcopy
      all_goals
        subst hcopy
        simp only [Thread.Coherent, PaymentPc.Coherent] at hth
        grind
  · rfl

theorem mark_closed (hook : TransferWebhook) (t : CashbackTransaction) :
    (hook.mark t).isOpen = false := by
  rcases outcome_cases hook.event with heq | heq <;>
    simp [CashbackTransaction.isOpen, mark_status, heq, CashbackTransactionStatus.ofPayment]

/-- A thread that is dispensable leaves every row with another support. -/
theorem dispensable_supported {s : State} {e : ℕ} (h : s.dispensable e = true)
    (hth : (s.threads e).Coherent) {row : CashbackTransaction}
    (hrow : s.world.row row.id = some row) (hall : s.supported (fun _ => true) row = true) :
    s.supported (fun e' => e' ≠ e) row = true := by
  rcases supported_split e hall with hothers | hown
  · exact hothers
  · rw [State.dispensable, supports_served hth hown, Option.all_some, hrow, Option.all_some,
      hown] at h
    simpa using h

theorem supported_all {s : State} {live : ℕ → Bool} {row : CashbackTransaction}
    (h : s.supported live row = true) : s.supported (fun _ => true) row = true :=
  supported_mono id (fun _ => id) (Nat.le_refl _) (fun _ _ _ => rfl) h

/-- Another job or attempt supports a PENDING row of its transaction. -/
theorem supported_of_anotherAttempt {s : State} {e : ℕ} {row : CashbackTransaction}
    (h : s.anotherAttempt e row.id = true) (hpending : row.status = .pending) :
    s.supported (fun e' => e' ≠ e) row = true := by
  rw [State.anotherAttempt, Bool.or_eq_true] at h
  rcases h with hjob | hthread
  · exact supported_iff.mpr (Or.inr (Or.inr (Or.inl ⟨hpending, hjob⟩)))
  · obtain ⟨e', he', hclaims⟩ := List.any_eq_true.mp hthread
    rw [Bool.and_eq_true] at hclaims
    refine supported_iff.mpr (Or.inr (Or.inr (Or.inr ⟨e', List.mem_range.mp he', hclaims.1, ?_⟩)))
    simp [Thread.supports, Thread.attempts, hpending, hclaims.2]

/-- A thread is dispensable if the row it serves has another support whenever it has this one. -/
theorem dispensable_of {s : State} {e : ℕ}
    (h : ∀ k row, (s.threads e).served = some k → s.world.row k = some row →
      (s.threads e).supports row = true → s.supported (fun e' => e' ≠ e) row = true) :
    s.dispensable e = true := by
  simp only [State.dispensable, Option.all_eq_true, Bool.or_eq_true, Bool.not_eq_true']
  intro k hk row hrow
  cases hown : (s.threads e).supports row with
  | false => exact Or.inl rfl
  | true => exact Or.inr (h k row hk hrow hown)

/-- A thread that only supports its row while it is PENDING. -/
theorem dispensable_of_spares {s : State} {e : ℕ} {k : ReadableId}
    (hserved : (s.threads e).served = some k)
    (hpending : ∀ row, (s.threads e).supports row = true → row.status = .pending)
    (h : s.spares e k = true) : s.dispensable e = true := by
  refine dispensable_of fun k' row hk' hrow hown => ?_
  rw [hserved, Option.some.injEq] at hk'
  subst hk'
  have hid : row.id = k := s.world.db.transactions.key_eq hrow
  rw [State.spares, Bool.or_eq_true, decide_eq_true_eq, statusOf_eq hrow, hpending row hown] at h
  subst hid
  exact supported_of_anotherAttempt (h.resolve_left (fun hne => hne rfl)) (hpending row hown)

/-- An attempt that has claimed only supports its row while its claim stands. -/
theorem dispensable_of_claim {s : State} {e : ℕ} {r : PaymentRun} {pc : PaymentPc}
    {t : CashbackTransaction} (hth : s.threads e = .payment r pc)
    (hcopy : (Thread.payment r pc).copy = some t)
    (h : (!s.world.claimStands t || s.world.webhookDue t) = true) : s.dispensable e = true := by
  refine dispensable_of fun k row hk hrow hown => ?_
  have hid : row.id = k := s.world.db.transactions.key_eq hrow
  rw [hth, payment_supports] at hown
  rcases hown with ⟨_, hclaims⟩ | ⟨hprocessing, hsettles⟩
  · rcases (claims_iff.mp hclaims).1 with rfl | ⟨t', rfl⟩ <;> cases hcopy
  · obtain ⟨_, t', hcopy', hid', href⟩ := settles_iff.mp hsettles
    rw [hcopy, Option.some.injEq] at hcopy'
    subst hcopy'
    have hstands : s.world.claimStands t = true := by
      rw [World.claimStands, hid', hid, hrow, Option.any_some]
      simp [hprocessing, href]
    rw [hstands, Bool.not_true, Bool.false_or] at h
    refine supported_iff.mpr (Or.inr (Or.inl ?_))
    rw [webhookDue_congr href.symm]
    exact h

theorem claims_pending {th : Thread} {r : PaymentRun}
    (hth : th = .payment r .find ∨ ∃ t, th = .payment r (.claim t)) {row : CashbackTransaction}
    (h : th.supports row = true) : row.status = .pending := by
  have hcopy : ∀ pc, th = .payment r pc → (Thread.payment r pc).copy = none →
      row.status = .pending := by
    rintro pc rfl hnone
    rcases payment_supports.mp h with ⟨hpending, _⟩ | ⟨_, hsettles⟩
    · exact hpending
    · obtain ⟨_, t, ht, _⟩ := settles_iff.mp hsettles
      rw [hnone] at ht
      cases ht
  rcases hth with hfind | ⟨t, hclaim⟩
  · exact hcopy _ hfind rfl
  · exact hcopy _ hclaim rfl

theorem revives_pending {caller : RetryCaller} {k : ReadableId} {event : BadgeUnlockedEvent}
    {row : CashbackTransaction}
    (h : (Thread.retry caller k event .enqueue).supports row = true) : row.status = .pending := by
  rcases supports_cases h with ⟨r, pc, hth⟩ | ⟨hpending, _⟩
  · cases hth
  · exact hpending

/-- A step of a thread that leaves no gap takes no last support away. -/
theorem leavesNoGap_run {s : State} {e : ℕ} {o : Outcome} (hco : (s.threads e).Coherent)
    (haccepted : (s.threads e).Accepted s.world) (h : leavesNoGap s (.run e o) = true) :
    RunKeepsSupport s e o where
  commit := by
    intro event t hth heffect
    simp only [leavesNoGap, hth, heffect, Bool.not_true, Bool.false_or, Bool.or_eq_true,
      Bool.and_eq_true, Bool.not_eq_true', decide_eq_true_eq] at h
    rcases h with (hclosed | hdue) | ⟨hpending, hother⟩
    · exact supported_iff.mpr (Or.inl hclosed)
    · exact supported_iff.mpr (Or.inr (Or.inl hdue))
    · exact supported_all (supported_of_anotherAttempt hother hpending)
  find := by
    rintro r error written hth rfl
    simp only [leavesNoGap, hth, Bool.or_eq_true] at h
    exact h.imp_right (dispensable_of_spares (by rw [hth]; rfl)
      fun row => claims_pending (Or.inl hth))
  claim := by
    rintro r t error hth rfl
    simp only [leavesNoGap, hth, Bool.or_eq_true] at h
    exact h.imp_right (dispensable_of_spares (by rw [hth]; rfl)
      fun row => claims_pending (Or.inr ⟨t, hth⟩))
  claimLost := by
    rintro r t error hth rfl
    simpa [leavesNoGap, hth] using h
  store := by
    intro r t account result hth heffect
    rw [hth] at hco haccepted
    simp only [leavesNoGap, hth, heffect, Bool.not_true, Bool.false_or, Bool.or_eq_true,
      Bool.not_eq_true', decide_eq_true_eq] at h
    cases hstatus : result.status with
    | pending =>
      -- Paystack has accepted the transfer, and its webhook is still to come
      obtain ⟨tr, htr, href⟩ := haccepted hstatus
      have hnone := h.resolve_left (fun hne => hne hstatus)
      rw [World.tookIn, List.any_eq_false] at hnone
      refine supported_iff.mpr (Or.inr (Or.inl (webhookDue_iff.mpr ⟨tr, htr, ?_, ?_⟩)))
      · rw [href]
        rfl
      · simpa [href] using hnone tr htr
    | failed => exact absurd hstatus hco.2.2
    | successful =>
      refine supported_iff.mpr (Or.inl ?_)
      simp [CashbackTransaction.isOpen, CashbackTransaction.withResult, hstatus,
        CashbackTransactionStatus.ofPayment]
  reset := by
    intro r t error hth heffect hback
    simp only [leavesNoGap, hth, heffect, if_true, hback, Bool.not_true, Bool.false_or,
      Bool.or_eq_true, decide_eq_true_eq] at h
    rcases h with (hjob | hstatus) | hother
    · exact Or.inl hjob
    · refine Or.inr fun row hrow hprocessing => absurd ?_ hstatus
      rw [statusOf_eq hrow, hprocessing]
    · refine Or.inr fun row hrow _ => ?_
      rw [← s.world.db.transactions.key_eq hrow] at hother
      have hreset : s.anotherAttempt e { row with status := .pending }.id = true := hother
      exact supported_all (supported_of_anotherAttempt hreset rfl)
  recover := by
    intro r t error hth heffect
    simp only [leavesNoGap, hth, heffect, Bool.false_eq_true, if_false] at h
    exact dispensable_of_claim hth rfl h
  revive := by
    rintro caller k event error row hth rfl hrow hfailed
    simp only [leavesNoGap, hth, Bool.or_eq_true, decide_eq_true_eq] at h
    rcases h with hstatus | hother
    · exact absurd (by rw [statusOf_eq hrow, hfailed]) hstatus
    · rw [← s.world.db.transactions.key_eq hrow] at hother
      have hrevived : s.anotherAttempt e row.revived.id = true := hother
      exact supported_all (supported_of_anotherAttempt hrevived rfl)
  enqueue := by
    rintro caller k event error hth rfl
    simp only [leavesNoGap, hth] at h
    exact dispensable_of_spares (by rw [hth]; rfl)
      (fun row hrow => revives_pending (by rwa [hth] at hrow)) h

/-- A crash that leaves no gap leaves the thread's row another support, or the job to BullMQ. -/
theorem leavesNoGap_crash {s : State} {e : ℕ} (h : leavesNoGap s (.crash e) = true) :
    s.dispensable e = true ∨ ∃ r, (s.threads e = .payment r .find ∨
      ∃ t, s.threads e = .payment r (.claim t)) ∧ s.world.restarts e r = true := by
  have hclaims : ∀ r, (s.threads e = .payment r .find ∨ ∃ t, s.threads e = .payment r (.claim t)) →
      (s.threads e).served = some r.transactionId →
      (s.world.restarts e r || s.spares e r.transactionId) = true →
      s.dispensable e = true ∨ ∃ r, (s.threads e = .payment r .find ∨
        ∃ t, s.threads e = .payment r (.claim t)) ∧ s.world.restarts e r = true := by
    intro r hth hserved hor
    rw [Bool.or_eq_true] at hor
    rcases hor with hrestarts | hspares
    · exact Or.inr ⟨r, hth, hrestarts⟩
    · exact Or.inl (dispensable_of_spares hserved (fun row => claims_pending hth) hspares)
  have hidle : (∀ row, (s.threads e).supports row = false) → s.dispensable e = true := fun hnone =>
    dispensable_of fun k row _ _ hown => by rw [hnone] at hown; cases hown
  cases hth : s.threads e with
  | payment r pc =>
    cases pc with
    | find =>
      simp only [leavesNoGap, hth] at h
      simpa only [hth] using hclaims r (Or.inl hth) (by rw [hth]; rfl) h
    | claim t =>
      simp only [leavesNoGap, hth] at h
      simpa only [hth] using hclaims r (Or.inr ⟨t, hth⟩) (by rw [hth]; rfl) h
    | publish t ids =>
      refine Or.inl (hidle fun row => ?_)
      rw [hth, ← Bool.not_eq_true, payment_supports]
      simp [Thread.claims, Thread.settles]
    | publishFailure eventId =>
      refine Or.inl (hidle fun row => ?_)
      rw [hth, ← Bool.not_eq_true, payment_supports]
      simp [Thread.claims, Thread.settles, Thread.copy]
    | _ =>
      simp only [leavesNoGap, hth, Thread.copy, Option.all_some] at h
      exact Or.inl (dispensable_of_claim hth rfl h)
  | retry caller k event pc =>
    cases pc with
    | enqueue =>
      simp only [leavesNoGap, hth] at h
      exact Or.inl (dispensable_of_spares (by rw [hth]; rfl)
        (fun row hrow => revives_pending (by rwa [hth] at hrow)) h)
    | _ => exact Or.inl (hidle fun row => supports_eq_false (by simp [hth]) (by simp [hth]))
  | _ => exact Or.inl (hidle fun row => supports_eq_false (by simp [hth]) (by simp [hth]))

/-! ## A step of a thread -/

/-- Thread `e` takes a step in a state that the service can reach. -/
structure RunStep (cfg : Config) (s s' : State) (e : ℕ) (o : Outcome) (th' : Thread) : Prop where
  adv : advance cfg s.world e (s.threads e) o = some (s'.world, th')
  next : s'.nextThread = s.nextThread
  threads : ∀ e', s'.threads e' = if e' = e then th' else s.threads e'
  started : e < s.nextThread
  known : JobsKnown s
  coherent : (s.threads e).Coherent
  unique : UniqueReferences s

section RunStep
variable {cfg : Config} {s s' : State} {e : ℕ} {o : Outcome} {th' : Thread}
  (h : RunStep cfg s s' e o th')
include h

theorem RunStep.others {row : CashbackTransaction}
    (hdue : s.world.webhookDue row = true → s'.world.webhookDue row = true)
    (hrow : s.supported (fun e' => e' ≠ e) row = true) :
    s'.supported (fun _ => true) row = true :=
  supported_mono hdue (fun _ => jobDue_run h.adv h.threads) (Nat.le_of_eq h.next.symm)
    (fun e' hne _ => (h.threads e').trans (if_neg (of_decide_eq_true hne))) hrow

theorem RunStep.own {row : CashbackTransaction} (hrow : th'.supports row = true) :
    s'.supported (fun _ => true) row = true := by
  refine supported_iff.mpr (Or.inr (Or.inr (Or.inr ⟨e, h.next ▸ h.started, rfl, ?_⟩)))
  rw [h.threads, if_pos rfl]
  exact hrow

/-- The attempt's job is back on the waiting list. -/
theorem RunStep.back {r : PaymentRun}
    (hqueue : s'.world.queue = (s.world.failJob e r.job).queue)
    (hback : s.world.goesBack e r = true) {row : CashbackTransaction}
    (hpending : row.status = .pending) (hk : r.transactionId = row.id) :
    s'.supported (fun _ => true) row = true := by
  obtain ⟨job, hjob, hid, hwaiting⟩ := failJob_goesBack hback
  obtain ⟨old, hold, -⟩ := (Option.any_eq_true _ _).mp hback
  have hlt := Nat.lt_of_lt_of_le (h.known.lt hold) (advance_jobs h.adv).nextJob
  refine supported_iff.mpr (Or.inr (Or.inr (Or.inl ⟨hpending, jobDue_iff.mpr ⟨r.job, job, hlt, ?_⟩⟩)))
  rw [← hk, ← hid]
  exact ⟨hqueue ▸ hjob, startable_waiting hwaiting⟩

/-- A row that the thread does not support loses nothing. -/
theorem RunStep.idle {row : CashbackTransaction} (hth : ∀ hook pc, s.threads e ≠ .webhook hook pc)
    (hown : (s.threads e).supports row = false) (hrow : s.supported (fun _ => true) row = true) :
    s'.supported (fun _ => true) row = true := by
  refine h.others (advance_due h.adv hth row) ((supported_split e hrow).resolve_right ?_)
  rw [hown]
  simp

/-- An open row that is not written keeps the webhook it is owed. -/
theorem RunStep.due {row : CashbackTransaction} (hrow : s.world.row row.id = some row)
    (hrow' : s'.world.row row.id = some row) (hopen : row.isOpen = true)
    (hdue : s.world.webhookDue row = true) : s'.world.webhookDue row = true := by
  have hadv := h.adv
  cases hth : s.threads e with
  | webhook hook pc =>
    rw [hth] at hadv
    by_cases href : row.providerReference = some hook.reference
    · have howner : Owned s.world (s.threads e) row.id hook.reference :=
        Or.inl ⟨row, hrow, rfl, href⟩
      rcases handleWebhook_cases hadv with ⟨hpaystack, _⟩ | ⟨_, ⟨_, hclosed⟩ | ⟨t, rfl, hrows⟩⟩
      · exact KeepsDue.of_eq (by rw [hpaystack]) row hdue
      · -- the lookup found this row, so it is closed
        cases hfind : s.world.findByReference hook.reference with
        | none => exact absurd href (of_decide_eq_false (Table.find?_eq_none hfind hrow))
        | some t =>
          obtain ⟨ht, htref⟩ := Table.find?_eq_some hfind
          have hid := h.unique.unique e e t.id row.id hook.reference
            (Or.inl ⟨t, ht, rfl, of_decide_eq_true htref⟩) howner
          rw [hid] at ht
          rw [Option.some.inj (hrow.symm.trans ht), hclosed t hfind] at hopen
          cases hopen
      · -- the save wrote this row, so it is closed
        have href' : t.providerReference = some hook.reference := by
          have hco := h.coherent
          rwa [hth] at hco
        have hid := h.unique.unique e e row.id t.id hook.reference howner
          (Or.inr ⟨t, by rw [hth]; rfl, rfl, href'⟩)
        rw [hrows, if_pos hid, Option.some.injEq] at hrow'
        rw [← hrow', mark_closed] at hopen
        cases hopen
    · rcases (handleWebhook_frame hadv).1 with hpaystack | hpaystack
      · exact KeepsDue.of_eq (by rw [hpaystack]) row hdue
      · exact notifyTransfer_due hpaystack hdue href
  | _ => exact advance_due h.adv (by simp [hth]) row hdue

/-- The support of a row that is not written: what the thread itself gives is passed on, or the
guard knows of another. -/
theorem RunStep.unwritten {row : CashbackTransaction} (hguard : RunKeepsSupport s e o)
    (hrow : s.world.row row.id = some row) (hrow' : s'.world.row row.id = some row)
    (hall : s.supported (fun _ => true) row = true) :
    s'.supported (fun _ => true) row = true := by
  by_cases hopen : row.isOpen = true
  swap
  · exact supported_iff.mpr (Or.inl (Bool.not_eq_true _ ▸ hopen))
  have hothers := h.others (h.due hrow hrow' hopen)
  have hdispensable := fun hd => hothers (dispensable_supported hd h.coherent hrow hall)
  rcases supported_split e hall with hrest | hown
  · exact hothers hrest
  have hadv := h.adv
  have hco := h.coherent
  rcases supports_cases hown with ⟨r, pc, hth⟩ | ⟨hpending, caller, event, hth⟩
  · rw [hth] at hadv hown hco
    rcases payment_supports.mp hown with ⟨hpending, hclaims⟩ | ⟨hprocessing, hsettles⟩
    · rcases payment_claims hadv hrow hrow' hpending hclaims with hth' | ⟨hpc, hqueue⟩
      · exact h.own (by simp [Thread.supports, Thread.attempts, hpending, hth'])
      · have hback : s.world.goesBack e r = true ∨ s.dispensable e = true := by
          rcases hpc with ⟨rfl, error, written, ho⟩ | ⟨t, error, rfl, ho⟩
          · exact hguard.find r error written hth ho
          · exact hguard.claim r t error hth ho
        rcases hback with hback | hd
        · exact h.back hqueue hback hpending (claims_iff.mp hclaims).2
        · exact hdispensable hd
    · rcases payment_settles hadv hco hrow hrow' hprocessing hsettles with hth' | ⟨t, error, rfl, ho⟩
      · exact h.own (by simp [Thread.supports, Thread.attempts, hprocessing, hth'])
      · exact hdispensable (hguard.recover r t error hth ho)
  · rw [hth] at hadv
    have hadded : s'.world.queue = (s.world.addJob row.id event).queue →
        s'.supported (fun _ => true) row = true := fun hqueue => by
      refine supported_iff.mpr (Or.inr (Or.inr (Or.inl ⟨hpending, jobDue_iff.mpr ?_⟩)))
      refine ⟨s.world.queue.nextJob, ⟨row.id, event, 0, 0, .waiting⟩, ?_, ?_, startable_waiting rfl⟩
      · rw [hqueue]
        exact Nat.lt_succ_self _
      · rw [hqueue]
        exact Function.update_self _ _ _
    cases o with
    | ok =>
      obtain ⟨hw, _⟩ := some_pair_inj hadv
      exact hadded (by rw [hw])
    | fails error written =>
      obtain ⟨hw, _⟩ := some_pair_inj hadv
      cases written with
      | true => exact hadded (by rw [hw]; rfl)
      | false => exact hdispensable (hguard.enqueue caller row.id event error hth rfl)
    | recipient code => cases hadv

/-! The row that a statement leaves, for each statement that may leave an open one. -/

theorem RunStep.commit {event : BadgeUnlockedEvent} {t : CashbackTransaction}
    (hth : s.threads e = .badge (.commit event t)) (hguard : RunKeepsSupport s e o)
    (hne : s'.world.row t.id ≠ s.world.row t.id) : s'.supported (fun _ => true) t = true := by
  have hadv := h.adv
  rw [hth] at hadv
  have heffect : (o.takesEffect && s.world.holdsRow e t) = true := by
    by_contra hno
    exact hne ((commit_rows hadv t.id).trans (if_neg fun hyes => hno hyes.1))
  refine h.idle (by simp [hth]) (supports_eq_false (by simp [hth]) (by simp [hth])) ?_
  exact hguard.commit event t hth heffect

/-- The attempt that claimed the row will settle it. -/
theorem RunStep.claim {r : PaymentRun} {t row : CashbackTransaction}
    (hth : s.threads e = .payment r (.claim t)) (hguard : RunKeepsSupport s e o)
    (hrow : s.world.row r.transactionId = some row) (hpending : row.status = .pending)
    (hne : s'.world.row r.transactionId ≠ s.world.row r.transactionId) :
    s'.supported (fun _ => true) (row.claimed ⟨getProvider cfg, s.world.nextId⟩) = true := by
  have hadv := h.adv
  have hco := h.coherent
  rw [hth] at hadv hco
  have hstatus : s.world.statusOf r.transactionId = some .pending := by
    rw [World.statusOf, ← World.row, hrow, Option.map_some, hpending]
  cases o with
  | ok =>
    simp only [advance, processPayment, Bumpa.Cashback.claim, hstatus, if_true] at hadv
    split at hadv
    · obtain ⟨_, hth'⟩ := some_pair_inj hadv
      refine h.own ?_
      rw [hth']
      refine payment_supports.mpr (Or.inr ⟨rfl, settles_iff.mpr ⟨by simp, _, rfl, ?_, rfl⟩⟩)
      exact hco.trans (s.world.db.transactions.key_eq hrow).symm
    · cases hadv
  | fails error written =>
    cases written with
    | false =>
      obtain ⟨hw, _⟩ := some_pair_inj hadv
      refine absurd ?_ hne
      rw [hw, World.row, failJob_db]
      rfl
    | true => exact absurd hstatus (hguard.claimLost r t error hth rfl)
  | recipient code => cases hadv

theorem RunStep.store {r : PaymentRun} {t : CashbackTransaction} {account : PayoutAccount}
    {result : CashbackPaymentResult} (hth : s.threads e = .payment r (.store t account result))
    (hguard : RunKeepsSupport s e o)
    (hne : s'.world.row t.id ≠ s.world.row t.id) :
    s'.supported (fun _ => true) (t.withResult (s.world.rowOf t) result) = true := by
  have hadv := h.adv
  rw [hth] at hadv
  have heffect : o.takesEffect = true := by
    by_contra hno
    exact hne ((store_rows hadv t.id).trans (if_neg fun hyes => hno hyes.1))
  refine h.idle (by simp [hth]) ?_ (hguard.store r t account result hth heffect)
  rw [hth, ← Bool.not_eq_true, payment_supports]
  rintro (⟨_, hclaims⟩ | ⟨hprocessing, _⟩)
  · simp [Thread.claims] at hclaims
  · cases hstatus : result.status <;>
      simp [CashbackTransaction.withResult, hstatus, CashbackTransactionStatus.ofPayment]
        at hprocessing

theorem RunStep.reset {r : PaymentRun} {t row : CashbackTransaction} {error : Thrown}
    (hth : s.threads e = .payment r (.recover t error)) (hguard : RunKeepsSupport s e o)
    (hback : handsBack r (classifyCashbackFailure error) = true)
    (hrow : s.world.row r.transactionId = some row) (hprocessing : row.status = .processing)
    (hne : s'.world.row r.transactionId ≠ s.world.row r.transactionId) :
    s'.supported (fun _ => true) { row with status := .pending } = true := by
  have hadv := h.adv
  rw [hth] at hadv
  have hk : r.transactionId = row.id := (s.world.db.transactions.key_eq hrow).symm
  have heffect : o.takesEffect = true ∧
      s'.world = (s.world.resetTransaction r.transactionId).failJob e r.job := by
    have hsame : ((s.world.failJob e r.job).row r.transactionId) = s.world.row r.transactionId := by
      rw [World.row, failJob_db]
    simp only [advance, processPayment, recover, hback, if_true] at hadv
    grind [Outcome.takesEffect]
  have hthread : s.world.goesBack e r = true ∨
      s.supported (fun _ => true) { row with status := .pending } = true :=
    (hguard.reset r t error hth heffect.1 hback).imp_right fun hrows => hrows row hrow hprocessing
  rcases hthread with hjob | hsupported
  · refine h.back ?_ hjob rfl hk
    rw [heffect.2]
    exact failJob_queue rfl
  · refine h.idle (by simp [hth]) ?_ hsupported
    rw [hth, ← Bool.not_eq_true, payment_supports]
    simp [Thread.claims]

theorem RunStep.revive {caller : RetryCaller} {k : ReadableId} {event : BadgeUnlockedEvent}
    {row : CashbackTransaction} (hth : s.threads e = .retry caller k event .flip)
    (hguard : RunKeepsSupport s e o) (hrow : s.world.row k = some row)
    (hfailed : row.status = .failed) (hne : s'.world.row k ≠ s.world.row k) :
    s'.supported (fun _ => true) row.revived = true := by
  have hadv := h.adv
  rw [hth] at hadv
  have hk : row.id = k := s.world.db.transactions.key_eq hrow
  cases o with
  | ok =>
    simp only [advance, retryPayment] at hadv
    split at hadv
    · obtain ⟨_, hth'⟩ := some_pair_inj hadv
      refine h.own ?_
      rw [hth']
      simp [Thread.supports, Thread.revives, CashbackTransaction.revived, hk]
    · cases hadv
  | fails error written =>
    cases written with
    | false =>
      obtain ⟨hw, _⟩ := some_pair_inj hadv
      exact absurd (by rw [hw]) hne
    | true =>
      refine h.idle (by simp [hth]) (supports_eq_false (by simp [hth]) (by simp [hth])) ?_
      exact hguard.revive caller k event error row hth rfl hrow hfailed
  | recipient code => cases hadv

/-- The support of the row that a step writes. -/
theorem RunStep.written {k : ReadableId} {row : CashbackTransaction}
    (hguard : RunKeepsSupport s e o) (hall : AllSupported s)
    (hne : s'.world.row k ≠ s.world.row k) (hwrite : RowWrite cfg s.world e (s.threads e) k row) :
    s'.supported (fun _ => true) row = true := by
  generalize hth : s.threads e = th at hwrite
  cases hwrite with
  | commit held => exact h.commit hth hguard hne
  | claim found pending => exact h.claim hth hguard found pending hne
  | store free => exact h.store hth hguard hne
  | reset found processing back => exact h.reset hth hguard back found processing hne
  | failure final free => exact supported_iff.mpr (Or.inl rfl)
  | revive found failed => exact h.revive hth hguard found failed hne
  | @resetCount t row account found =>
    have hsame : s.supported (fun _ => true) { row with retryCount := 0 } =
        s.supported (fun _ => true) row := supported_congr rfl rfl rfl
    refine h.idle (by simp [hth]) (supports_eq_false (by simp [hth]) (by simp [hth])) ?_
    rw [hsame]
    exact hall _ _ found
  | webhook free => exact supported_iff.mpr (Or.inl (mark_closed _ _))

theorem RunStep.allSupported (hguard : RunKeepsSupport s e o) (hall : AllSupported s) :
    AllSupported s' := by
  intro k row hrow
  have hid : row.id = k := s'.world.db.transactions.key_eq hrow
  subst hid
  by_cases hsame : s'.world.row row.id = s.world.row row.id
  · exact h.unwritten hguard (hsame ▸ hrow) hrow (hall _ _ (hsame ▸ hrow))
  · rcases advance_rows h.adv with heq | ⟨k₀, v, hwrite, hrows⟩
    · exact absurd (heq _) hsame
    · have hwritten := hrows row.id
      split at hwritten
      · next hkey =>
        rw [hrow, Option.some.injEq] at hwritten
        subst hwritten
        exact h.written hguard hall hsame (hkey ▸ hwrite)
      · exact absurd hwritten hsame

end RunStep

/-! ## The other steps -/

/-- An operation starts, or time passes, or a webhook is sent. -/
theorem supported_started {s s' : State} (hs : JobsKnown s)
    (hqueue : s'.world.queue = s.world.queue) (hdue : KeepsDue s.world s'.world)
    (hnext : s.nextThread ≤ s'.nextThread)
    (hthreads : ∀ e, e < s.nextThread → s'.threads e = s.threads e) {row : CashbackTransaction}
    (hrow : s.supported (fun _ => true) row = true) : s'.supported (fun _ => true) row = true := by
  refine supported_mono (hdue row) (fun k => jobDue_mono (by rw [hqueue]) ?_) hnext
    (fun e _ => hthreads e) hrow
  intro j job _ hjob hstart
  refine ⟨job, by rw [hqueue, hjob], ?_⟩
  rw [startable_congr fun e hactive => ?_, hstart]
  rw [hthreads e (hs.active j job e hjob hactive)]

/-- The job that a worker takes is now an attempt on its way to the claim. -/
theorem supported_takeJob {s s' : State} {j : ℕ} (hs : JobsKnown s)
    (h : takeJob s j = some s') {row : CashbackTransaction}
    (hrow : s.supported (fun _ => true) row = true) : s'.supported (fun _ => true) row = true := by
  obtain ⟨taken, htaken, _, hw, hnext, hthreads⟩ := takeJob_spec h
  have hold : ∀ e, e < s.nextThread → s'.threads e = s.threads e :=
    fun e he => (hthreads e).trans (if_neg (Nat.ne_of_lt he))
  refine supported_iff.mpr ?_
  rcases supported_iff.mp hrow with hclosed | hdue | ⟨hpending, hjob⟩ | ⟨e, he, _, hsupports⟩
  · exact Or.inl hclosed
  · exact Or.inr (Or.inl (by rw [hw]; exact hdue))
  · obtain ⟨j', job, hj', hjob', hstart⟩ := jobDue_iff.mp hjob
    by_cases hj : j' = j
    · subst hj
      rw [htaken, Option.some.injEq] at hjob'
      subst hjob'
      have hid : taken.transactionId = row.id := by
        simp only [Job.startable, Bool.and_eq_true, decide_eq_true_eq] at hstart
        exact hstart.1
      refine Or.inr (Or.inr (Or.inr ⟨s.nextThread, by omega, rfl, ?_⟩))
      rw [hthreads, if_pos rfl]
      exact payment_supports.mpr (Or.inl ⟨hpending, claims_iff.mpr ⟨Or.inl rfl, hid⟩⟩)
    · refine Or.inr (Or.inr (Or.inl ⟨hpending, jobDue_iff.mpr ⟨j', job, ?_, ?_, ?_⟩⟩))
      · rw [hw]
        exact hj'
      · rw [hw]
        exact (Function.update_of_ne hj _ _).trans hjob'
      · rw [startable_congr fun e hactive => ?_, hstart]
        rw [hold e (hs.active j' job e hjob' hactive)]
  · exact Or.inr (Or.inr (Or.inr ⟨e, by omega, rfl, by rw [hold e he]; exact hsupports⟩))

/-- A stalled job whose worker is gone goes back to the waiting list. -/
theorem supported_stallJob {s s' : State} {j : ℕ} (h : stallJob s j = some s')
    {row : CashbackTransaction} (hrow : s.supported (fun _ => true) row = true) :
    s'.supported (fun _ => true) row = true := by
  obtain ⟨job, e, hjob, hactive, rfl⟩ := stallJob_spec h
  refine supported_mono (fun hdue : s.world.webhookDue row = true => hdue)
    (fun k => jobDue_mono (Nat.le_refl _) ?_) (Nat.le_refl _) (fun _ _ _ => rfl) hrow
  intro j' job' _ hjob' hstart
  by_cases hj : j' = j
  · subst hj
    rw [hjob, Option.some.injEq] at hjob'
    subst hjob'
    obtain ⟨hid, _, hstalled⟩ := (startable_active hactive).mp hstart
    refine ⟨_, Function.update_self _ _ _, ?_⟩
    simp [Job.startable, hid, hstalled]
  · exact ⟨job', (Function.update_of_ne hj _ _).trans hjob', hstart⟩

/-- A crashed attempt leaves its job to be started again, or its row to others. -/
theorem supported_crash {cfg : Config} {s s' : State} {e : ℕ} (hs : JobsKnown s)
    (hco : (s.threads e).Coherent) (hguard : leavesNoGap s (.crash e) = true)
    (h : step cfg s (.crash e) = some s') {row : CashbackTransaction}
    (hfound : s.world.row row.id = some row) (hrow : s.supported (fun _ => true) row = true) :
    s'.supported (fun _ => true) row = true := by
  rw [step, Option.some.injEq] at h
  subst h
  have hothers : ∀ hrest : s.supported (fun e' => e' ≠ e) row = true,
      State.supported ⟨s.world.unlock e, Function.update s.threads e .done, s.nextThread⟩
        (fun _ => true) row = true := by
    refine supported_mono id (fun k => jobDue_mono (Nat.le_refl _) ?_) (Nat.le_refl _)
      fun e' hne _ => Function.update_of_ne (of_decide_eq_true hne) _ _
    refine fun j job _ hjob hstart => ⟨job, hjob, ?_⟩
    rw [startable_congr fun e' hactive => ?_, hstart]
    by_cases he : e' = e
    · subst he
      rw [((startable_active hactive).mp hstart).2.1]
      exact congrArg Thread.isDone (Function.update_self _ _ _)
    · exact congrArg Thread.isDone (Function.update_of_ne he _ _)
  rcases supported_split e hrow with hrest | hown
  · exact hothers hrest
  rcases leavesNoGap_crash hguard with hd | ⟨r, hth, hrestarts⟩
  · exact hothers (dispensable_supported hd hco hfound hrow)
  have hpending := claims_pending hth hown
  have hk : r.transactionId = row.id := by
    have hserved := supports_served hco hown
    rcases hth with hth | ⟨t, hth⟩ <;>
    · rw [hth] at hserved
      exact Option.some.inj hserved
  obtain ⟨job, hjob, hstart⟩ := (Option.any_eq_true _ _).mp hrestarts
  simp only [Bool.and_eq_true, decide_eq_true_eq] at hstart
  obtain ⟨⟨hid, hactive⟩, hstalled⟩ := hstart
  refine supported_iff.mpr (Or.inr (Or.inr (Or.inl ⟨hpending, jobDue_iff.mpr
    ⟨r.job, job, hs.lt hjob, hjob, (startable_active hactive).mpr ⟨?_, ?_, hstalled⟩⟩⟩)))
  · rw [hid, hk]
  · exact Function.update_self _ _ _

/-! ## Runs -/

theorem allSupported_step {cfg : Config} {tr : List (Move State Label)} {s s' : State} {l : Label}
    (h : Reaches cfg tr s) (hguard : leavesNoGap s l = true) (hall : AllSupported s)
    (hstep : step cfg s l = some s') : AllSupported s' := by
  have hknown := reaches_jobsKnown h
  have hstarted : s'.world.db.transactions = s.world.db.transactions →
      s'.world.queue = s.world.queue → KeepsDue s.world s'.world → s.nextThread ≤ s'.nextThread →
      (∀ e, e < s.nextThread → s'.threads e = s.threads e) → AllSupported s' := by
    intro hrows hqueue hdue hnext hthreads k row hrow
    refine supported_started hknown hqueue hdue hnext hthreads (hall k row ?_)
    rw [World.row, ← hrows]
    exact hrow
  have hspawn : ∀ th, some (s.spawn th) = some s' → AllSupported s' := by
    rintro th ⟨⟩
    refine hstarted rfl rfl (fun _ hdue => hdue) (Nat.le_succ _) fun e he => ?_
    rw [spawn_threads, if_neg (Nat.ne_of_lt he)]
  cases l with
  | tick ms =>
    cases hstep
    exact hstarted rfl rfl (fun _ hdue => hdue) (Nat.le_refl _) fun _ _ => rfl
  | badgeUnlocked event => exact hspawn _ hstep
  | retryRequest k override => exact hspawn _ hstep
  | scan => exact hspawn _ hstep
  | webhook hook =>
    obtain ⟨hw, hnext, hthreads⟩ := receiveWebhook_spec hstep
    have hold : ∀ e, e < s.nextThread → s'.threads e = s.threads e :=
      fun e he => (hthreads e).trans (if_neg (Nat.ne_of_lt he))
    rcases hw with hw | ⟨_, hw⟩
    · exact hstarted (by rw [hw]) (by rw [hw]) (hw ▸ fun _ hdue => hdue) (by omega) hold
    · exact hstarted (by rw [hw]; rfl) (by rw [hw]; rfl) (hw ▸ reportTransfer_due _ _) (by omega)
        hold
  | takeJob j =>
    obtain ⟨_, _, _, hw, _⟩ := takeJob_spec hstep
    intro k row hrow
    rw [hw] at hrow
    exact supported_takeJob hknown hstep (hall k row hrow)
  | stallJob j =>
    obtain ⟨_, _, _, _, hs'⟩ := stallJob_spec hstep
    intro k row hrow
    rw [hs'] at hrow
    exact supported_stallJob hstep (hall k row hrow)
  | crash e =>
    intro k row hrow
    have hrow₀ : s.world.row k = some row := by
      cases hstep
      exact hrow
    have hid : row.id = k := s.world.db.transactions.key_eq hrow₀
    exact supported_crash hknown (reaches_coherent h e) hguard hstep (hid.symm ▸ hrow₀)
      (hall k row hrow₀)
  | run e o =>
    obtain ⟨th', hadv, hnext, hthreads⟩ := step_run hstep
    have hstarted : e < s.nextThread := by
      refine Nat.lt_of_not_le fun hle => ?_
      rw [thread_beyond h e hle] at hadv
      cases hadv
    exact RunStep.allSupported ⟨hadv, hnext, hthreads, hstarted, hknown, reaches_coherent h e,
      reaches_uniqueReferences h⟩
      (leavesNoGap_run (reaches_coherent h e) (reaches_accepted h e) hguard) hall

theorem allSupported_run {cfg : Config} {tr : List (Move State Label)} {s : State}
    (h : Reaches cfg tr s) (hG : Guarded (fun s l => leavesNoGap s l = true) tr) :
    AllSupported s := by
  induction h with
  | nil => exact fun k row hrow => by cases hrow
  | snoc prev last ih =>
    obtain ⟨htr, hlast⟩ := guarded_snoc.mp hG
    exact allSupported_step prev hlast (ih htr) last

/-- In a run that leaves no gap, an open row has a job, an attempt or a webhook to
come, unless a retry has just flipped it and is about to add its job. -/
theorem not_stranded {cfg : Config} {tr : List (Move State Label)} {s : State}
    (h : Reaches cfg tr s) (hG : Guarded (fun s l => leavesNoGap s l = true) tr)
    {k : ReadableId} {row : CashbackTransaction} (hrow : s.world.row k = some row)
    (hretry : ∀ e, (s.threads e).revives k = false) : s.notStranded row = true := by
  have hid : row.id = k := s.world.db.transactions.key_eq hrow
  rcases notStranded_of_supported (allSupported_run h hG k row hrow) with hyes | ⟨e, he⟩
  · exact hyes
  · rw [hid, hretry] at he
    cases he

/-- The worker dies before it sees the answer to an accepted transfer; the webhook is to come. -/
theorem not_stranded_accepted : ∃ tr s row, Reaches paystackConfig tr s ∧
    s.world.row 0 = some row ∧ row.status = .processing ∧ s.threads 1 = .done ∧
    s.notStranded row = true := by
  obtain ⟨tr, s, h, hp⟩ := exists_run_of_trace (step paystackConfig) initial
    (deliver 0 (badgeEvent 0 "Bronze" "0123456789") ++ payNewRecipient 1 0 "RCP_1" ++ [.crash 1])
    (fun r => (r.1.all fun x => leavesNoGap x.source x.label) &&
      ((r.2.world.row 0).any fun row => row.status = .processing) && (r.2.threads 1).isDone &&
      (List.range r.2.nextThread).all fun e => !(r.2.threads e).revives 0) (by decide +kernel)
  simp only [Bool.and_eq_true, Option.any_eq_true, decide_eq_true_eq] at hp
  obtain ⟨⟨⟨hguard, row, hrow, hprocessing⟩, hdone⟩, hrange⟩ := hp
  refine ⟨tr, s, row, h, hrow, hprocessing, isDone_iff.mp hdone,
    not_stranded h (guarded_of_all hguard) hrow fun e => ?_⟩
  by_cases he : e < s.nextThread
  · simpa using List.all_eq_true.mp hrange e (List.mem_range.mpr he)
  · rw [thread_beyond h e (Nat.le_of_not_lt he)]
    rfl

/-- The worker dies right after its claim. -/
theorem cashback_stranded : ¬ ∀ (cfg : Config) (tr : List (Move State Label)) (s : State),
    Reaches cfg tr s → ∀ k row, s.world.row k = some row → s.notStranded row = true := by
  intro hall
  obtain ⟨tr, s, h, hp⟩ := exists_run_of_trace (step paystackConfig) initial
    (deliver 0 (badgeEvent 0 "Bronze" "0123456789") ++ .takeJob 0 :: Label.oks 1 2 ++ [.crash 1])
    (fun r => (r.2.world.row 0).any fun row => !r.2.notStranded row) (by decide +kernel)
  obtain ⟨row, hrow, hstranded⟩ := (Option.any_eq_true _ _).mp hp
  rw [hall paystackConfig tr s h 0 row hrow] at hstranded
  cases hstranded

end Bumpa.Cashback
