import Bumpa.Cashback.ScannerEligibility

/-! # When a failed transaction is retried

The catch block of `processPayment` counts a failure and sets `nextRetryAt` by the count. A webhook
handler records a failure without counting it and without setting `nextRetryAt`.

`retries_scheduled`: a FAILED row says why it failed and, if it may be retried, not to do so before
the delay for the number of recorded failures has elapsed, and the scanner waits that long, if no
webhook records a failure and no stale copy is saved (`schedulesRetries`). `webhook_unscheduled` is
a failure that a webhook reports.

The invariant is that the failures recorded since the count was reset are at most `retryCount`.
-/
namespace Bumpa.Cashback
open Bumpa.Events Bumpa.Relational Bumpa.Transition
set_option autoImplicit false

/-- The step records a failure of transaction `k`: the catch block's save, or a webhook's. -/
def recordsFailureOf (k : ReadableId) (s : State) : Label → Bool
  | .run e o =>
    match s.threads e with
    | .payment r (.recover t error) =>
      (Thread.payment r (.recover t error)).recordsFailure o && t.id = k
    | .webhook hook (.save t) => o.takesEffect && hook.event.outcome = .failed && t.id = k
    | _ => false
  | _ => false

/-- How many failures were recorded since the count was last reset, and when the last one was. -/
structure FailureRecord where
  count : ℕ
  lastAt : ℕ

def FailureRecord.next (k : ReadableId) (record : FailureRecord) (x : Move State Label) :
    FailureRecord :=
  if resetsCount k x.source x.label then { record with count := 0 }
  else if recordsFailureOf k x.source x.label then ⟨record.count + 1, x.source.world.now⟩
  else record

def failureRecord (k : ReadableId) (tr : List (Move State Label)) : FailureRecord :=
  tr.foldl (FailureRecord.next k) ⟨0, 0⟩

/-- No automatic retry before this time. -/
def FailureRecord.dueAt (cfg : Config) (record : FailureRecord) : ℕ :=
  record.lastAt + autoRetryDelayMs cfg record.count

/-- The row says why it failed and, if it may be retried, when. -/
structure Scheduled (cfg : Config) (record : FailureRecord) (row : CashbackTransaction) : Prop where
  code : row.failureCode.isSome
  reason : row.failureReason.isSome
  classified : row.retryable.isSome
  next : row.retryable = some true → ∃ due, row.nextRetryAt = some due ∧ record.dueAt cfg ≤ due

/-- No webhook records a failure, no save of a copy takes the count of its row back, and
`handleBadgeUnlocked` saves no FAILED copy. -/
def schedulesRetries (s : State) : Label → Bool
  | .run e o =>
    match s.threads e with
    | .badge (.commit _ t) =>
      !(o.takesEffect && s.world.holdsRow e t) || t.status ≠ .failed && !s.world.staleCount t
    | .payment _ (.store t _ _) => !o.takesEffect || !s.world.staleCount t
    | .payment r (.recover t error) =>
      !(Thread.payment r (.recover t error)).recordsFailure o || !s.world.staleCount t
    | .webhook hook (.save t) =>
      !o.takesEffect || hook.event.outcome ≠ .failed && !s.world.staleCount t
    | _ => true
  | _ => true

/-! ## The delay -/

theorem autoRetryDelayMs_mono (cfg : Config) {m n : ℕ} (h : m ≤ n) :
    autoRetryDelayMs cfg m ≤ autoRetryDelayMs cfg n := by
  have hpow : 2 ^ (m - 1) ≤ 2 ^ (n - 1) :=
    Nat.pow_le_pow_right (by decide) (Nat.sub_le_sub_right h 1)
  have hscaled : cfg.baseDelayMs * 2 ^ (m - 1) ≤ cfg.baseDelayMs * 2 ^ (n - 1) :=
    Nat.mul_le_mul_left _ hpow
  unfold autoRetryDelayMs
  omega

/-- With fewer failures the row is scheduled all the more. -/
theorem Scheduled.reset {cfg : Config} {record : FailureRecord} {row : CashbackTransaction}
    (h : Scheduled cfg record row) : Scheduled cfg { record with count := 0 } row := by
  refine ⟨h.code, h.reason, h.classified, fun hretryable => ?_⟩
  obtain ⟨due, hdue, hle⟩ := h.next hretryable
  have hless := autoRetryDelayMs_mono cfg (Nat.zero_le record.count)
  refine ⟨due, hdue, ?_⟩
  unfold FailureRecord.dueAt at hle ⊢
  simp only
  omega

theorem withFailure_scheduled {cfg : Config} {count now : ℕ} {t row : CashbackTransaction}
    (failure : CashbackPaymentError) (hcount : count ≤ t.retryCount) :
    Scheduled cfg ⟨count + 1, now⟩ (t.withFailure row cfg now failure) := by
  refine ⟨rfl, rfl, rfl, fun hretryable => ?_⟩
  have hretry : failure.retryable = true := Option.some.inj hretryable
  refine ⟨now + autoRetryDelayMs cfg (t.retryCount + 1), if_pos hretry, ?_⟩
  exact Nat.add_le_add_left (autoRetryDelayMs_mono cfg (Nat.succ_le_succ hcount)) now

/-! ## One step -/

/-- The recorded failures are counted, and a FAILED row is scheduled. -/
def Tracked (cfg : Config) (record : FailureRecord) : Option CashbackTransaction → Prop
  | none => record.count = 0
  | some row => record.count ≤ row.retryCount ∧ (row.status = .failed → Scheduled cfg record row)

theorem Tracked.reset {cfg : Config} {record : FailureRecord} {row : Option CashbackTransaction}
    (h : Tracked cfg record row) : Tracked cfg { record with count := 0 } row := by
  cases row with
  | none => rfl
  | some row => exact ⟨Nat.zero_le _, fun hfailed => (h.2 hfailed).reset⟩

/-- A copy that is not stale counts what its row counts. -/
theorem Tracked.count_le {cfg : Config} {record : FailureRecord} {w : World}
    {t : CashbackTransaction} (h : Tracked cfg record (w.row t.id))
    (hstale : w.staleCount t = false) : record.count ≤ t.retryCount := by
  cases hrow : w.row t.id with
  | none =>
    rw [hrow] at h
    exact h.trans_le (Nat.zero_le _)
  | some row =>
    rw [hrow] at h
    exact h.1.trans (not_staleCount hstale hrow)

/-- A save that is neither a recorded failure nor a reset. -/
theorem RowWrite.tracked {cfg : Config} {s : State} {e : ℕ} {o : Outcome} {k : ReadableId}
    {v : CashbackTransaction} {record : FailureRecord}
    (hv : RowWrite cfg s.world e (s.threads e) k v) (ho : o.takesEffect = true)
    (hG : schedulesRetries s (.run e o) = true) (hco : (s.threads e).Coherent)
    (hreset : resetsCount k s (.run e o) = false)
    (hrecord : recordsFailureOf k s (.run e o) = false)
    (h : Tracked cfg record (s.world.row k)) : Tracked cfg record (some v) := by
  generalize hth : s.threads e = th at hv hco
  cases hv with
  | @commit event t held =>
    have hheld : s.world.holdsRow e v = true := by simpa [World.holdsRow] using held
    simp only [schedulesRetries, hth, ho, hheld, Bool.and_true, Bool.not_true, Bool.false_or,
      Bool.and_eq_true, decide_eq_true_eq, Bool.not_eq_true'] at hG
    exact ⟨h.count_le hG.2, fun hfailed => absurd hfailed hG.1⟩
  | @claim r t row found pending =>
    rw [found] at h
    exact ⟨h.1, fun hfailed => by cases hfailed⟩
  | @store r t account result free =>
    simp only [schedulesRetries, hth, ho, Bool.not_true, Bool.false_or, Bool.not_eq_true'] at hG
    exact ⟨h.count_le hG,
      fun hfailed => absurd (CashbackTransactionStatus.ofPayment_eq_failed.mp hfailed) hco.2.2⟩
  | @reset r t row error found processing back =>
    rw [found] at h
    exact ⟨h.1, fun hfailed => by cases hfailed⟩
  | @failure r t error final free =>
    simp [recordsFailureOf, hth, Thread.recordsFailure, ho, final] at hrecord
  | @revive caller _ event row found failed =>
    rw [found] at h
    exact ⟨h.1, fun hfailed => by cases hfailed⟩
  | @resetCount t row account found => simp [resetsCount, hth, ho] at hreset
  | @webhook hook t free =>
    simp only [schedulesRetries, hth, ho, Bool.not_true, Bool.false_or, Bool.and_eq_true,
      decide_eq_true_eq, Bool.not_eq_true'] at hG
    have hmark : hook.mark t = t.markedSuccessful := by
      rw [TransferWebhook.mark, (outcome_cases hook.event).resolve_right hG.1]
    rw [hmark]
    exact ⟨h.count_le hG.2, fun hfailed => by cases hfailed⟩

/-- A reset keeps what the row says of its failure. -/
theorem RowWrite.tracked_reset {cfg : Config} {s : State} {e : ℕ} {o : Outcome} {k : ReadableId}
    {v : CashbackTransaction} {record : FailureRecord}
    (hv : RowWrite cfg s.world e (s.threads e) k v) (hreset : resetsCount k s (.run e o) = true)
    (h : Tracked cfg record (s.world.row k)) : Tracked cfg { record with count := 0 } (some v) := by
  generalize hth : s.threads e = th at hv
  cases hv with
  | @resetCount t row account found =>
    rw [found] at h
    refine ⟨Nat.zero_le _, fun hfailed => ?_⟩
    have hs := (h.2 hfailed).reset
    exact ⟨hs.code, hs.reason, hs.classified, hs.next⟩
  | _ => simp [resetsCount, hth] at hreset

/-- A recorded failure is counted and scheduled. -/
theorem tracked_recorded {cfg : Config} {s s' : State} {e : ℕ} {o : Outcome} {k : ReadableId}
    {th' : Thread} {record : FailureRecord} (hG : schedulesRetries s (.run e o) = true)
    (hrecord : recordsFailureOf k s (.run e o) = true)
    (hadv : advance cfg s.world e (s.threads e) o = some (s'.world, th'))
    (h : Tracked cfg record (s.world.row k)) :
    Tracked cfg ⟨record.count + 1, s.world.now⟩ (s'.world.row k) := by
  simp only [recordsFailureOf] at hrecord
  split at hrecord
  · next r t error hth =>
    rw [Bool.and_eq_true, decide_eq_true_eq] at hrecord
    obtain ⟨hrecords, rfl⟩ := hrecord
    rw [hth] at hadv
    have hrow := recover_rows hadv t.id
    rw [if_pos hrecords, if_pos rfl] at hrow
    simp only [schedulesRetries, hth, hrecords, Bool.not_true, Bool.false_or,
      Bool.not_eq_true'] at hG
    have hcount := h.count_le hG
    rw [hrow]
    exact ⟨Nat.succ_le_succ hcount, fun _ => withFailure_scheduled _ hcount⟩
  · next hook t hth =>
    simp only [Bool.and_eq_true, decide_eq_true_eq] at hrecord
    simp [schedulesRetries, hth, hrecord.1.1, hrecord.1.2] at hG
  · cases hrecord

theorem tracked_step {cfg : Config} {s s' : State} {l : Label} {k : ReadableId}
    {record : FailureRecord} (hco : ∀ e, (s.threads e).Coherent)
    (hG : schedulesRetries s l = true) (h : Tracked cfg record (s.world.row k))
    (hstep : step cfg s l = some s') :
    Tracked cfg (record.next k ⟨s, l, s'⟩) (s'.world.row k) := by
  unfold FailureRecord.next
  rcases step_cases hstep with ⟨e, o, th', rfl, hadv, _, _⟩ | ⟨hw, hl, _⟩
  · split_ifs with hreset hrecord
    · rcases advance_rows hadv with hsame | ⟨k', v, hv, hwritten⟩
      · rw [hsame]
        exact h.reset
      · rw [hwritten]
        split
        · next hk =>
          subst hk
          exact hv.tracked_reset hreset h
        · exact h.reset
    · exact tracked_recorded hG hrecord hadv h
    · rw [Bool.not_eq_true] at hreset hrecord
      rcases advance_writes hadv with hsame | ⟨ho, k', v, hv, hwritten⟩
      · rwa [hsame]
      · rw [hwritten]
        split
        · next hk =>
          subst hk
          exact hv.tracked ho hG (hco e) hreset hrecord h
        · exact h
  · have hquiet : resetsCount k s l = false ∧ recordsFailureOf k s l = false := by
      cases l with
      | run e o => exact absurd rfl (hl e o)
      | _ => exact ⟨rfl, rfl⟩
    simp only [hquiet.1, hquiet.2, Bool.false_eq_true, if_false]
    rw [World.row, hw.transactions]
    exact h

/-! ## Every run -/

theorem failureRecord_snoc (k : ReadableId) (tr : List (Move State Label)) (x : Move State Label) :
    failureRecord k (tr ++ [x]) = (failureRecord k tr).next k x := List.foldl_concat ..

theorem reaches_tracked {cfg : Config} {tr : List (Move State Label)} {s : State}
    (h : Reaches cfg tr s) (hG : Guarded (fun s l => schedulesRetries s l = true) tr)
    (k : ReadableId) : Tracked cfg (failureRecord k tr) (s.world.row k) := by
  have hinit : Tracked cfg (failureRecord k []) (initial.world.row k) := Eq.refl 0
  refine Run.guarded_history (fun tr s => Tracked cfg (failureRecord k tr) (s.world.row k))
    hinit ?_ h hG
  intro tr s l s' hreach hl htracked hstep
  rw [failureRecord_snoc]
  exact tracked_step (reaches_coherent hreach) hl htracked hstep

end Bumpa.Cashback
