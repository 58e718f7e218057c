import Bumpa.Cashback.Writes

/-! # How often the scanner retries a transaction

The scanner picks up FAILED rows marked retryable while their `retryCount` is below
`maxAutoRetries`. Only the catch block of `processPayment` advances the count; a webhook records
a retryable failure and leaves it as it is.

`auto_retries_bounded`: between two resets of the count by a manual retry the scanner moves a
transaction from FAILED to PENDING at most `maxAutoRetries` times, if no retryable failure is
recorded without advancing the count, no stale copy takes the count back, and each of the
scanner's candidates still is one when it is moved. `auto_retries_unbounded` is a run with failures
that arrive by webhook.

The potential is what is left of the budget: `maxAutoRetries - retryCount`, less the retry in
progress.
-/
namespace Bumpa.Cashback
open Bumpa.Events Bumpa.Relational Bumpa.Transition
set_option autoImplicit false

/-- FAILED and retryable: the scanner's, as far as the count allows. -/
def CashbackTransaction.awaitsRetry (t : CashbackTransaction) : Bool :=
  t.status = .failed && t.retryable = some true

/-- The scanner moves the transaction from FAILED to PENDING. -/
def scannerRevives (k : ReadableId) (x : Move State Label) : Bool :=
  match x.label with
  | .run e _ =>
    match x.source.threads e with
    | .retry (.scanner _) k' _ .flip =>
      k' = k && x.source.world.statusOf k = some .failed &&
        x.target.world.statusOf k = some .pending
    | _ => false
  | _ => false

/-- A manual retry resets the count of the transaction. -/
def resetsCount (k : ReadableId) (s : State) : Label → Bool
  | .run e o =>
    match s.threads e with
    | .manual (.resetCount t _) => o.takesEffect && t.id = k
    | _ => false
  | _ => false

/-- The copy has a lower count than its row. -/
def World.staleCount (w : World) (t : CashbackTransaction) : Bool :=
  (w.row t.id).any fun row => t.retryCount < row.retryCount

/-- The row of the copy awaits a retry already, or there is none. -/
def World.rowAwaitsRetry (w : World) (t : CashbackTransaction) : Bool :=
  (w.row t.id).all CashbackTransaction.awaitsRetry

/-- No save of a copy takes the count of its row back, none but the catch block's, which advances
it, makes a row await a retry, and the scanner moves only candidates. -/
def countsFailures (cfg : Config) (k : ReadableId) (s : State) : Label → Bool
  | .run e o =>
    match s.threads e with
    | .badge (.commit _ t) =>
      !(o.takesEffect && s.world.holdsRow e t && t.id = k) ||
        !s.world.staleCount t && (!t.awaitsRetry || s.world.rowAwaitsRetry t)
    | .payment _ (.store t _ _) => !(o.takesEffect && t.id = k) || !s.world.staleCount t
    | .payment r (.recover t error) =>
      !((Thread.payment r (.recover t error)).recordsFailure o && t.id = k) ||
        !s.world.staleCount t
    | .webhook hook (.save t) =>
      !(o.takesEffect && t.id = k) ||
        !s.world.staleCount t &&
          (hook.event.outcome ≠ .failed || !hook.failure.retryable || s.world.rowAwaitsRetry t)
    | .retry (.scanner _) k' _ .flip =>
      !(o.takesEffect && k' = k) ||
        (s.world.row k).all fun row =>
          row.status ≠ .failed || row.awaitsRetry && row.retryCount < cfg.maxAutoRetries
    | _ => true
  | _ => true

/-! ## The budget -/

/-- Retries by the scanner that are left; one that is in progress is paid for. -/
def retriesLeft (cfg : Config) : Option CashbackTransaction → ℕ
  | none => cfg.maxAutoRetries
  | some t =>
    if t.awaitsRetry then cfg.maxAutoRetries - t.retryCount
    else cfg.maxAutoRetries - t.retryCount - 1

theorem retriesLeft_le (cfg : Config) (row : Option CashbackTransaction) :
    retriesLeft cfg row ≤ cfg.maxAutoRetries := by
  cases row with
  | none => exact Nat.le_refl _
  | some t =>
    rw [retriesLeft]
    split
    · exact Nat.sub_le _ _
    · exact (Nat.sub_le _ _).trans (Nat.sub_le _ _)

/-- A row that does not await a retry has at most what a row with a lower or equal count has. -/
theorem retriesLeft_settled {cfg : Config} {row : Option CashbackTransaction}
    {v : CashbackTransaction} (hv : v.awaitsRetry = false)
    (hcount : ∀ t, row = some t → t.retryCount ≤ v.retryCount) :
    retriesLeft cfg (some v) ≤ retriesLeft cfg row := by
  have hleft : retriesLeft cfg (some v) = cfg.maxAutoRetries - v.retryCount - 1 := by
    rw [retriesLeft, hv]
    rfl
  rw [hleft]
  cases row with
  | none =>
    rw [retriesLeft]
    omega
  | some t =>
    have hle := hcount t rfl
    rw [retriesLeft]
    split <;> omega

/-- A failure that advances the count leaves no more than there was. -/
theorem retriesLeft_advanced {cfg : Config} {row : Option CashbackTransaction}
    {v : CashbackTransaction} (hcount : ∀ t, row = some t → t.retryCount < v.retryCount)
    (hpos : 0 < v.retryCount) : retriesLeft cfg (some v) ≤ retriesLeft cfg row := by
  have hleft : retriesLeft cfg (some v) ≤ cfg.maxAutoRetries - v.retryCount := by
    rw [retriesLeft]
    split <;> omega
  cases row with
  | none =>
    rw [retriesLeft]
    omega
  | some t =>
    have hlt := hcount t rfl
    have hright : cfg.maxAutoRetries - t.retryCount - 1 ≤ retriesLeft cfg (some t) := by
      rw [retriesLeft]
      split <;> omega
    omega

/-- A row that awaited a retry and still does. -/
theorem retriesLeft_awaiting {cfg : Config} {row : Option CashbackTransaction}
    {v : CashbackTransaction} (hrow : ∀ t, row = some t → t.awaitsRetry = true)
    (hcount : ∀ t, row = some t → t.retryCount ≤ v.retryCount) :
    retriesLeft cfg (some v) ≤ retriesLeft cfg row := by
  have hleft : retriesLeft cfg (some v) ≤ cfg.maxAutoRetries - v.retryCount := by
    rw [retriesLeft]
    split <;> omega
  cases row with
  | none =>
    rw [retriesLeft]
    omega
  | some t =>
    have hle := hcount t rfl
    have hright : retriesLeft cfg (some t) = cfg.maxAutoRetries - t.retryCount := by
      rw [retriesLeft, hrow t rfl]
      rfl
    omega

/-! ## One step -/

theorem not_staleCount {w : World} {t row : CashbackTransaction} (h : w.staleCount t = false)
    (hrow : w.row t.id = some row) : row.retryCount ≤ t.retryCount := by
  rw [World.staleCount, hrow, Option.any_some, decide_eq_false_iff_not] at h
  omega

theorem rowAwaitsRetry_spec {w : World} {t row : CashbackTransaction}
    (h : w.rowAwaitsRetry t = true) (hrow : w.row t.id = some row) : row.awaitsRetry = true := by
  rwa [World.rowAwaitsRetry, hrow, Option.all_some] at h

/-- A save of `v` under the key `j`, made if `b`. -/
theorem retriesLeft_save {cfg : Config} {w w' : World} {b : Bool} {j k : ReadableId}
    {v : CashbackTransaction}
    (h : ∀ k, w'.row k = if b = true ∧ k = j then some v else w.row k)
    (hv : b = true → j = k → retriesLeft cfg (some v) ≤ retriesLeft cfg (w.row k)) :
    retriesLeft cfg (w'.row k) ≤ retriesLeft cfg (w.row k) := by
  rw [h]
  split
  · next hsaved => exact hv hsaved.1 hsaved.2.symm
  · exact Nat.le_refl _

/-- The conditional updates keep the count and make no row await a retry. -/
theorem retriesLeft_updates {cfg : Config} {w w' : World} {e : ℕ} {th th' : Thread} {o : Outcome}
    {k : ReadableId} (hadv : advance cfg w e th o = some (w', th'))
    (h : ∀ v, RowWrite cfg w e th k v →
      ∃ row, w.row k = some row ∧ v.retryCount = row.retryCount ∧ v.awaitsRetry = false) :
    retriesLeft cfg (w'.row k) ≤ retriesLeft cfg (w.row k) := by
  rcases advance_rows hadv with hsame | ⟨j, v, hv, hwritten⟩
  · rw [hsame]
  · rw [hwritten]
    split
    · next hk =>
      subst hk
      obtain ⟨row, hrow, hcount, hsettled⟩ := h v hv
      refine retriesLeft_settled hsettled fun t ht => ?_
      rw [hrow, Option.some.injEq] at ht
      rw [hcount, ht]
    · exact Nat.le_refl _

theorem retriesLeft_badge {cfg : Config} {s : State} {e : ℕ} {o : Outcome} {k : ReadableId}
    {pc : BadgePc} {w' : World} {th' : Thread} (hth : s.threads e = .badge pc)
    (hG : countsFailures cfg k s (.run e o) = true)
    (hadv : advance cfg s.world e (.badge pc) o = some (w', th')) :
    retriesLeft cfg (w'.row k) ≤ retriesLeft cfg (s.world.row k) := by
  cases pc with
  | commit event t =>
    refine retriesLeft_save (commit_rows hadv) fun hb hk => ?_
    subst hk
    simp only [countsFailures, hth, hb, decide_true, Bool.and_true, Bool.not_true,
      Bool.false_or, Bool.and_eq_true, Bool.not_eq_true', Bool.or_eq_true] at hG
    obtain ⟨hstale, hawaits⟩ := hG
    have hcount : ∀ row, s.world.row t.id = some row → row.retryCount ≤ t.retryCount :=
      fun row hrow => not_staleCount hstale hrow
    rcases hawaits with hsettled | hrow
    · exact retriesLeft_settled hsettled hcount
    · exact retriesLeft_awaiting (fun row h => rowAwaitsRetry_spec hrow h) hcount
  | _ => exact retriesLeft_updates hadv (by intro v hv; cases hv)

theorem retriesLeft_payment {cfg : Config} {s : State} {e : ℕ} {o : Outcome} {k : ReadableId}
    {r : PaymentRun} {pc : PaymentPc} {w' : World} {th' : Thread}
    (hth : s.threads e = .payment r pc)
    (hG : countsFailures cfg k s (.run e o) = true)
    (hadv : advance cfg s.world e (.payment r pc) o = some (w', th')) :
    retriesLeft cfg (w'.row k) ≤ retriesLeft cfg (s.world.row k) := by
  cases pc with
  | claim t =>
    refine retriesLeft_updates hadv fun v hv => ?_
    cases hv with
    | claim found pending => exact ⟨_, found, rfl, rfl⟩
  | store t account result =>
    refine retriesLeft_save (store_rows hadv) fun hb hk => ?_
    subst hk
    simp only [countsFailures, hth, hb, decide_true, Bool.and_true, Bool.not_true,
      Bool.false_or, Bool.not_eq_true'] at hG
    have hsettled : (t.withResult (s.world.rowOf t) result).awaitsRetry = false := by
      simp [CashbackTransaction.awaitsRetry, CashbackTransaction.withResult]
    exact retriesLeft_settled hsettled fun row hrow => not_staleCount hG hrow
  | recover t error =>
    have hrows := recover_rows hadv k
    split at hrows
    · next hrecords =>
      rw [hrows]
      split
      · next hk =>
        subst hk
        simp only [countsFailures, hth, hrecords, decide_true, Bool.and_true, Bool.not_true,
          Bool.false_or, Bool.not_eq_true'] at hG
        refine retriesLeft_advanced (fun row hrow => ?_) (Nat.succ_pos _)
        exact Nat.lt_succ_of_le (not_staleCount hG hrow)
      · exact Nat.le_refl _
    · rcases hrows with hsame | ⟨row, hk, hrow, _, hreset⟩
      · rw [hsame]
      · rw [hreset, hrow]
        exact retriesLeft_settled rfl fun t ht => by rw [← Option.some.inj ht]
  | _ => exact retriesLeft_updates hadv (by intro v hv; cases hv)

theorem retriesLeft_webhook {cfg : Config} {s : State} {e : ℕ} {o : Outcome} {k : ReadableId}
    {hook : TransferWebhook} {pc : WebhookPc} {w' : World} {th' : Thread}
    (hth : s.threads e = .webhook hook pc) (hG : countsFailures cfg k s (.run e o) = true)
    (hadv : advance cfg s.world e (.webhook hook pc) o = some (w', th')) :
    retriesLeft cfg (w'.row k) ≤ retriesLeft cfg (s.world.row k) := by
  cases pc with
  | save t =>
    refine retriesLeft_save (webhookSave_rows hadv) fun hb hk => ?_
    subst hk
    simp only [countsFailures, hth, hb, decide_true, Bool.and_true, Bool.not_true,
      Bool.false_or, Bool.and_eq_true, Bool.not_eq_true', Bool.or_eq_true] at hG
    obtain ⟨hstale, hawaits⟩ := hG
    have hmarked : (hook.mark t).retryCount = t.retryCount := by
      unfold TransferWebhook.mark
      split <;> rfl
    have hcount : ∀ row, s.world.row t.id = some row → row.retryCount ≤ (hook.mark t).retryCount :=
      fun row hrow => by
        rw [hmarked]
        exact not_staleCount hstale hrow
    rcases hawaits with hsettled | hrow
    · refine retriesLeft_settled ?_ hcount
      unfold TransferWebhook.mark
      rcases outcome_cases hook.event with ho | ho
      · rw [ho]
        rfl
      · rw [ho] at hsettled ⊢
        simpa [CashbackTransaction.awaitsRetry, CashbackTransaction.markedFailed] using hsettled
    · exact retriesLeft_awaiting (fun row h => rowAwaitsRetry_spec hrow h) hcount
  | _ => exact retriesLeft_updates hadv (by intro v hv; cases hv)

theorem retriesLeft_manual {cfg : Config} {s : State} {e : ℕ} {o : Outcome} {k : ReadableId}
    {pc : ManualPc} {w' : World} {th' : Thread} (hth : s.threads e = .manual pc)
    (hseg : resetsCount k s (.run e o) = false)
    (hadv : advance cfg s.world e (.manual pc) o = some (w', th')) :
    retriesLeft cfg (w'.row k) ≤ retriesLeft cfg (s.world.row k) := by
  cases pc with
  | resetCount t account =>
    have hid : ∀ t : CashbackTransaction,
        ({ t with retryCount := 0 } : CashbackTransaction).id = t.id := fun _ => rfl
    have hother : t.id ≠ k → (s.world.resetRetryCount t.id).row k = s.world.row k := fun hk =>
      Table.updateWhere_row_of_ne hid (Ne.symm hk)
    simp only [resetsCount, hth, Bool.and_eq_false_iff, decide_eq_false_iff_not] at hseg
    simp only [advance, retryFailedTransaction] at hadv
    have hrow : w'.row k = s.world.row k := by
      have hdrawn : ((s.world.resetRetryCount t.id).drawIds 2).row k =
          (s.world.resetRetryCount t.id).row k := rfl
      grind [Outcome.takesEffect]
    rw [hrow]
  | _ => exact retriesLeft_updates hadv (by intro v hv; cases hv)

theorem retriesLeft_retry {cfg : Config} {s s' : State} {e : ℕ} {o : Outcome} {k : ReadableId}
    {caller : RetryCaller} {k' : ReadableId} {event : BadgeUnlockedEvent} {pc : RetryPc}
    {th' : Thread} (hth : s.threads e = .retry caller k' event pc)
    (hG : countsFailures cfg k s (.run e o) = true)
    (hadv : advance cfg s.world e (.retry caller k' event pc) o = some (s'.world, th')) :
    retriesLeft cfg (s'.world.row k) + (if scannerRevives k ⟨s, .run e o, s'⟩ then 1 else 0) ≤
      retriesLeft cfg (s.world.row k) := by
  by_cases hflip : pc = .flip ∧ ∃ remaining, caller = .scanner remaining
  · obtain ⟨rfl, remaining, rfl⟩ := hflip
    have hid : ∀ t : CashbackTransaction, t.revived.id = t.id := fun _ => rfl
    have hrevived := updateTransaction_rows hid (·.status = .failed) s.world k' k
    have hrows : s'.world.row k = s.world.row k ∨ o.takesEffect = true ∧
        ∃ row, k = k' ∧ s.world.row k' = some row ∧ row.status = .failed ∧
          s'.world.row k = some row.revived := by
      simp only [advance, retryPayment] at hadv
      simp only [decide_eq_true_eq] at hrevived
      grind [World.reviveTransaction, Outcome.takesEffect]
    rcases hrows with hsame | ⟨heffect, row, rfl, hrow, hfailed, hrevive⟩
    · -- a row that stays as it is was not moved
      have hnot : scannerRevives k ⟨s, .run e o, s'⟩ = false := by
        have hstatus : s'.world.statusOf k = s.world.statusOf k :=
          congrArg (Option.map CashbackTransaction.status) hsame
        simp only [scannerRevives, hth, hstatus]
        cases s.world.statusOf k with
        | none => simp
        | some status => cases status <;> simp
      rw [hnot, hsame]
      exact Nat.le_refl _
    · simp only [countsFailures, hth, heffect, hrow, hfailed, decide_true, Bool.and_true,
        Bool.not_true, Bool.false_or, Option.all_some, ne_eq, not_true_eq_false, decide_false,
        Bool.and_eq_true, decide_eq_true_eq] at hG
      have hbefore : retriesLeft cfg (some row) = cfg.maxAutoRetries - row.retryCount := by
        rw [retriesLeft, hG.1]
        rfl
      have hafter : retriesLeft cfg (some row.revived) =
          cfg.maxAutoRetries - row.retryCount - 1 := rfl
      rw [hrevive, hrow, hbefore, hafter]
      split <;> omega
  · have hnot : scannerRevives k ⟨s, .run e o, s'⟩ = false := by
      simp only [scannerRevives, hth]
      grind
    rw [hnot]
    refine (retriesLeft_updates hadv fun v hv => ?_)
    cases hv with
    | @revive _ _ _ row found failed => exact ⟨row, found, rfl, rfl⟩

/-- A move by the scanner pays a unit of the budget, and no other step raises it. -/
theorem retriesLeft_step {cfg : Config} {k : ReadableId} (s : State) (l : Label) (s' : State)
    (hG : resetsCount k s l = false ∧ countsFailures cfg k s l = true)
    (h : step cfg s l = some s') :
    retriesLeft cfg (s'.world.row k) + (if scannerRevives k ⟨s, l, s'⟩ then 1 else 0) ≤
      retriesLeft cfg (s.world.row k) := by
  obtain ⟨hseg, hG⟩ := hG
  rcases step_cases h with ⟨e, o, th', rfl, hadv, _, _⟩ | ⟨hw, hl, _⟩
  · have hnot : (∀ caller k' event pc, s.threads e ≠ .retry caller k' event pc) →
        scannerRevives k ⟨s, .run e o, s'⟩ = false := by
      intro hne
      simp only [scannerRevives]
      split
      · next heq => exact absurd heq (hne _ _ _ _)
      · rfl
    cases hth : s.threads e with
    | done =>
      rw [hth] at hadv
      cases hadv
    | badge pc =>
      rw [hth] at hadv
      rw [hnot (by simp [hth])]
      exact retriesLeft_badge hth hG hadv
    | payment r pc =>
      rw [hth] at hadv
      rw [hnot (by simp [hth])]
      exact retriesLeft_payment hth hG hadv
    | retry caller k' event pc =>
      rw [hth] at hadv
      exact retriesLeft_retry hth hG hadv
    | manual pc =>
      rw [hth] at hadv
      rw [hnot (by simp [hth])]
      exact retriesLeft_manual hth hseg hadv
    | scan pc =>
      rw [hth] at hadv
      rw [hnot (by simp [hth])]
      exact retriesLeft_updates hadv (by intro v hv; cases hv)
    | webhook hook pc =>
      rw [hth] at hadv
      rw [hnot (by simp [hth])]
      exact retriesLeft_webhook hth hG hadv
  · have hrow : s'.world.row k = s.world.row k := by rw [World.row, hw.transactions]
    have hnot : scannerRevives k ⟨s, l, s'⟩ = false := by
      cases l with
      | run e o => exact absurd rfl (hl e o)
      | _ => rfl
    rw [hrow, hnot]
    exact Nat.le_refl _

/-! ## A segment of a run -/

/-- From any state on, and as long as no manual retry resets the count of the transaction, the
scanner moves it at most `maxAutoRetries` times, if every step counts failures. -/
theorem auto_retries_bounded {cfg : Config} {k : ReadableId} {s₁ s : State}
    {tr : List (Move State Label)} (h : Run (step cfg) s₁ tr s)
    (hseg : Guarded (fun s l => resetsCount k s l = false) tr)
    (hG : Guarded (fun s l => countsFailures cfg k s l = true) tr) :
    tr.countP (scannerRevives k) ≤ cfg.maxAutoRetries := by
  have hpaid := Run.countP_add_le (scannerRevives k) (fun s => retriesLeft cfg (s.world.row k))
    retriesLeft_step h fun x hx => ⟨hseg x hx, hG x hx⟩
  have hbudget := retriesLeft_le cfg (s₁.world.row k)
  omega

/-! ## Schedules -/

/-- A rejected attempt of job 0 on thread `e`. -/
def rejectedAttempt (e : ℕ) : List Label :=
  .takeJob 0 :: Label.oks e 4 ++ [.run e (.fails fetchFailed false), .run e .ok]

/-- All three attempts of the job fail, and the scanner moves the transaction an interval later. -/
theorem auto_retries_after_attempts : ∃ tr s, Reaches paystackConfig tr s ∧
    0 < tr.countP (scannerRevives 0) ∧
    tr.countP (scannerRevives 0) ≤ paystackConfig.maxAutoRetries := by
  obtain ⟨tr, s, h, hp⟩ := exists_run_of_trace (step paystackConfig) initial
    (deliver 0 (badgeEvent 0 "Bronze" "0123456789") ++ rejectedAttempt 1 ++ rejectedAttempt 2 ++
      rejectedAttempt 3 ++ .tick 300000 :: .scan :: Label.oks 4 6)
    (fun r => (r.1.all fun x => !resetsCount 0 x.source x.label) &&
      (r.1.all fun x => countsFailures paystackConfig 0 x.source x.label) &&
      decide (0 < r.1.countP (scannerRevives 0))) (by decide +kernel)
  simp only [Bool.and_eq_true, decide_eq_true_eq] at hp
  obtain ⟨⟨hseg, hG⟩, hpos⟩ := hp
  refine ⟨tr, s, h, hpos, auto_retries_bounded h (fun x hx => ?_) (guarded_of_all hG)⟩
  simpa using List.all_eq_true.mp hseg x hx

/-- A transfer that is accepted, and reported failed for a reason that may pass; then a scan. -/
def failedByWebhook (e : ℕ) (reference : Reference) : List Label :=
  .webhook ⟨.failed, reference, some "Insufficient balance", none⟩ :: Label.oks e 3 ++
    .scan :: Label.oks (e + 1) 6

/-- A step of a manual retry, of whatever transaction. -/
def retriesManually (s : State) : Label → Bool
  | .run e _ =>
    match s.threads e with
    | .manual _ => true
    | .retry .manual _ _ _ => true
    | _ => false
  | _ => false

/-- With one automatic retry allowed, a transfer that keeps failing by webhook is retried twice. -/
theorem auto_retries_unbounded : ¬ ∀ (cfg : Config) (k : ReadableId)
    (tr : List (Move State Label)) (s : State), Reaches cfg tr s →
    Guarded (fun s l => retriesManually s l = false) tr →
    tr.countP (scannerRevives k) ≤ cfg.maxAutoRetries := by
  intro hall
  obtain ⟨tr, s, h, hp⟩ := exists_run_of_trace (step { paystackConfig with maxAutoRetries := 1 })
    initial
    (deliver 0 (badgeEvent 0 "Bronze" "0123456789") ++ payNewRecipient 1 0 "RCP_1" ++
      Label.oks 1 3 ++ failedByWebhook 2 ⟨.paystack, 1⟩ ++ .takeJob 1 :: Label.oks 4 9 ++
      failedByWebhook 5 ⟨.paystack, 7⟩)
    (fun r => (r.1.all fun x => !retriesManually x.source x.label) &&
      decide (r.1.countP (scannerRevives 0) = 2)) (by decide +kernel)
  simp only [Bool.and_eq_true, decide_eq_true_eq] at hp
  have hle := hall _ 0 tr s h fun x hx => by simpa using List.all_eq_true.mp hp.1 x hx
  simp only at hle
  omega

end Bumpa.Cashback
