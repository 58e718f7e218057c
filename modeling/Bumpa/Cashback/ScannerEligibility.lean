import Bumpa.Cashback.Attempts
import Bumpa.Cashback.AutoRetryBound

/-! # What the scanner revives

The scanner evaluates eligibility once, for its whole list, and comes to each transaction of the
list later; the flip checks the status alone.

`scanner_moves_eligible`: each row that a scanner moves from FAILED to PENDING is a candidate at
that moment, if nobody leaves a FAILED row that is none while a scanner has its transaction in the
list (`sparesListed`). `ineligible_revived` is a candidate that is retried by hand meanwhile and
then fails for good.
-/
namespace Bumpa.Cashback
open Bumpa.Events Bumpa.Relational Bumpa.Transition
set_option autoImplicit false

/-- `retryPayment` has not flipped the row yet. -/
def RetryPc.beforeFlip : RetryPc → Bool
  | .find => true
  | .flip => true
  | .enqueue => false

/-- A scanner that has transaction `k` in its list and has not come to its flip yet. -/
def Thread.scans (k : ReadableId) : Thread → Bool
  | .scan (.findAccount remaining) => remaining.any (·.id = k)
  | .retry (.scanner remaining) k' _ pc => (pc.beforeFlip && k' = k) || remaining.any (·.id = k)
  | _ => false

/-- With this row a transaction in a scanner's list is FAILED and not a candidate. -/
def State.disqualifies (cfg : Config) (s : State) (row : CashbackTransaction) : Bool :=
  row.status = .failed && !isCandidate cfg s.world.now row && s.anyThread (Thread.scans row.id)

/-- No save of a copy disqualifies a transaction in a scanner's list. -/
def sparesListed (cfg : Config) (s : State) : Label → Bool
  | .run e o =>
    match s.threads e with
    | .badge (.commit _ t) => !(o.takesEffect && s.world.holdsRow e t && s.disqualifies cfg t)
    | .payment r (.recover t error) =>
      !((Thread.payment r (.recover t error)).recordsFailure o &&
        s.disqualifies cfg (t.withFailure (s.world.rowOf t) cfg s.world.now
          (classifyCashbackFailure error)))
    | .webhook hook (.save t) => !(o.takesEffect && s.disqualifies cfg (hook.mark t))
    | _ => true
  | _ => true

/-- A scanner that moves a row moves a candidate. -/
def MovesEligible (cfg : Config) (x : Move State Label) : Prop :=
  ∀ k, scannerRevives k x = true → ∃ row, x.source.world.row k = some row ∧
    isCandidate cfg x.source.world.now row = true

/-- The FAILED rows in the scanners' lists are candidates. -/
def State.ListsEligible (cfg : Config) (s : State) : Prop :=
  ∀ e k row, (s.threads e).scans k = true → s.world.row k = some row → row.status = .failed →
    isCandidate cfg s.world.now row = true

/-! ## The clock -/

theorem failJob_now (w : World) (e j : ℕ) : (w.failJob e j).now = w.now := by
  unfold World.failJob
  split
  · split <;> rfl
  · rfl

theorem completeJob_now (w : World) (e j : ℕ) : (w.completeJob e j).now = w.now := by
  unfold World.completeJob
  split
  · split <;> rfl
  · rfl

theorem storeResult_now (w : World) (r : PaymentRun) (t : CashbackTransaction)
    (account : PayoutAccount) (result : CashbackPaymentResult) :
    (w.storeResult r t account result).now = w.now := by
  unfold World.storeResult
  split <;> split <;> rfl

theorem commitBadge_now (w : World) (e : ℕ) (event : BadgeUnlockedEvent)
    (t : CashbackTransaction) : (w.commitBadge e event t).now = w.now := by
  unfold World.commitBadge
  split <;> split <;> rfl

/-- Only `tick` moves the clock. -/
theorem advance_now {cfg : Config} {w w' : World} {e : ℕ} {th th' : Thread} {o : Outcome}
    (h : advance cfg w e th o = some (w', th')) : w'.now = w.now := by
  have hdraw : ∀ n, (w.drawIds n).now = w.now := fun _ => rfl
  have hadd : ∀ k event, (w.addJob k event).now = w.now := fun _ _ => rfl
  have hsave : ∀ account, (w.saveAccount account).now = w.now := fun _ => rfl
  cases th with
  | done => cases h
  | badge pc =>
    have hunlock : ∀ v : World, (v.unlock e).now = v.now := fun _ => rfl
    have hlock : ∀ key, (w.lock e key).now = w.now := fun _ => rfl
    simp only [advance] at h
    unfold handleBadgeUnlocked at h
    grind [commitBadge_now]
  | payment r pc =>
    have hclaim : ∀ k reference, ((w.drawIds 1).claimTransaction k reference).now = w.now :=
      fun _ _ => rfl
    have hreset : (w.resetTransaction r.transactionId).now = w.now := rfl
    have hfailure : ∀ t failure, (w.storeFailure cfg r t failure).now = w.now := fun _ _ => rfl
    have hcreate : ∀ code number bank, (w.createRecipient code number bank).now = w.now :=
      fun _ _ _ => rfl
    have haccept : ∀ transfer, (w.acceptTransfer transfer).now = w.now := fun _ => rfl
    cases pc
    all_goals
      simp only [advance, processPayment, findTransaction, claim, findAccount, saveAccount,
        sendCashback, initiateTransfer, receive, store, publish, recover, publishFailure] at h
      grind [failJob_now, completeJob_now, storeResult_now]
  | retry caller k event pc =>
    have hrevive : (w.reviveTransaction k).now = w.now := rfl
    simp only [advance] at h
    unfold retryPayment at h
    grind
  | manual pc =>
    have hreset : ∀ k, (w.resetRetryCount k).now = w.now := fun _ => rfl
    have hreset₂ : ∀ k, ((w.resetRetryCount k).drawIds 2).now = w.now := fun _ => rfl
    simp only [advance] at h
    unfold retryFailedTransaction at h
    grind
  | scan pc =>
    simp only [advance] at h
    unfold retryEligibleFailedTransactions at h
    grind
  | webhook hook pc =>
    have hnotify : ∀ reference, (w.notifyTransfer reference).now = w.now := fun _ => rfl
    have hstore : ∀ t, (w.storeWebhook hook t).now = w.now := fun _ => rfl
    simp only [advance] at h
    unfold handleWebhook at h
    grind

/-- A candidate stays one as time passes. -/
theorem isCandidate_mono {cfg : Config} {now now' : ℕ} (hle : now ≤ now') {t : CashbackTransaction}
    (h : isCandidate cfg now t = true) : isCandidate cfg now' t = true := by
  simp only [isCandidate, Bool.and_eq_true] at h ⊢
  refine ⟨h.1, ?_⟩
  have hdue := h.2
  cases hnext : t.nextRetryAt with
  | none => rfl
  | some at' =>
    rw [hnext, Option.all_some, decide_eq_true_eq] at hdue
    exact decide_eq_true (Nat.le_trans hdue hle)

theorem Ambient.now_le {w w' : World} (h : Ambient w w') : w.now ≤ w'.now := by
  cases h with
  | tick ms => exact Nat.le_add_right _ _
  | _ => exact Nat.le_refl _

/-! ## One step -/

/-- A scanner's list only gets shorter after the scan, which lists candidates. -/
theorem advance_scans {cfg : Config} {w w' : World} {e : ℕ} {th th' : Thread} {o : Outcome}
    {k : ReadableId} (h : advance cfg w e th o = some (w', th')) (hk : th'.scans k = true) :
    th.scans k = true ∨ w'.db = w.db ∧ ∀ row, w.row k = some row →
      isCandidate cfg w.now row = true := by
  have hlisted : (w.db.transactions.filter (isCandidate cfg w.now)).any (·.id = k) = true →
      ∀ row, w.row k = some row → isCandidate cfg w.now row = true := by
    intro hany row hrow
    obtain ⟨t, ht, hid⟩ := List.any_eq_true.mp hany
    obtain ⟨hmem, hcandidate⟩ := List.mem_filter.mp ht
    have hfound : w.row t.id = some t := Table.mem_rows.mp hmem
    rw [of_decide_eq_true hid, hrow, Option.some.injEq] at hfound
    rwa [hfound]
  cases th with
  | done => cases h
  | badge pc => rcases (handleBadgeUnlocked_frame h).2.2 with rfl | ⟨pc', rfl⟩ <;> cases hk
  | payment r pc => rcases processPayment_thread h with rfl | ⟨pc', rfl⟩ <;> cases hk
  | retry caller k' event pc =>
    simp only [advance] at h
    unfold retryPayment at h
    cases caller with
    | manual =>
      have hresume : RetryCaller.manual.resume = .done := rfl
      have hcatch : RetryCaller.manual.catch = .done := rfl
      grind [Thread.scans]
    | scanner remaining =>
      have hresume : (RetryCaller.scanner remaining).resume = .scan (.findAccount remaining) := rfl
      have hcatch : (RetryCaller.scanner remaining).catch = .scan (.findAccount remaining) := rfl
      grind [Thread.scans, RetryPc.beforeFlip]
  | manual pc =>
    rcases (retryFailedTransaction_frame h).2 with rfl | ⟨pc', rfl⟩ | ⟨k', event, rfl⟩ <;> cases hk
  | scan pc =>
    have hw := (retryEligibleFailedTransactions_world h).1
    simp only [advance] at h
    unfold retryEligibleFailedTransactions at h
    grind [Thread.scans, RetryPc.beforeFlip]
  | webhook hook pc => rcases (handleWebhook_frame h).2.2 with rfl | ⟨pc', rfl⟩ <;> cases hk

theorem disqualifies_eq_false {cfg : Config} {s : State} {row : CashbackTransaction}
    (hlisted : s.anyThread (Thread.scans row.id) = true) (h : s.disqualifies cfg row = false)
    (hfailed : row.status = .failed) : isCandidate cfg s.world.now row = true := by
  rw [State.disqualifies, hlisted, hfailed] at h
  simpa using h

/-- A FAILED row that is written while a scanner has its transaction in the list is a candidate. -/
theorem RowWrite.eligible {cfg : Config} {s : State} {e : ℕ} {o : Outcome} {k : ReadableId}
    {v : CashbackTransaction} (hv : RowWrite cfg s.world e (s.threads e) k v)
    (ho : o.takesEffect = true) (hG : sparesListed cfg s (.run e o) = true)
    (hlisted : s.anyThread (Thread.scans k) = true) (hco : (s.threads e).Coherent)
    (hs : ∀ row, s.world.row k = some row → row.status = .failed →
      isCandidate cfg s.world.now row = true)
    (hfailed : v.status = .failed) : isCandidate cfg s.world.now v = true := by
  generalize hth : s.threads e = th at hv hco
  cases hv with
  | @commit event t held =>
    have hheld : s.world.holdsRow e v = true := by simpa [World.holdsRow] using held
    refine disqualifies_eq_false hlisted ?_ hfailed
    simpa [sparesListed, hth, ho, hheld] using hG
  | claim => cases hfailed
  | @store r t account result free =>
    exact absurd (CashbackTransactionStatus.ofPayment_eq_failed.mp hfailed) hco.2.2
  | reset => cases hfailed
  | @failure r t error final free =>
    refine disqualifies_eq_false hlisted ?_ hfailed
    simpa [sparesListed, hth, Thread.recordsFailure, ho, final] using hG
  | revive => cases hfailed
  | @resetCount t row account found =>
    have hcandidate := hs row found hfailed
    simp only [isCandidate, Bool.and_eq_true, decide_eq_true_eq] at hcandidate ⊢
    obtain ⟨⟨hretryable, hcount⟩, hdue⟩ := hcandidate
    exact ⟨⟨hretryable, Nat.lt_of_le_of_lt (Nat.zero_le _) hcount⟩, hdue⟩
  | @webhook hook t free =>
    have hid : s.anyThread (Thread.scans (hook.mark t).id) = true := by rwa [mark_id]
    refine disqualifies_eq_false hid ?_ hfailed
    simpa [sparesListed, hth, ho] using hG

theorem listsEligible_step {cfg : Config} {tr : List (Move State Label)} {s s' : State} {l : Label}
    (hreach : Reaches cfg tr s) (hG : sparesListed cfg s l = true) (hs : s.ListsEligible cfg)
    (h : step cfg s l = some s') : s'.ListsEligible cfg := by
  intro e' k row hk hrow hfailed
  rcases step_cases h with ⟨e, o, th', rfl, hadv, _, hth⟩ | ⟨hw, _, hrest⟩
  · rw [advance_now hadv]
    have hlisted : (∃ e₀, (s.threads e₀).scans k = true) ∨ s'.world.db = s.world.db ∧
        ∀ row, s.world.row k = some row → isCandidate cfg s.world.now row = true := by
      rw [hth] at hk
      split at hk
      · exact (advance_scans hadv hk).imp_left fun hold => ⟨e, hold⟩
      · exact Or.inl ⟨e', hk⟩
    rcases hlisted with ⟨e₀, hold⟩ | ⟨hdb, hfound⟩
    · have hany := anyThread_of_thread hreach rfl hold
      rcases advance_writes hadv with hsame | ⟨ho, k', v, hv, hwritten⟩
      · exact hs e₀ k row hold ((hsame k).symm.trans hrow) hfailed
      · rw [hwritten] at hrow
        split at hrow
        · next heq =>
          subst heq
          rw [Option.some.injEq] at hrow
          rw [← hrow] at hfailed ⊢
          exact hv.eligible ho hG hany (reaches_coherent hreach e) (hs e₀ k · hold) hfailed
        · exact hs e₀ k row hold hrow hfailed
    · rw [World.row, hdb] at hrow
      exact hfound row hrow
  · have hold : (s.threads e').scans k = true := by
      rcases hrest with ⟨th, hstarted, _, hth⟩ | ⟨_, hth⟩
      · rw [hth] at hk
        split at hk
        · cases hstarted <;> cases hk
        · exact hk
      · rcases hth e' with heq | heq
        · rwa [heq] at hk
        · rw [heq] at hk
          cases hk
    rw [World.row, hw.transactions] at hrow
    exact isCandidate_mono hw.now_le (hs e' k row hold hrow hfailed)

/-- The flip of a scanner is one of a transaction in its list. -/
theorem movesEligible_of_lists {cfg : Config} {s s' : State} {l : Label}
    (hs : s.ListsEligible cfg) : MovesEligible cfg ⟨s, l, s'⟩ := by
  intro k hk
  unfold scannerRevives at hk
  split at hk
  · next e o _ =>
    split at hk
    · next remaining k' event hth =>
      simp only [Bool.and_eq_true, decide_eq_true_eq] at hk
      obtain ⟨⟨rfl, hfailed⟩, _⟩ := hk
      obtain ⟨row, hrow, hstatus⟩ := Option.map_eq_some_iff.mp hfailed
      have hscans : (s.threads e).scans k' = true := by
        rw [hth]
        simp [Thread.scans, RetryPc.beforeFlip]
      exact ⟨row, hrow, hs e k' row hscans hrow hstatus⟩
    · cases hk
  · cases hk

/-! ## Every run -/

/-- A scanner moves only candidates, if no save disqualifies a transaction in a scanner's list. -/
theorem scanner_moves_eligible {cfg : Config} {tr : List (Move State Label)} {s : State}
    (h : Reaches cfg tr s) (hG : Guarded (fun s l => sparesListed cfg s l = true) tr) :
    ∀ x ∈ tr, MovesEligible cfg x := by
  refine (Run.guarded_history (fun tr s => s.ListsEligible cfg ∧ ∀ x ∈ tr, MovesEligible cfg x)
    ⟨(fun _ _ _ hk => by cases hk), List.forall_mem_nil _⟩ ?_ h hG).2
  rintro tr s l s' hreach hl ⟨hs, hall⟩ hstep
  refine ⟨listsEligible_step hreach hl hs hstep, fun x hx => ?_⟩
  rcases List.mem_append.mp hx with hx | hx
  · exact hall x hx
  · rw [List.mem_singleton.mp hx]
    exact movesEligible_of_lists hs

/-! ## Schedules -/

/-- A transfer that failed for a reason that may pass, and a scanner that has listed it. -/
def listedByScanner : List Label :=
  deliver 0 (badgeEvent 0 "Bronze" "0123456789") ++ payNewRecipient 1 0 "RCP_1" ++
    Label.oks 1 3 ++ .webhook ⟨.failed, ⟨.paystack, 1⟩, some "Insufficient balance", none⟩ ::
    Label.oks 2 3 ++ [.scan, .run 3 .ok]

theorem scanner_moves_eligible_undisturbed : ∃ tr s, Reaches paystackConfig tr s ∧
    tr.any (scannerRevives 0) = true ∧ ∀ x ∈ tr, MovesEligible paystackConfig x := by
  obtain ⟨tr, s, h, hp⟩ := exists_run_of_trace (step paystackConfig) initial
    (listedByScanner ++ Label.oks 3 5)
    (fun r => (r.1.all fun x => sparesListed paystackConfig x.source x.label) &&
      r.1.any (scannerRevives 0)) (by decide +kernel)
  rw [Bool.and_eq_true] at hp
  exact ⟨tr, s, h, hp.2, scanner_moves_eligible h (guarded_of_all hp.1)⟩

/-- Before the scanner comes to it, the transaction is retried by hand and rejected for good. -/
theorem ineligible_revived : ¬ ∀ (cfg : Config) (tr : List (Move State Label)) (s : State),
    Reaches cfg tr s → ∀ x ∈ tr, MovesEligible cfg x := by
  intro hall
  obtain ⟨tr, s, h, hp⟩ := exists_run_of_trace (step paystackConfig) initial
    (listedByScanner ++ .retryRequest 0 ⟨none, none⟩ :: Label.oks 4 5 ++ .takeJob 1 ::
      Label.oks 5 5 ++ .run 5 (.fails (.other "Could not resolve account name") false) ::
      Label.oks 5 2 ++ Label.oks 3 3)
    (fun r => r.1.any fun x => scannerRevives 0 x &&
      (x.source.world.row 0).all (·.retryable = some false)) (by decide +kernel)
  obtain ⟨x, hx, hbad⟩ := List.any_eq_true.mp hp
  rw [Bool.and_eq_true] at hbad
  obtain ⟨row, hrow, hcandidate⟩ := hall _ tr s h x hx 0 hbad.1
  have hnot := hbad.2
  rw [hrow, Option.all_some, decide_eq_true_eq] at hnot
  simp [isCandidate, hnot] at hcandidate

end Bumpa.Cashback
