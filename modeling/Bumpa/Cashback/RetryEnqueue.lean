import Bumpa.Cashback.Writes

/-! # A retry adds a job exactly when it flipped the row

`retryPayment` reads the status, flips FAILED to PENDING by a conditional UPDATE, and adds a job
whatever the UPDATE matched.

`retries_flipped`: the jobs it adds for a transaction are at most the times the row moved from
FAILED to PENDING, in every run in which each flip that goes through finds the row FAILED.
`retry_without_flip` is an operator and a scanner who both read FAILED before either flips.

The invariant gives every thread between its flip and its job one unit of the row's moves.
-/
namespace Bumpa.Cashback
open Bumpa.Events Bumpa.Relational Bumpa.Transition
set_option autoImplicit false

/-- `retryPayment` adds a job for transaction `k`. -/
def Thread.addsRetryJob (k : ReadableId) : Thread → Outcome → Bool
  | .retry _ k' _ .enqueue, o => k' = k && o.takesEffect
  | _, _ => false

/-- The step adds a job for transaction `k` on behalf of `retryPayment`. -/
def retryEnqueues (k : ReadableId) (x : Move State Label) : Bool :=
  match x.label with
  | .run e o => (x.source.threads e).addsRetryJob k o
  | _ => false

/-- The row of transaction `k` moves from FAILED to PENDING. -/
def flips (k : ReadableId) (x : Move State Label) : Bool :=
  x.source.world.statusOf k = some .failed && x.target.world.statusOf k = some .pending

/-- A flip of transaction `k` that goes through finds the row FAILED. -/
def flipsFailed (k : ReadableId) (s : State) : Label → Bool
  | .run e .ok =>
    match s.threads e with
    | .retry _ k' _ .flip => k' ≠ k || s.world.statusOf k = some .failed
    | _ => true
  | _ => true

/-- The thread has flipped transaction `k` and is about to add the job. -/
def Thread.flipped (k : ReadableId) : Thread → Bool
  | .retry _ k' _ .enqueue => k' = k
  | _ => false

/-- Only a thread that has flipped the transaction adds a job for it. -/
theorem addsRetryJob_flipped {k : ReadableId} {th : Thread} {o : Outcome}
    (h : th.addsRetryJob k o = true) : th.flipped k = true := by
  unfold Thread.addsRetryJob at h
  split at h
  · rw [Bool.and_eq_true] at h
    exact h.1
  · cases h

/-- `retryPayment` comes to its job by its flip, and does not stay there. -/
theorem retryPayment_flipped {w w' : World} {caller : RetryCaller} {j k : ReadableId}
    {event : BadgeUnlockedEvent} {pc : RetryPc} {o : Outcome} {th' : Thread}
    (h : retryPayment w caller j event pc o = some (w', th')) :
    th'.flipped k = false ∨ pc = .flip ∧ o = .ok ∧ j = k ∧ w' = w.reviveTransaction k := by
  have hresume : caller.resume.flipped k = false := by
    rcases caller.resume_cases with heq | ⟨pc', heq⟩ <;> rw [heq] <;> rfl
  have hcatch : caller.catch.flipped k = false := hresume
  unfold retryPayment at h
  grind [Thread.flipped]

theorem advance_flipped {cfg : Config} {w w' : World} {e : ℕ} {th th' : Thread} {o : Outcome}
    {k : ReadableId} (h : advance cfg w e th o = some (w', th')) :
    th'.flipped k = false ∨ ∃ caller event, th = .retry caller k event .flip ∧ o = .ok ∧
      w' = w.reviveTransaction k := by
  cases th with
  | done => cases h
  | badge pc =>
    refine Or.inl ?_
    rcases (handleBadgeUnlocked_frame h).2.2 with rfl | ⟨pc', rfl⟩ <;> rfl
  | payment r pc =>
    refine Or.inl ?_
    rcases processPayment_thread h with rfl | ⟨pc', rfl⟩ <;> rfl
  | retry caller j event pc =>
    rcases retryPayment_flipped (k := k) h with hnot | ⟨rfl, rfl, rfl, rfl⟩
    · exact Or.inl hnot
    · exact Or.inr ⟨caller, event, rfl, rfl, rfl⟩
  | manual pc =>
    refine Or.inl ?_
    rcases (retryFailedTransaction_frame h).2 with rfl | ⟨pc', rfl⟩ | ⟨_, _, rfl⟩ <;> rfl
  | scan pc =>
    refine Or.inl ?_
    rcases retryEligibleFailedTransactions_thread h with rfl | ⟨pc', rfl⟩ | ⟨_, _, _, rfl⟩ <;> rfl
  | webhook hook pc =>
    refine Or.inl ?_
    rcases (handleWebhook_frame h).2.2 with rfl | ⟨pc', rfl⟩ <;> rfl

/-- A flip that finds its row FAILED leaves it PENDING. -/
theorem reviveTransaction_status {w : World} {k : ReadableId} (h : w.statusOf k = some .failed) :
    (w.reviveTransaction k).statusOf k = some .pending := by
  obtain ⟨row, hrow, hstatus⟩ := Option.map_eq_some_iff.mp h
  have hid : ∀ t : CashbackTransaction, t.revived.id = t.id := fun _ => rfl
  have hrevived : (w.reviveTransaction k).row k =
      some (if row.status = .failed then row.revived else row) := by
    refine (updateTransaction_row _ hid hrow).trans ?_
    simp only [decide_eq_true_eq]
  rw [World.statusOf, ← World.row, hrevived, if_pos hstatus]
  rfl

/-- One step pays for the job it adds, or for the thread it brings to its job, by a move of the
row. -/
theorem flipped_step {cfg : Config} {k : ReadableId} {tr : List (Move State Label)} {s s' : State}
    {l : Label} (hreach : Reaches cfg tr s) (hG : flipsFailed k s l = true)
    (h : step cfg s l = some s') :
    s'.count (Thread.flipped k) + (retryEnqueues k ⟨s, l, s'⟩).toNat ≤
      s.count (Thread.flipped k) + (flips k ⟨s, l, s'⟩).toNat := by
  have hstart : ∀ th, Started th → th.flipped k = false := by
    rintro th ⟨⟩ <;> rfl
  rcases step_count hreach h rfl hstart with ⟨e, o, th', rfl, _, hadv, hcount⟩ | ⟨hl, _, hle⟩
  · simp only [retryEnqueues]
    rcases advance_flipped (k := k) hadv with hnot | ⟨caller, event, hpc, rfl, hw⟩
    · have himp : ((s.threads e).addsRetryJob k o).toNat ≤ ((s.threads e).flipped k).toNat := by
        cases ho : (s.threads e).addsRetryJob k o with
        | false => exact Nat.zero_le _
        | true => rw [addsRetryJob_flipped ho]
      rw [hnot, Bool.toNat_false] at hcount
      omega
    · have hfailed : s.world.statusOf k = some .failed := by
        simpa [flipsFailed, hpc] using hG
      have hflips : flips k ⟨s, .run e .ok, s'⟩ = true := by
        simp [flips, hw, hfailed, reviveTransaction_status hfailed]
      have hadds : (s.threads e).addsRetryJob k .ok = false := by
        rw [hpc]
        rfl
      have hone := Bool.toNat_le (th'.flipped k)
      rw [hadds, hflips, Bool.toNat_false, Bool.toNat_true]
      omega
  · have hquiet : retryEnqueues k ⟨s, l, s'⟩ = false := by
      cases l with
      | run e o => exact absurd rfl (hl e o)
      | _ => rfl
    rw [hquiet, Bool.toNat_false]
    omega

/-- If every flip of a transaction that goes through finds it FAILED, `retryPayment` adds at most
as many jobs for it as its row moved from FAILED to PENDING. -/
theorem retries_flipped {cfg : Config} {k : ReadableId} {tr : List (Move State Label)} {s : State}
    (h : Reaches cfg tr s) (hG : Guarded (fun s l => flipsFailed k s l = true) tr) :
    tr.countP (retryEnqueues k) ≤ tr.countP (flips k) := by
  have hall : tr.countP (retryEnqueues k) + s.count (Thread.flipped k) ≤ tr.countP (flips k) := by
    refine Run.guarded_history (s := initial)
      (fun tr s => tr.countP (retryEnqueues k) + s.count (Thread.flipped k) ≤ tr.countP (flips k))
      (Nat.le_refl 0) ?_ h hG
    intro tr s l s' hrun hg hJ hstep
    have hcost := flipped_step hrun hg hstep
    rw [countP_snoc, countP_snoc]
    omega
  omega

/-- Paystack rejects the account, and thread `e` records its transaction as FAILED. -/
def failsOnce (e j : ℕ) : List Label :=
  .takeJob j :: Label.oks e 4 ++
    [.run e (.fails (.payment ⟨"Could not resolve account name", .invalidAccount, false⟩) false),
      .run e .ok, .run e .ok]

theorem retries_flipped_once : ∃ tr s, Reaches paystackConfig tr s ∧
    tr.countP (retryEnqueues 0) = 1 ∧ tr.countP (retryEnqueues 0) ≤ tr.countP (flips 0) := by
  obtain ⟨tr, s, h, hp⟩ := exists_run_of_trace (step paystackConfig) initial
    (deliver 0 (badgeEvent 0 "Bronze" "0123456789") ++ failsOnce 1 0 ++
      .retryRequest 0 ⟨none, none⟩ :: Label.oks 2 5)
    (fun r => (r.1.all fun x => flipsFailed 0 x.source x.label) &&
      decide (r.1.countP (retryEnqueues 0) = 1)) (by decide +kernel)
  rw [Bool.and_eq_true, decide_eq_true_eq] at hp
  exact ⟨tr, s, h, hp.2, retries_flipped h (guarded_of_all hp.1)⟩

/-- Two operators read FAILED before either flips; the second flip matches nothing, and its job is
added all the same. -/
theorem retry_without_flip : ¬ ∀ (cfg : Config) (k : ReadableId) (tr : List (Move State Label))
    (s : State), Reaches cfg tr s → tr.countP (retryEnqueues k) ≤ tr.countP (flips k) := by
  intro hall
  obtain ⟨tr, s, h, hp⟩ := exists_run_of_trace (step paystackConfig) initial
    (deliver 0 (badgeEvent 0 "Bronze" "0123456789") ++ failsOnce 1 0 ++
      .retryRequest 0 ⟨none, none⟩ :: .retryRequest 0 ⟨none, none⟩ :: Label.oks 2 3 ++
      Label.oks 3 3 ++ Label.oks 2 2 ++ Label.oks 3 2)
    (fun r => decide (r.1.countP (retryEnqueues 0) = 2) && decide (r.1.countP (flips 0) = 1))
    (by decide +kernel)
  rw [Bool.and_eq_true, decide_eq_true_eq, decide_eq_true_eq] at hp
  have hjobs : tr.countP (retryEnqueues 0) = 2 := hp.1
  have hflips : tr.countP (flips 0) = 1 := hp.2
  have hle := hall paystackConfig 0 tr s h
  omega

end Bumpa.Cashback
