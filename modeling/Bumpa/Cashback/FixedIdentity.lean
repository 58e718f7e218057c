import Bumpa.Cashback.CashbackProcessed

/-! # Amount and identity of a cashback

A transaction gets its id, its badge and its amount when its row is committed, from the event whose
handler commits it. Nothing changes them afterwards: every later save writes a copy of the row, and
the copies agree with it (`Amounts`, over `BadgeRows`). A job carries an event of its own, the one
delivered or one that a retry builds; each is about the transaction's badge (`EventsAgree`), and
the amount of a request is the row's, whatever the event says.

`identity_fixed` puts this together for every run.
-/
namespace Bumpa.Cashback
open Bumpa.Events Bumpa.Relational Bumpa.Transition
set_option autoImplicit false

/-- What is fixed when the row is created. -/
def CashbackTransaction.identity (t : CashbackTransaction) : ReadableId × (String × String) × ℕ :=
  (t.id, t.badge, t.amountKobo)

theorem identity_iff {t : CashbackTransaction} {k : ReadableId} {badge : String × String}
    {amountKobo : ℕ} : t.identity = (k, badge, amountKobo) ↔
      t.id = k ∧ t.badge = badge ∧ t.amountKobo = amountKobo := by
  rw [CashbackTransaction.identity, Prod.mk.injEq, Prod.mk.injEq]

/-- What the event asks for: its badge, and its reward or the configured one. -/
def rewardOf (cfg : Config) (event : BadgeUnlockedEvent) : ℕ :=
  event.payload.rewardAmountKobo.getD cfg.cashbackAmountKobo

/-- The request is for the row's amount, to its user and for its badge. -/
def CashbackPaymentRequest.Pays (request : CashbackPaymentRequest) (row : CashbackTransaction) :
    Prop :=
  (request.userId, request.badgeName) = row.badge ∧ request.amountKobo = row.amountKobo

/-- The event is about the row's amount, its user and its badge. -/
def CashbackProcessedPayload.Reports (payload : CashbackProcessedPayload)
    (row : CashbackTransaction) : Prop :=
  (payload.userId, payload.badgeName) = row.badge ∧ payload.amountKobo = row.amountKobo

/-- The transition changes no row's identity, creates a row only as a handler's commit, with the
badge and the reward of the handler's event, and writes an event only about the row it saves. -/
structure FixesIdentity (cfg : Config) (x : Move State Label) : Prop where
  kept : ∀ k row, x.source.world.row k = some row →
    ∃ row', x.target.world.row k = some row' ∧ row'.identity = row.identity
  created : ∀ k row, x.source.world.row k = none → x.target.world.row k = some row →
    ∃ e o event, x.label = .run e o ∧ x.source.threads e = .badge (.commit event row) ∧
      row.identity = (k, badgeOf event, rewardOf cfg event)
  reported : x.target.world.db.outboxEvents = x.source.world.db.outboxEvents ∨
    ∃ e o k status event row, x.label = .run e o ∧
      (x.source.threads e).announces o = some (k, status) ∧
      x.target.world.db.outboxEvents = x.source.world.db.outboxEvents ++ [event] ∧
      x.target.world.row k = some row ∧ event.payload.Reports row

/-! ## Amounts -/

theorem RowEffect.stays {cfg : Config} {w w' : World} {e : ℕ} {th : Thread}
    (h : RowEffect cfg w w' e th) {k : ReadableId} (hk : (w.row k).isSome) :
    (w'.row k).isSome := by
  rcases h with hsame | ⟨k', v, _, hwritten⟩
  · rwa [hsame]
  · rw [hwritten]
    split
    · rfl
    · exact hk

/-- A copy has the amount of its row, and one that has no row yet has its event's. -/
structure Amounts (cfg : Config) (s : State) : Prop where
  copies : ∀ e t row, (s.threads e).loaded = some t → s.world.row t.id = some row →
    t.amountKobo = row.amountKobo
  rewards : ∀ e event t, (s.threads e).handled = some (event, t) →
    (s.world.row t.id).isSome ∨ t.amountKobo = rewardOf cfg event

section Run
variable {cfg : Config} {s s' : State} {e : ℕ} {o : Outcome} {th' : Thread} (hs : BadgeRows s)
  (ha : Amounts cfg s) (hadv : advance cfg s.world e (s.threads e) o = some (s'.world, th'))
  (hth : ∀ e', s'.threads e' = if e' = e then th' else s.threads e')
include hs hadv

/-- A new row is the copy that its thread saves. -/
theorem BadgeRows.inserted {k : ReadableId} {row : CashbackTransaction}
    (hbefore : s.world.row k = none) (hafter : s'.world.row k = some row) :
    ∃ event, s.threads e = .badge (.commit event row) ∧ row.id = k := by
  rcases hs.rows hadv with hsame | ⟨event, t, hpc, _, _, hins⟩
  · have hbadge := hsame k
    rw [badgeOf_of_row hafter, World.badgeOf, hbefore] at hbadge
    cases hbadge
  · have hk : k = t.id := by
      by_contra hne
      have hbadge := hins k
      rw [if_neg hne, badgeOf_of_row hafter, World.badgeOf, hbefore] at hbadge
      cases hbadge
    rw [hpc] at hadv
    rw [commit_rows hadv] at hafter
    split at hafter
    · obtain rfl := Option.some.inj hafter
      exact ⟨event, hpc, hk.symm⟩
    · rw [hbefore] at hafter
      cases hafter

include ha

/-- A row keeps its badge and its amount. -/
theorem Amounts.row_kept {k : ReadableId} {row : CashbackTransaction}
    (hrow : s.world.row k = some row) :
    ∃ row', s'.world.row k = some row' ∧ row'.badge = row.badge ∧
      row'.amountKobo = row.amountKobo := by
  rcases advance_rows hadv with hsame | ⟨k', v, hv, hwritten⟩
  · exact ⟨row, (hsame k).trans hrow, rfl, rfl⟩
  · by_cases hk : k = k'
    · subst hk
      refine ⟨v, (hwritten k).trans (if_pos rfl), ?_⟩
      rcases hv.origin with ⟨row₀, hrow₀, hbadge, hamount⟩ | ⟨t, ht, rfl, hbadge, hamount⟩
      · rw [hrow, Option.some.injEq] at hrow₀
        rw [← hbadge, ← hamount, hrow₀]
        exact ⟨rfl, rfl⟩
      · rw [← hbadge, ← hamount]
        exact ⟨hs.named t.id _ _ (Or.inr ⟨e, t, ht, rfl, rfl⟩) (Or.inl (badgeOf_of_row hrow)),
          ha.copies e t row ht hrow⟩
    · exact ⟨row, ((hwritten k).trans (if_neg hk)).trans hrow, rfl, rfl⟩

include hth

theorem amounts_run : Amounts cfg s' := by
  refine ⟨fun e' t row ht hrow => ?_, fun e' event t ht => ?_⟩
  · rcases copies_run hadv hth ht with hfound | ⟨t₀, ht₀, hid, _, hamount, _⟩ | ⟨_, hid, _, _⟩
    · obtain ⟨row', hrow', _, hkept⟩ := ha.row_kept hs hadv hfound
      rw [hrow, Option.some.injEq] at hrow'
      rw [hrow', hkept]
    · rw [hid] at hrow
      cases hbefore : s.world.row t₀.id with
      | some row₀ =>
        obtain ⟨row', hrow', _, hkept⟩ := ha.row_kept hs hadv hbefore
        rw [hrow, Option.some.injEq] at hrow'
        rw [hamount, ha.copies e' t₀ row₀ ht₀ hbefore, hrow', hkept]
      | none =>
        -- the row is new, and its copy is that of the one thread that could insert it
        obtain ⟨event, hpc, hrowid⟩ := hs.inserted hadv hbefore hrow
        have hown : (s.threads e).loaded = some row := by rw [hpc]; rfl
        have hthread : e' = e := by
          rcases hs.apart e' e t₀ row ht₀ hown hrowid.symm with heq | hsome
          · exact heq
          · rw [hbefore] at hsome
            cases hsome
        rw [hthread, hown, Option.some.injEq] at ht₀
        rw [hamount, ht₀]
    · have hnone : s.world.row t.id = none := by
        by_contra hne
        obtain ⟨row₀, hrow₀⟩ := Option.ne_none_iff_exists'.mp hne
        exact Nat.lt_irrefl _ (hid ▸ hs.fresh t.id row₀.badge (Or.inl (badgeOf_of_row hrow₀)))
      obtain ⟨event, hpc, hrowid⟩ := hs.inserted hadv hnone hrow
      have hown : s.Names row.id row.badge := Or.inr ⟨e, row, by rw [hpc]; rfl, rfl, rfl⟩
      have hlt := hs.fresh _ _ hown
      rw [hrowid, hid] at hlt
      exact absurd hlt (Nat.lt_irrefl _)
  · have hstays : ∀ k, (s.world.row k).isSome → (s'.world.row k).isSome := fun _ =>
      (advance_rows hadv).stays
    rw [hth] at ht
    split at ht
    · obtain ⟨pc, hpc, hstep⟩ := advance_handled hadv ht
      rcases handleBadgeUnlocked_handled hstep ht with ⟨hbefore, _⟩ | ⟨_, _, hrow | ⟨rfl, _⟩⟩
      · exact (ha.rewards e event t (by rw [hpc, hbefore])).imp_left (hstays _)
      · exact Or.inl (hstays _ (by rw [hrow]; rfl))
      · exact Or.inr rfl
    · exact (ha.rewards e' event t ht).imp_left (hstays _)

end Run

theorem reaches_amounts {cfg : Config} {tr : List (Move State Label)} {s : State}
    (h : Reaches cfg tr s) : Amounts cfg s := by
  refine Run.history (fun _ s => Amounts cfg s)
    ⟨(fun _ _ _ ht => by cases ht), fun _ _ _ ht => by cases ht⟩ ?_ h
  intro tr s l s' hreach ha hstep
  rcases step_cases hstep with ⟨e, o, th', rfl, hadv, _, hth⟩ | ⟨hw, hl, _⟩
  · exact amounts_run (reaches_badgeRows hreach) ha hadv hth
  · have hthread := fun {e t} (ht : (s'.threads e).loaded = some t) =>
      (loaded_ambient hstep hl ht).1
    refine ⟨fun e t row ht hrow => ?_, fun e event t ht => ?_⟩
    · rw [World.row, hw.transactions] at hrow
      exact ha.copies e t row (by rwa [← hthread ht]) hrow
    · rw [World.row, hw.transactions]
      exact ha.rewards e event t (by rwa [← hthread (handled_loaded ht)])

/-! ## The events that jobs and retries carry -/

/-- The transaction that the thread pays or retries, and the event it does so with. -/
def Thread.task : Thread → Option (ReadableId × BadgeUnlockedEvent)
  | .payment r _ => some (r.transactionId, r.event)
  | .retry _ k event _ => some (k, event)
  | _ => none

/-- The rows that the thread has read to retry their transactions. -/
def Thread.listed : Thread → List CashbackTransaction
  | .manual (.findAccount t _) => [t]
  | .manual (.saveAccount t _ _) => [t]
  | .manual (.resetCount t _) => [t]
  | .scan (.findAccount remaining) => remaining
  | .retry (.scanner remaining) _ _ _ => remaining
  | _ => []

/-- Whatever names the transaction names the event's badge, now and later. -/
def State.Agrees (s : State) (k : ReadableId) (event : BadgeUnlockedEvent) : Prop :=
  k < s.world.nextId ∧ ∀ badge, s.Names k badge → badge = badgeOf event

structure EventsAgree (s : State) : Prop where
  jobs : ∀ j job, s.world.queue.jobs j = some job → s.Agrees job.transactionId job.event
  tasks : ∀ e k event, (s.threads e).task = some (k, event) → s.Agrees k event
  listed : ∀ e t, t ∈ (s.threads e).listed → s.world.badgeOf t.id = some t.badge

/-- Every job of `w'` pays a transaction of a job of `w`, with its event. -/
def JobsFrom (w w' : World) : Prop :=
  ∀ j job', w'.queue.jobs j = some job' → ∃ j₀ job, w.queue.jobs j₀ = some job ∧
    job.transactionId = job'.transactionId ∧ job.event = job'.event

theorem JobsFrom.of_eq {w w' : World} (h : w'.queue = w.queue) : JobsFrom w w' := by
  intro j job' hjob'
  rw [h] at hjob'
  exact ⟨j, job', hjob', rfl, rfl⟩

theorem setJob_from {w : World} {j : ℕ} {job : Job} {new : Option Job}
    (hjob : w.queue.jobs j = some job)
    (hnew : ∀ job' ∈ new, job.transactionId = job'.transactionId ∧ job.event = job'.event) :
    JobsFrom w (w.setJob j new) := by
  intro j' job' hjob'
  simp only [World.setJob, Function.update_apply] at hjob'
  split at hjob'
  · exact ⟨j, job, hjob, hnew job' hjob'⟩
  · exact ⟨j', job', hjob', rfl, rfl⟩

theorem completeJob_from {w v : World} (e j : ℕ) (h : v.queue = w.queue) :
    JobsFrom w (v.completeJob e j) := by
  have hstep : JobsFrom v (v.completeJob e j) := by
    unfold World.completeJob
    split
    · next job hjob =>
      split
      · exact setJob_from hjob (by simp)
      · exact JobsFrom.of_eq rfl
    · exact JobsFrom.of_eq rfl
  unfold JobsFrom at hstep ⊢
  rwa [h] at hstep

theorem failJob_from {w v : World} (e j : ℕ) (h : v.queue = w.queue) :
    JobsFrom w (v.failJob e j) := by
  have hstep : JobsFrom v (v.failJob e j) := by
    unfold World.failJob
    split
    · next job hjob =>
      split
      · exact setJob_from hjob (by rintro job' ⟨⟩; exact ⟨rfl, rfl⟩)
      · exact JobsFrom.of_eq rfl
    · exact JobsFrom.of_eq rfl
  unfold JobsFrom at hstep ⊢
  rwa [h] at hstep

theorem processPayment_jobsFrom {cfg : Config} {w w' : World} {e : ℕ} {r : PaymentRun}
    {pc : PaymentPc} {o : Outcome} {th' : Thread}
    (h : processPayment cfg w e r pc o = some (w', th')) : JobsFrom w w' := by
  have hfail : ∀ v : World, v.queue = w.queue → JobsFrom w (v.failJob e r.job) :=
    fun v => failJob_from e r.job
  have hcomplete : ∀ v : World, v.queue = w.queue → JobsFrom w (v.completeJob e r.job) :=
    fun v => completeJob_from e r.job
  have hsame : ∀ v : World, v.queue = w.queue → JobsFrom w v := fun v => JobsFrom.of_eq
  have hclaim : ∀ k reference, ((w.drawIds 1).claimTransaction k reference).queue = w.queue :=
    fun _ _ => rfl
  have hreset : (w.resetTransaction r.transactionId).queue = w.queue := rfl
  have hstore : ∀ t failure, (w.storeFailure cfg r t failure).queue = w.queue := fun _ _ => rfl
  have haccept : ∀ transfer, (w.acceptTransfer transfer).queue = w.queue := fun _ => rfl
  cases pc
  all_goals
    simp only [processPayment, findTransaction, claim, findAccount, saveAccount, sendCashback,
      initiateTransfer, receive, store, publish, recover, publishFailure] at h
    grind [drawIds_queue, saveAccount_queue, createRecipient_queue, storeResult_queue]

/-- A job is added by a handler for its transaction or by a retry for its own, with the event the
thread has. -/
theorem advance_jobsFrom {cfg : Config} {w w' : World} {e : ℕ} {th th' : Thread} {o : Outcome}
    (h : advance cfg w e th o = some (w', th')) :
    JobsFrom w w' ∨ ∃ k event, w'.queue = (w.addJob k event).queue ∧
      (th.task = some (k, event) ∨ ∃ t, th.handled = some (event, t) ∧ t.id = k) := by
  have hsame : ∀ v : World, v.queue = w.queue → JobsFrom w v := fun v => JobsFrom.of_eq
  cases th with
  | done => cases h
  | badge pc =>
    have hcommit : ∀ event t, (w.commitBadge e event t).queue = w.queue := by
      intro event t
      unfold World.commitBadge
      split <;> split <;> rfl
    simp only [advance] at h
    unfold handleBadgeUnlocked at h
    grind [unlock_queue, lock_queue, drawIds_queue, Thread.handled]
  | payment r pc => exact Or.inl (processPayment_jobsFrom h)
  | retry caller k event pc =>
    have hrevive : (w.reviveTransaction k).queue = w.queue := rfl
    simp only [advance] at h
    unfold retryPayment at h
    grind [Thread.task]
  | manual pc =>
    have hreset : ∀ k, (w.resetRetryCount k).queue = w.queue := fun _ => rfl
    simp only [advance] at h
    unfold retryFailedTransaction at h
    grind [drawIds_queue, saveAccount_queue]
  | scan pc => exact Or.inl (JobsFrom.of_eq (retryEligibleFailedTransactions_world h).2.1)
  | webhook hook pc =>
    have hstore : ∀ t, (w.storeWebhook hook t).queue = w.queue := fun _ => rfl
    simp only [advance] at h
    unfold handleWebhook at h
    grind [notifyTransfer_queue]

/-- A retry is one of a row that was read, with an event about its badge. -/
theorem advance_task {cfg : Config} {w w' : World} {e : ℕ} {th th' : Thread} {o : Outcome}
    (h : advance cfg w e th o = some (w', th')) {k : ReadableId} {event : BadgeUnlockedEvent}
    (ht : th'.task = some (k, event)) :
    th.task = some (k, event) ∨ ∃ t ∈ th.listed, t.id = k ∧ t.badge = badgeOf event := by
  have hevent : ∀ (t : CashbackTransaction) account fresh,
      t.badge = badgeOf (buildRetryEvent t account fresh) := fun _ _ _ => rfl
  cases th with
  | done => cases h
  | badge pc => rcases (handleBadgeUnlocked_frame h).2.2 with rfl | ⟨pc', rfl⟩ <;> cases ht
  | payment r pc =>
    rcases processPayment_thread h with rfl | ⟨pc', rfl⟩
    · cases ht
    · exact Or.inl ht
  | retry caller k' event' pc =>
    rcases (retryPayment_frame h).2.2 with rfl | ⟨pc', rfl⟩ | ⟨pc', rfl⟩
    · cases ht
    · cases ht
    · exact Or.inl ht
  | manual pc =>
    simp only [advance] at h
    unfold retryFailedTransaction at h
    grind [Thread.task, Thread.listed]
  | scan pc =>
    simp only [advance] at h
    unfold retryEligibleFailedTransactions at h
    grind [Thread.task, Thread.listed]
  | webhook hook pc => rcases (handleWebhook_frame h).2.2 with rfl | ⟨pc', rfl⟩ <;> cases ht

theorem advance_listed {cfg : Config} {w w' : World} {e : ℕ} {th th' : Thread} {o : Outcome}
    (h : advance cfg w e th o = some (w', th')) {t : CashbackTransaction} (ht : t ∈ th'.listed) :
    t ∈ th.listed ∨ w.row t.id = some t := by
  cases th with
  | done => cases h
  | badge pc => rcases (handleBadgeUnlocked_frame h).2.2 with rfl | ⟨pc', rfl⟩ <;> cases ht
  | payment r pc => rcases processPayment_thread h with rfl | ⟨pc', rfl⟩ <;> cases ht
  | retry caller k event pc =>
    simp only [advance] at h
    unfold retryPayment at h
    cases caller with
    | manual =>
      have hresume : RetryCaller.manual.resume = .done := rfl
      have hcatch : RetryCaller.manual.catch = .done := rfl
      grind [Thread.listed]
    | scanner remaining =>
      have hresume : (RetryCaller.scanner remaining).resume = .scan (.findAccount remaining) := rfl
      have hcatch : (RetryCaller.scanner remaining).catch = .scan (.findAccount remaining) := rfl
      grind [Thread.listed]
  | manual pc =>
    have hrow : ∀ k t, w.db.transactions.row k = some t → w.row t.id = some t := by
      intro k t hk
      rwa [World.row, w.db.transactions.key_eq hk]
    simp only [advance] at h
    unfold retryFailedTransaction at h
    grind [Thread.listed]
  | scan pc =>
    have hrow : ∀ t, t ∈ w.db.transactions.filter (isCandidate cfg w.now) →
        w.row t.id = some t := fun t ht => Table.mem_rows.mp (List.mem_filter.mp ht).1
    simp only [advance] at h
    unfold retryEligibleFailedTransactions at h
    grind [Thread.listed]
  | webhook hook pc => rcases (handleWebhook_frame h).2.2 with rfl | ⟨pc', rfl⟩ <;> cases ht

/-- A label other than `run` leaves the jobs' transactions and events alone. -/
theorem step_jobsFrom {cfg : Config} {s s' : State} {l : Label} (h : step cfg s l = some s')
    (hl : ∀ e o, l ≠ .run e o) : JobsFrom s.world s'.world := by
  cases l with
  | takeJob j =>
    obtain ⟨job, hjob, _, hworld, _⟩ := takeJob_spec h
    rw [hworld]
    exact setJob_from hjob (by rintro job' ⟨⟩; exact ⟨rfl, rfl⟩)
  | stallJob j =>
    obtain ⟨job, _, hjob, _, rfl⟩ := stallJob_spec h
    exact setJob_from hjob (by rintro job' ⟨⟩; exact ⟨rfl, rfl⟩)
  | webhook hook =>
    obtain ⟨hworld, _⟩ := receiveWebhook_spec h
    refine JobsFrom.of_eq ?_
    rcases hworld with hworld | ⟨_, hworld⟩
    · rw [hworld]
    · rw [hworld]
      rfl
  | run e o => exact absurd rfl (hl e o)
  | _ =>
    cases h
    exact JobsFrom.of_eq rfl

/-- It starts threads without a task, or with that of a job. -/
theorem step_tasks {cfg : Config} {s s' : State} {l : Label} (h : step cfg s l = some s')
    (hl : ∀ e o, l ≠ .run e o) (e : ℕ) :
    s'.threads e = s.threads e ∨ (s'.threads e).listed = [] ∧
      ∀ k event, (s'.threads e).task = some (k, event) →
        ∃ j job, s.world.queue.jobs j = some job ∧ job.transactionId = k ∧ job.event = event := by
  rcases step_threads h hl e with hsame | hdone | hstarted
  · exact Or.inl hsame
  · rw [hdone]
    exact Or.inr ⟨rfl, fun _ _ hk => by cases hk⟩
  · refine Or.inr ?_
    generalize s'.threads e = th at hstarted ⊢
    cases hstarted with
    | @payment j job final queued =>
      refine ⟨rfl, fun k event hk => ?_⟩
      obtain ⟨rfl, rfl⟩ := Prod.mk.inj (Option.some.inj hk)
      exact ⟨j, job, queued, rfl, rfl⟩
    | _ => exact ⟨rfl, fun _ _ hk => by cases hk⟩

/-! ### The invariant -/

theorem BadgeRows.agrees {s : State} (hs : BadgeRows s) {k : ReadableId}
    {event : BadgeUnlockedEvent} (hk : s.Names k (badgeOf event)) : s.Agrees k event :=
  ⟨hs.fresh k _ hk, fun badge hbadge => hs.named k badge _ hbadge hk⟩

section Run
variable {cfg : Config} {s s' : State} {e : ℕ} {o : Outcome} {th' : Thread} (hs : BadgeRows s)
  (hadv : advance cfg s.world e (s.threads e) o = some (s'.world, th'))
  (hth : ∀ e', s'.threads e' = if e' = e then th' else s.threads e')
include hs hadv hth

/-- The transaction is known, so nothing names it anew. -/
theorem agrees_run {k : ReadableId} {event : BadgeUnlockedEvent} (h : s.Agrees k event) :
    s'.Agrees k event := by
  refine ⟨Nat.lt_of_lt_of_le h.1 (advance_nextId hadv), fun badge hbadge => ?_⟩
  rcases hs.names_run hadv hth hbadge with hold | ⟨rfl, _⟩
  · exact h.2 badge hold
  · exact absurd h.1 (Nat.lt_irrefl _)

theorem eventsAgree_run (hev : EventsAgree s)
    (hhandled : ∀ event t, (s.threads e).handled = some (event, t) → t.badge = badgeOf event) :
    EventsAgree s' := by
  have hstays := fun {k event} (h : s.Agrees k event) => agrees_run hs hadv hth h
  have htask : ∀ e' k event, (s'.threads e').task = some (k, event) → s.Agrees k event := by
    intro e' k event ht
    rw [hth] at ht
    split at ht
    · rcases advance_task hadv ht with hold | ⟨t, hlisted, rfl, hbadge⟩
      · exact hev.tasks e k event hold
      · exact hs.agrees (Or.inl (by rw [← hbadge]; exact hev.listed e t hlisted))
    · exact hev.tasks e' k event ht
  refine ⟨fun j job hjob => hstays ?_, fun e' k event ht => hstays (htask e' k event ht),
    fun e' t ht => hs.badge_stays hadv ?_⟩
  · rcases advance_jobsFrom hadv with hfrom | ⟨k, event, hqueue, hadds⟩
    · obtain ⟨j₀, job₀, hjob₀, hk, hevent⟩ := hfrom j job hjob
      rw [← hk, ← hevent]
      exact hev.jobs j₀ job₀ hjob₀
    · rw [hqueue] at hjob
      simp only [World.addJob, Function.update_apply] at hjob
      split at hjob
      · obtain rfl := Option.some.inj hjob
        rcases hadds with htask | ⟨t, hhas, rfl⟩
        · exact hev.tasks e k event htask
        · exact hs.agrees (Or.inr ⟨e, t, handled_loaded hhas, rfl, hhandled event t hhas⟩)
      · exact hev.jobs j job hjob
  · rw [hth] at ht
    split at ht
    · rcases advance_listed hadv ht with hold | hrow
      · exact hev.listed e t hold
      · exact badgeOf_of_row hrow
    · exact hev.listed e' t ht

end Run

/-- What a transaction id is used for does not change. -/
theorem step_agrees {cfg : Config} {tr : List (Move State Label)} {s s' : State} {l : Label}
    (hreach : Reaches cfg tr s) (h : step cfg s l = some s') {k : ReadableId}
    {event : BadgeUnlockedEvent} (hk : s.Agrees k event) : s'.Agrees k event := by
  rcases step_cases h with ⟨e, o, th', rfl, hadv, _, hth⟩ | ⟨hw, hl, _⟩
  · exact agrees_run (reaches_badgeRows hreach) hadv hth hk
  · refine ⟨?_, fun badge hbadge => hk.2 badge (names_ambient h hl hbadge)⟩
    rw [hw.nextId]
    exact hk.1

theorem reaches_eventsAgree {cfg : Config} {tr : List (Move State Label)} {s : State}
    (h : Reaches cfg tr s) : EventsAgree s := by
  refine Run.history (fun _ s => EventsAgree s)
    ⟨(fun _ _ hj => by cases hj), (fun _ _ _ ht => by cases ht), fun _ _ ht => by cases ht⟩ ?_ h
  intro tr s l s' hreach hev hstep
  rcases step_cases hstep with ⟨e, o, th', rfl, hadv, _, hth⟩ | ⟨_, hl, _⟩
  · exact eventsAgree_run (reaches_badgeRows hreach) hadv hth hev fun event t ht =>
      reaches_handled hreach ht
  · have hfrom := step_jobsFrom hstep hl
    have hthreads := step_tasks hstep hl
    have hstays := fun {k event} (hk : s.Agrees k event) => step_agrees hreach hstep hk
    refine ⟨fun j job hjob => hstays ?_, fun e k event ht => hstays ?_, fun e t ht => ?_⟩
    · obtain ⟨j₀, job₀, hjob₀, hk, hevent⟩ := hfrom j job hjob
      rw [← hk, ← hevent]
      exact hev.jobs j₀ job₀ hjob₀
    · rcases hthreads e with hsame | ⟨_, hnew⟩
      · exact hev.tasks e k event (by rwa [← hsame])
      · obtain ⟨j, job, hjob, rfl, rfl⟩ := hnew k event ht
        exact hev.jobs j job hjob
    · rw [badgeOf_ambient hstep hl]
      rcases hthreads e with hsame | ⟨hnone, _⟩
      · exact hev.listed e t (by rwa [← hsame])
      · rw [hnone] at ht
        cases ht

/-! ## Requests -/

/-- The request is built from the job's event and the attempt's copy. -/
def Thread.Requests : Thread → Prop
  | .payment r (.sendCashback t account request) =>
    request = cashbackPaymentRequest r.event t account request.reference
  | _ => True

theorem advance_requests {cfg : Config} {w w' : World} {e : ℕ} {th th' : Thread} {o : Outcome}
    (h : advance cfg w e th o = some (w', th')) : th'.Requests := by
  cases th' with
  | payment r pc' =>
    obtain ⟨pc, _, hstep⟩ := advance_payment h
    have hrequest : ∀ t account reference, cashbackPaymentRequest r.event t account reference =
        cashbackPaymentRequest r.event t account
          (cashbackPaymentRequest r.event t account reference).reference := fun _ _ _ => rfl
    cases pc
    all_goals
      simp only [processPayment, findTransaction, claim, findAccount, saveAccount, sendCashback,
        initiateTransfer, receive, store, publish, recover, publishFailure] at hstep
      grind [Thread.Requests]
  | _ => exact trivial

theorem reaches_requests {cfg : Config} {tr : List (Move State Label)} {s : State}
    (h : Reaches cfg tr s) (e : ℕ) : (s.threads e).Requests := by
  have hstart : ∀ (_ : World) (th : Thread), Started th → th.Requests := by
    rintro _ th ⟨⟩ <;> exact trivial
  exact (threads_invariant (fun _ => True) (fun _ th => th.Requests) trivial (fun _ => trivial)
    hstart (fun _ _ _ => ⟨id, fun _ => id⟩)
    (fun s e o w' th' _ _ _ hadv => ⟨trivial, advance_requests hadv, fun _ => id⟩) h
    (guarded_true tr)).2 e

/-- A request pays what the row of its transaction says. -/
theorem request_pays {cfg : Config} {tr : List (Move State Label)} {s : State}
    (h : Reaches cfg tr s) {e : ℕ} {r : PaymentRun} {t : CashbackTransaction}
    {account : PayoutAccount} {request : CashbackPaymentRequest}
    (hth : s.threads e = .payment r (.sendCashback t account request)) :
    ∃ row, s.world.row r.transactionId = some row ∧ request.Pays row := by
  have hs := reaches_badgeRows h
  have hrequest := reaches_requests h e
  have hco := reaches_coherent h e
  rw [hth] at hrequest hco
  have hload : (s.threads e).loaded = some t := by rw [hth]; rfl
  rcases hs.backed e t hload with hsome | hholds
  · obtain ⟨row, hrow⟩ := Option.isSome_iff_exists.mp hsome
    have hamount := (reaches_amounts h).copies e t row hload hrow
    rw [hco.1] at hrow
    have hbadge := ((reaches_eventsAgree h).tasks e r.transactionId r.event (by rw [hth]; rfl)).2
      row.badge (Or.inl (badgeOf_of_row hrow))
    refine ⟨row, hrow, ?_, ?_⟩
    · rw [hrequest, hbadge]
      rfl
    · rw [hrequest, ← hamount]
      rfl
  · rw [hth] at hholds
    exact hholds.elim

/-! ## Every run -/

theorem identity_eq {w w' : World} {k : ReadableId} {row row' : CashbackTransaction}
    (hrow : w.row k = some row) (hrow' : w'.row k = some row') (hbadge : row'.badge = row.badge)
    (hamount : row'.amountKobo = row.amountKobo) : row'.identity = row.identity := by
  have hid : row'.id = row.id :=
    (w'.db.transactions.key_eq hrow').trans (w.db.transactions.key_eq hrow).symm
  exact identity_iff.mpr ⟨hid, hbadge, hamount⟩

theorem fixesIdentity {cfg : Config} {tr : List (Move State Label)} {s s' : State} {l : Label}
    (hreach : Reaches cfg tr s) (h : step cfg s l = some s') : FixesIdentity cfg ⟨s, l, s'⟩ := by
  have hs := reaches_badgeRows hreach
  have ha := reaches_amounts hreach
  rcases step_cases h with ⟨e, o, th', rfl, hadv, _, _⟩ | ⟨hw, _, _⟩
  · refine ⟨fun k row hrow => ?_, fun k row hbefore hafter => ?_, ?_⟩
    · obtain ⟨row', hrow', hbadge, hamount⟩ := ha.row_kept hs hadv hrow
      exact ⟨row', hrow', identity_eq hrow hrow' hbadge hamount⟩
    · obtain ⟨event, hpc, hid⟩ := hs.inserted hadv hbefore hafter
      have hhandled : (s.threads e).handled = some (event, row) := by rw [hpc]; rfl
      refine ⟨e, o, event, rfl, hpc, ?_⟩
      rcases ha.rewards e event row hhandled with hsome | hamount
      · rw [hid, hbefore] at hsome
        cases hsome
      · exact identity_iff.mpr ⟨hid, reaches_handled hreach hhandled, hamount⟩
    · cases hannounces : (s.threads e).announces o with
      | none => exact Or.inl (advance_outbox hadv hannounces)
      | some a =>
        obtain ⟨v, event, hann⟩ := advance_announces hadv hannounces
        refine Or.inr ⟨e, o, a.1, a.2, event, v, rfl, hannounces, hann.outbox,
          (hann.rows a.1).trans (if_pos rfl), ?_, hann.describes.amountKobo⟩
        rw [hann.describes.userId, hann.describes.badgeName]
        rfl
  · have hrows : ∀ k, s'.world.row k = s.world.row k := fun k => by
      rw [World.row, hw.transactions]
    refine ⟨fun k row hrow => ⟨row, (hrows k).trans hrow, rfl⟩, fun k row hbefore hafter => ?_,
      Or.inl hw.outboxEvents⟩
    rw [← hrows k, hafter] at hbefore
    cases hbefore

theorem reaches_reported {cfg : Config} {tr : List (Move State Label)} {s : State}
    (h : Reaches cfg tr s) : ∀ event ∈ s.world.db.outboxEvents,
      ∃ k row, s.world.row k = some row ∧ event.payload.Reports row := by
  refine Run.history (fun _ s => ∀ event ∈ s.world.db.outboxEvents,
    ∃ k row, s.world.row k = some row ∧ event.payload.Reports row) (List.forall_mem_nil _) ?_ h
  intro tr s l s' hreach hold hstep event hevent
  have hfixes := fixesIdentity hreach hstep
  have hkept : event ∈ s.world.db.outboxEvents →
      ∃ k row, s'.world.row k = some row ∧ event.payload.Reports row := by
    intro hbefore
    obtain ⟨k, row, hrow, hreports⟩ := hold event hbefore
    obtain ⟨row', hrow', hsame⟩ := hfixes.kept k row hrow
    obtain ⟨_, hbadge, hamount⟩ := identity_iff.mp hsame
    exact ⟨k, row', hrow', by rw [hbadge]; exact hreports.1, by rw [hamount]; exact hreports.2⟩
  rcases hfixes.reported with hsame | ⟨_, _, k, _, event', row, _, _, hnew, hrow, hreports⟩
  · exact hkept (hsame ▸ hevent)
  · rw [hnew, List.mem_append, List.mem_singleton] at hevent
    rcases hevent with hbefore | rfl
    · exact hkept hbefore
    · exact ⟨k, row, hrow, hreports⟩

/-- In every run a badge has one row at most; a row's id, badge and amount are those of the event
whose handler created it, for good; and every request and every event about it carries them. -/
theorem identity_fixed {cfg : Config} {tr : List (Move State Label)} {s : State}
    (h : Reaches cfg tr s) :
    (∀ k k' row row', s.world.row k = some row → s.world.row k' = some row' →
      row.badge = row'.badge → k = k') ∧
    (∀ x ∈ tr, FixesIdentity cfg x) ∧
    (∀ e r t account request, s.threads e = .payment r (.sendCashback t account request) →
      ∃ row, s.world.row r.transactionId = some row ∧ request.Pays row) ∧
    (∀ event ∈ s.world.db.outboxEvents,
      ∃ k row, s.world.row k = some row ∧ event.payload.Reports row) := by
  refine ⟨fun k k' row row' hrow hrow' hbadge => ?_, ?_, fun e r t account request hth => ?_,
    reaches_reported h⟩
  · exact (reaches_badgeRows h).unique k k' row.badge (badgeOf_of_row hrow)
      (by rw [badgeOf_of_row hrow', hbadge])
  · refine Run.history (fun tr _ => ∀ x ∈ tr, FixesIdentity cfg x) (List.forall_mem_nil _) ?_ h
    intro tr s l s' hreach hall hstep x hx
    rcases List.mem_append.mp hx with hx | hx
    · exact hall x hx
    · rw [List.mem_singleton.mp hx]
      exact fixesIdentity hreach hstep
  · exact request_pays h hth

/-! ## Schedules -/

def rewardEvent (eventId : ReadableId) (rewardAmountKobo : ℕ) : BadgeUnlockedEvent :=
  let event := badgeEvent eventId "Bronze" "0123456789"
  { event with payload := { event.payload with rewardAmountKobo := some rewardAmountKobo } }

/-- The badge is unlocked with a reward of 0 and again with one of 500; the second job pays 0. -/
theorem identity_fixed_duplicate : ∃ tr s r t account request row,
    Reaches paystackConfig tr s ∧ s.threads 2 = .payment r (.sendCashback t account request) ∧
      rewardOf paystackConfig r.event = 500 ∧ s.world.row r.transactionId = some row ∧
      request.Pays row ∧ request.amountKobo = 0 := by
  obtain ⟨tr, s, h, hp⟩ := exists_run_of_trace (step paystackConfig) initial
    (deliver 0 (rewardEvent 0 0) ++ deliver 1 (rewardEvent 1 500) ++ .takeJob 1 :: Label.oks 2 4)
    (fun r => match r.2.threads 2 with
      | .payment run (.sendCashback _ _ request) =>
        rewardOf paystackConfig run.event = 500 && request.amountKobo = 0
      | _ => false) (by decide +kernel)
  simp only at hp
  split at hp
  · next r t account request hth =>
    rw [Bool.and_eq_true, decide_eq_true_eq, decide_eq_true_eq] at hp
    obtain ⟨row, hrow, hpays⟩ := (identity_fixed h).2.2.1 2 r t account request hth
    exact ⟨tr, s, r, t, account, request, row, h, hth, hp.1, hrow, hpays, hp.2⟩
  · cases hp

end Bumpa.Cashback
