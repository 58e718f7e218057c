import Bumpa.Cashback.HandleBadgeUnlocked
import Bumpa.Cashback.ProcessPayment
import Bumpa.Cashback.RetryPayment
import Bumpa.Cashback.Webhook
import Bumpa.Transition.Run
import Bumpa.Transition.Threads

/-! # The cashback service as a transition system

A label either starts an operation on a new thread (an event is delivered, a worker takes a job,
an operator retries, the scanner's interval elapses, a webhook arrives), or lets one thread run to
its next awaited call, or is the environment's: time passes, a job stalls, a thread dies with its
process. A process that crashes kills its threads one label after the other.
-/
namespace Bumpa.Cashback
open Bumpa.Events Bumpa.Relational Bumpa.Transition
set_option autoImplicit false

structure State where
  world : World
  threads : ℕ → Thread
  nextThread : ℕ

inductive Label where
  | tick (ms : ℕ)
  | badgeUnlocked (event : BadgeUnlockedEvent)
  | takeJob (j : ℕ)
  | stallJob (j : ℕ)
  | retryRequest (transactionId : ReadableId) (override : RetryBankDetailsOverride)
  | scan
  | webhook (hook : TransferWebhook)
  | run (e : ℕ) (outcome : Outcome)
  | crash (e : ℕ)

def Thread.isDone : Thread → Bool
  | .done => true
  | _ => false

theorem isDone_iff {th : Thread} : th.isDone = true ↔ th = .done := by
  cases th <;> simp [Thread.isDone]

def State.spawn (s : State) (th : Thread) : State :=
  { s with
    threads := Function.update s.threads s.nextThread th
    nextThread := s.nextThread + 1 }

/-- A thread runs to its next awaited call. -/
def advance (cfg : Config) (w : World) (e : ℕ) : Thread → Outcome → Option (World × Thread)
  | .done, _ => none
  | .badge pc, o => handleBadgeUnlocked cfg w e pc o
  | .payment r pc, o => processPayment cfg w e r pc o
  | .retry caller transactionId event pc, o => retryPayment w caller transactionId event pc o
  | .manual pc, o => retryFailedTransaction cfg w pc o
  | .scan pc, o => retryEligibleFailedTransactions cfg w pc o
  | .webhook hook pc, o => handleWebhook w hook pc o

/-- A worker takes a waiting job: `isFinalAttempt = attemptsMade + 1 >= maxAttempts`. -/
def takeJob (s : State) (j : ℕ) : Option State :=
  match s.world.queue.jobs j with
  | some job =>
    if job.state = .waiting then
      some ({ s with
        world := s.world.setJob j (some { job with state := .active s.nextThread }) }.spawn
        (.payment ⟨j, job.transactionId, job.event, jobAttempts ≤ job.attemptsMade + 1⟩ .find))
    else none
  | none => none

/-- BullMQ takes an active job away from its worker. -/
def stallJob (s : State) (j : ℕ) : Option State :=
  match s.world.queue.jobs j with
  | some job =>
    match job.state with
    | .active _ =>
      some { s with
        world := s.world.setJob j (some
          { job with
            stalledCount := job.stalledCount + 1
            state := if job.stalledCount < maxStalledCount then .waiting else .failed }) }
    | _ => none
  | none => none

/-- Paystack sends a webhook about a transfer it accepted. -/
def receiveWebhook (s : State) (hook : TransferWebhook) : Option State :=
  if s.world.paystack.transfers.any (·.request.reference = hook.reference) then
    some ({ s with
      world :=
        match hook.event with
        | .success => s.world
        | _ => s.world.reportTransfer hook.reference }.spawn (.webhook hook .find))
  else none

def step (cfg : Config) (s : State) : Label → Option State
  | .tick ms => some { s with world := { s.world with now := s.world.now + ms } }
  | .badgeUnlocked event => some (s.spawn (.badge (.check event)))
  | .takeJob j => takeJob s j
  | .stallJob j => stallJob s j
  | .retryRequest transactionId override => some (s.spawn (.manual (.find transactionId override)))
  | .scan => some (s.spawn (.scan .find))
  | .webhook hook => receiveWebhook s hook
  | .run e outcome =>
    (advance cfg s.world e (s.threads e) outcome).map fun r =>
      { s with world := r.1, threads := Function.update s.threads e r.2 }
  | .crash e =>
    some { s with world := s.world.unlock e, threads := Function.update s.threads e .done }

def initialWorld : World where
  now := 0
  nextId := 0
  db := ⟨Table.empty, Table.empty, [], [], fun _ => none⟩
  queue := ⟨fun _ => none, 0⟩
  paystack := ⟨fun _ => none, []⟩

def initial : State := ⟨initialWorld, fun _ => .done, 0⟩

/-- The states the service can reach, with the moves that led there. -/
abbrev Reaches (cfg : Config) (tr : List (Move State Label)) (s : State) : Prop :=
  Run (step cfg) initial tr s

/-! ## What a step can do -/

/-- The first program point of an operation. -/
inductive Started : Thread → Prop
  | badge (event : BadgeUnlockedEvent) : Started (.badge (.check event))
  | payment (r : PaymentRun) : Started (.payment r .find)
  | manual (k : ReadableId) (override : RetryBankDetailsOverride) :
      Started (.manual (.find k override))
  | scan : Started (.scan .find)
  | webhook (hook : TransferWebhook) : Started (.webhook hook .find)

/-- What a label other than `run` does to the world. -/
inductive Ambient : World → World → Prop
  | same (w : World) : Ambient w w
  | tick (w : World) (ms : ℕ) : Ambient w { w with now := w.now + ms }
  | job (w : World) (j : ℕ) (job : Option Job) : Ambient w (w.setJob j job)
  | report (w : World) (reference : Reference) : Ambient w (w.reportTransfer reference)
  | unlock (w : World) (e : ℕ) : Ambient w (w.unlock e)

section Ambient
variable {w w' : World} (h : Ambient w w')
include h

theorem Ambient.transactions : w'.db.transactions = w.db.transactions := by cases h <;> rfl

theorem Ambient.payoutAccounts : w'.db.payoutAccounts = w.db.payoutAccounts := by cases h <;> rfl

theorem Ambient.recipients : w'.paystack.recipients = w.paystack.recipients := by cases h <;> rfl

theorem Ambient.nextId : w'.nextId = w.nextId := by cases h <;> rfl

end Ambient

theorem spawn_threads (s : State) (th : Thread) (e : ℕ) :
    (s.spawn th).threads e = if e = s.nextThread then th else s.threads e := by
  simp only [State.spawn, Function.update_apply]

/-- A step of a thread, spelled out: the world and this thread change, the other threads do not. -/
theorem step_run {cfg : Config} {s s' : State} {e : ℕ} {o : Outcome}
    (h : step cfg s (.run e o) = some s') :
    ∃ th', advance cfg s.world e (s.threads e) o = some (s'.world, th') ∧
      s'.nextThread = s.nextThread ∧
      ∀ e', s'.threads e' = if e' = e then th' else s.threads e' := by
  obtain ⟨⟨w', th'⟩, hadv, rfl⟩ := Option.map_eq_some_iff.mp h
  exact ⟨th', hadv, rfl, fun e' => by simp only [Function.update_apply]⟩

/-- A worker that takes a job starts `processPayment` and leaves the database and Paystack alone. -/
theorem takeJob_spec {s s' : State} {j : ℕ} (h : takeJob s j = some s') :
    ∃ job, s.world.queue.jobs j = some job ∧ job.state = .waiting ∧
      s'.world = s.world.setJob j (some { job with state := .active s.nextThread }) ∧
      s'.nextThread = s.nextThread + 1 ∧
      ∀ e, s'.threads e = if e = s.nextThread then
        .payment ⟨j, job.transactionId, job.event, jobAttempts ≤ job.attemptsMade + 1⟩ .find
        else s.threads e := by
  unfold takeJob at h
  split at h
  · next job hjob =>
    split_ifs at h with hwait
    rw [Option.some.injEq] at h
    subst h
    exact ⟨job, hjob, hwait, rfl, rfl, fun e => spawn_threads _ _ e⟩
  · cases h

theorem stallJob_spec {s s' : State} {j : ℕ} (h : stallJob s j = some s') :
    ∃ job e, s.world.queue.jobs j = some job ∧ job.state = .active e ∧
      s' = { s with
        world := s.world.setJob j (some
          { job with
            stalledCount := job.stalledCount + 1
            state := if job.stalledCount < maxStalledCount then .waiting else .failed }) } := by
  unfold stallJob at h
  split at h
  · next job hjob =>
    split at h
    · next e he =>
      rw [Option.some.injEq] at h
      exact ⟨job, e, hjob, he, h.symm⟩
    · cases h
  · cases h

theorem receiveWebhook_spec {s s' : State} {hook : TransferWebhook}
    (h : receiveWebhook s hook = some s') :
    (s'.world = s.world ∨ hook.event.outcome = .failed ∧
      s'.world = s.world.reportTransfer hook.reference) ∧
      s'.nextThread = s.nextThread + 1 ∧
      ∀ e, s'.threads e = if e = s.nextThread then .webhook hook .find else s.threads e := by
  unfold receiveWebhook at h
  split_ifs at h
  rw [Option.some.injEq] at h
  subst h
  refine ⟨?_, rfl, fun e => spawn_threads _ _ e⟩
  cases hev : hook.event with
  | success => exact Or.inl rfl
  | failed => exact Or.inr ⟨rfl, rfl⟩
  | reversed => exact Or.inr ⟨rfl, rfl⟩

/-- A step runs a thread, or starts an operation, or at most ends a thread. -/
theorem step_cases {cfg : Config} {s s' : State} {l : Label} (h : step cfg s l = some s') :
    (∃ e o th', l = .run e o ∧
      advance cfg s.world e (s.threads e) o = some (s'.world, th') ∧
      s'.nextThread = s.nextThread ∧
      ∀ e', s'.threads e' = if e' = e then th' else s.threads e') ∨
    Ambient s.world s'.world ∧ (∀ e o, l ≠ .run e o) ∧
      ((∃ th, Started th ∧ s'.nextThread = s.nextThread + 1 ∧
          ∀ e, s'.threads e = if e = s.nextThread then th else s.threads e) ∨
        s'.nextThread = s.nextThread ∧
          ∀ e, s'.threads e = s.threads e ∨ s'.threads e = .done) := by
  have hspawn : ∀ th, Started th → step cfg s l = some (s.spawn th) →
      Ambient s.world s'.world ∧ ∃ th, Started th ∧ s'.nextThread = s.nextThread + 1 ∧
        ∀ e, s'.threads e = if e = s.nextThread then th else s.threads e := by
    intro th hth hstep
    rw [hstep, Option.some.injEq] at h
    subst h
    exact ⟨Ambient.same _, th, hth, rfl, spawn_threads s th⟩
  cases l with
  | tick ms =>
    rw [step, Option.some.injEq] at h
    subst h
    exact Or.inr ⟨Ambient.tick _ ms, by simp, Or.inr ⟨rfl, fun _ => Or.inl rfl⟩⟩
  | badgeUnlocked event =>
    obtain ⟨hw, hth⟩ := hspawn _ (Started.badge event) rfl
    exact Or.inr ⟨hw, by simp, Or.inl hth⟩
  | takeJob j =>
    obtain ⟨job, _, _, hw, hnext, hth⟩ := takeJob_spec h
    exact Or.inr ⟨hw ▸ Ambient.job _ _ _, by simp, Or.inl ⟨_, Started.payment _, hnext, hth⟩⟩
  | stallJob j =>
    obtain ⟨job, e, _, _, rfl⟩ := stallJob_spec h
    exact Or.inr ⟨Ambient.job _ _ _, by simp, Or.inr ⟨rfl, fun _ => Or.inl rfl⟩⟩
  | retryRequest k override =>
    obtain ⟨hw, hth⟩ := hspawn _ (Started.manual k override) rfl
    exact Or.inr ⟨hw, by simp, Or.inl hth⟩
  | scan =>
    obtain ⟨hw, hth⟩ := hspawn _ Started.scan rfl
    exact Or.inr ⟨hw, by simp, Or.inl hth⟩
  | webhook hook =>
    obtain ⟨hw, hnext, hth⟩ := receiveWebhook_spec h
    refine Or.inr ⟨?_, by simp, Or.inl ⟨_, Started.webhook hook, hnext, hth⟩⟩
    rcases hw with hw | ⟨_, hw⟩
    · exact hw ▸ Ambient.same _
    · exact hw ▸ Ambient.report _ _
  | run e o =>
    obtain ⟨th', hadv, hnext, hth⟩ := step_run h
    exact Or.inl ⟨e, o, th', rfl, hadv, hnext, hth⟩
  | crash e =>
    rw [step, Option.some.injEq] at h
    subst h
    refine Or.inr ⟨Ambient.unlock _ e, by simp, Or.inr ⟨rfl, fun e' => ?_⟩⟩
    by_cases he : e' = e
    · exact Or.inr (by simp only [he, Function.update_self])
    · exact Or.inl (Function.update_of_ne he _ _)

/-- The thread that a label starts; the one for a job pays the job's transaction. -/
inductive StartedBy (s : State) : Label → Thread → Prop
  | badge (event : BadgeUnlockedEvent) : StartedBy s (.badgeUnlocked event) (.badge (.check event))
  | payment {j : ℕ} {job : Job} (final : Bool) (queued : s.world.queue.jobs j = some job) :
      StartedBy s (.takeJob j) (.payment ⟨j, job.transactionId, job.event, final⟩ .find)
  | manual (k : ReadableId) (override : RetryBankDetailsOverride) :
      StartedBy s (.retryRequest k override) (.manual (.find k override))
  | scan : StartedBy s .scan (.scan .find)
  | webhook (hook : TransferWebhook) : StartedBy s (.webhook hook) (.webhook hook .find)

theorem step_threads {cfg : Config} {s s' : State} {l : Label} (h : step cfg s l = some s')
    (hl : ∀ e o, l ≠ .run e o) (e : ℕ) :
    s'.threads e = s.threads e ∨ s'.threads e = .done ∨ StartedBy s l (s'.threads e) := by
  have hspawn : ∀ {th : Thread}, StartedBy s l th →
      (∀ e, s'.threads e = if e = s.nextThread then th else s.threads e) →
      s'.threads e = s.threads e ∨ s'.threads e = .done ∨ StartedBy s l (s'.threads e) := by
    intro th hth hthreads
    rw [hthreads]
    split
    · exact Or.inr (Or.inr hth)
    · exact Or.inl rfl
  cases l with
  | tick ms =>
    cases h
    exact Or.inl rfl
  | badgeUnlocked event =>
    cases h
    exact hspawn (.badge event) (spawn_threads s _)
  | takeJob j =>
    obtain ⟨job, hjob, _, _, _, hth⟩ := takeJob_spec h
    exact hspawn (.payment _ hjob) hth
  | stallJob j =>
    obtain ⟨_, _, _, _, rfl⟩ := stallJob_spec h
    exact Or.inl rfl
  | retryRequest k override =>
    cases h
    exact hspawn (.manual k override) (spawn_threads s _)
  | scan =>
    cases h
    exact hspawn .scan (spawn_threads s _)
  | webhook hook =>
    obtain ⟨_, _, hth⟩ := receiveWebhook_spec h
    exact hspawn (.webhook hook) hth
  | run e' o => exact absurd rfl (hl e' o)
  | crash e' =>
    cases h
    by_cases he : e = e'
    · exact Or.inr (Or.inl (by simp only [he, Function.update_self]))
    · exact Or.inl (Function.update_of_ne he _ _)

/-! ## Invariants of the world and of each thread -/

/-- Threads beyond the next one have not started. -/
theorem thread_beyond {cfg : Config} {tr : List (Move State Label)} {s : State}
    (h : Reaches cfg tr s) : ∀ e, s.nextThread ≤ e → s.threads e = .done := by
  refine Run.invariant (fun s => ∀ e, s.nextThread ≤ e → s.threads e = .done) ?_ h (fun _ _ => rfl)
  intro s l s' hs hstep e he
  rcases step_cases hstep with ⟨e', o, th', rfl, hadv, hnext, hth⟩ | ⟨_, _, hrest⟩
  · rw [hth]
    split
    · next heq =>
      subst heq
      rw [hs e (hnext ▸ he)] at hadv
      cases hadv
    · exact hs e (hnext ▸ he)
  · rcases hrest with ⟨th, _, hnext, hth⟩ | ⟨hnext, hth⟩
    · rw [hth, if_neg (by omega)]
      exact hs e (by omega)
    · rcases hth e with heq | heq
      · rw [heq]
        exact hs e (hnext ▸ he)
      · exact heq

/-- The rule for invariants `I` of the world and `J` of each thread in it: both hold throughout a
guarded run if every step of a thread keeps `I`, establishes `J` for itself and disturbs nobody. -/
theorem threads_invariant {cfg : Config} {G : State → Label → Prop} (I : World → Prop)
    (J : World → Thread → Prop) (hinit : I initialWorld) (hdone : ∀ w, J w .done)
    (hstart : ∀ w th, Started th → J w th)
    (hambient : ∀ w w', Ambient w w' → (I w → I w') ∧ ∀ th, J w th → J w' th)
    (hrun : ∀ s e o w' th', G s (.run e o) → I s.world → J s.world (s.threads e) →
      advance cfg s.world e (s.threads e) o = some (w', th') →
      I w' ∧ J w' th' ∧ ∀ th, J s.world th → J w' th)
    {tr : List (Move State Label)} {s : State} (h : Reaches cfg tr s) (hG : Guarded G tr) :
    I s.world ∧ ∀ e, J s.world (s.threads e) := by
  refine (Run.guarded_invariant (fun s => I s.world ∧ ∀ e, J s.world (s.threads e)) ?_ h hG
    ⟨hinit, fun e => hdone _⟩).1
  rintro s l s' hg ⟨hI, hJ⟩ hstep
  rcases step_cases hstep with ⟨e, o, th', rfl, hadv, _, hth⟩ | ⟨hw, _, hrest⟩
  · obtain ⟨hI', hown, hothers⟩ := hrun s e o _ _ hg hI (hJ e) hadv
    refine ⟨hI', fun e' => ?_⟩
    rw [hth]
    split
    · exact hown
    · exact hothers _ (hJ e')
  · obtain ⟨hI', hothers⟩ := hambient _ _ hw
    refine ⟨hI' hI, fun e => ?_⟩
    rcases hrest with ⟨th, hstarted, _, hth⟩ | ⟨_, hth⟩
    · rw [hth]
      split
      · exact hstart _ _ hstarted
      · exact hothers _ (hJ e)
    · rcases hth e with heq | heq
      · rw [heq]
        exact hothers _ (hJ e)
      · rw [heq]
        exact hdone _

/-- How many threads are at a program point with `p`. -/
abbrev State.count (s : State) (p : Thread → Bool) : ℕ := countThreads s.nextThread s.threads p

/-- Some thread is at a program point with `p`. -/
def State.anyThread (s : State) (p : Thread → Bool) : Bool :=
  (List.range s.nextThread).any fun e => p (s.threads e)

theorem anyThread_of_thread {cfg : Config} {tr : List (Move State Label)} {s : State} {e : ℕ}
    {p : Thread → Bool} (hreach : Reaches cfg tr s) (hdone : p .done = false)
    (h : p (s.threads e) = true) : s.anyThread p = true := by
  refine List.any_eq_true.mpr ⟨e, List.mem_range.mpr (Nat.lt_of_not_le fun hle => ?_), h⟩
  rw [thread_beyond hreach e hle, hdone] at h
  cases h

/-- A step changes the count by the point of the thread that runs, or lowers it, if no operation
starts at `p`. -/
theorem step_count {cfg : Config} {tr : List (Move State Label)} {s s' : State} {l : Label}
    {p : Thread → Bool} (hreach : Reaches cfg tr s) (h : step cfg s l = some s')
    (hdone : p .done = false) (hstart : ∀ th, Started th → p th = false) :
    (∃ e o th', l = .run e o ∧ s'.threads e = th' ∧
      advance cfg s.world e (s.threads e) o = some (s'.world, th') ∧
      s'.count p + (p (s.threads e)).toNat = s.count p + (p th').toNat) ∨
    (∀ e o, l ≠ .run e o) ∧ Ambient s.world s'.world ∧ s'.count p ≤ s.count p := by
  rcases step_cases h with ⟨e, o, th', rfl, hadv, hnext, hth⟩ | ⟨hw, hl, hrest⟩
  · have hlt : e < s.nextThread := by
      by_contra hge
      rw [thread_beyond hreach e (Nat.le_of_not_lt hge)] at hadv
      cases hadv
    have hself : s'.threads e = th' := by rw [hth, if_pos rfl]
    have hothers : ∀ e', e' ≠ e → s'.threads e' = s.threads e' := fun e' he' => by
      rw [hth e', if_neg he']
    have hcount := countThreads_update (p := p) hlt hothers
    rw [hself] at hcount
    exact Or.inl ⟨e, o, th', rfl, hself, hadv, by rw [State.count, hnext]; exact hcount⟩
  · refine Or.inr ⟨hl, hw, ?_⟩
    rcases hrest with ⟨th, hstarted, hnext, hth⟩ | ⟨hnext, hth⟩
    · have hothers : ∀ e < s.nextThread, s'.threads e = s.threads e := fun e he => by
        rw [hth e, if_neg (Nat.ne_of_lt he)]
      have hspawn := countThreads_spawn (p := p) hothers
      rw [hth s.nextThread, if_pos rfl, hstart th hstarted] at hspawn
      rw [State.count, hnext, hspawn]
      exact Nat.le_refl _
    · rw [State.count, hnext]
      refine countThreads_mono fun e _ hp => ?_
      rcases hth e with heq | heq
      · rwa [heq] at hp
      · rw [heq, hdone] at hp
        cases hp

/-! ## Schedules

A configuration, an event and the building blocks of the concrete runs that the results below
point at. -/

def paystackConfig : Config where
  paymentProvider := some "paystack"
  paystackSecretKey := some "sk_test"
  cashbackAmountKobo := 30000
  baseDelayMs := 300000
  maxAutoRetries := 5

def mockConfig : Config := { paystackConfig with paymentProvider := some "mock" }

/-- A badge of user `usr_1`, who gives this account number. -/
def badgeEvent (eventId : ReadableId) (badgeName bankAccountNumber : String) :
    BadgeUnlockedEvent :=
  createDomainEvent .badgeUnlocked
    { badgeName := badgeName
      rewardAmountKobo := none
      rewardCurrency := "NGN"
      user := ⟨"usr_1", "ada@example.com", "Ada", some bankAccountNumber, some "058"⟩ }
    eventId eventId

/-- What `postToPaystack` throws when `fetch` does. -/
def fetchFailed : Thrown :=
  .payment ⟨"Could not reach Paystack: fetch failed", .providerUnavailable, true⟩

/-- The webhook about the first reference that is drawn. -/
def firstWebhook (event : TransferEvent) : TransferWebhook := ⟨event, ⟨.paystack, 1⟩, none, none⟩

/-- The next `n` awaited calls of thread `e` go through. -/
def Label.oks (e n : ℕ) : List Label := List.replicate n (.run e .ok)

/-- A new event is delivered on thread `e`, which creates the transaction and adds its job. -/
def deliver (e : ℕ) (event : BadgeUnlockedEvent) : List Label :=
  .badgeUnlocked event :: Label.oks e 7

/-- Thread `e` takes job `j` and pays to a new recipient; Paystack has accepted the transfer. -/
def payNewRecipient (e j : ℕ) (code : String) : List Label :=
  .takeJob j :: Label.oks e 4 ++ [.run e (.recipient code), .run e .ok]

end Bumpa.Cashback
