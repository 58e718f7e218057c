import Bumpa.Outbox.PublishIntent

/-! # Exclusive publishing

A batch holds copies that were read long before their rows are claimed, and a row may be claimed,
put back to PENDING and claimed again. Where repository writes succeed (`writesSucceed`), a held row
is PUBLISHING, and a row with a confirmed publish is PUBLISHED, or PUBLISHING with nobody who could
put it back (`Exclusive.closed`). A publish is confirmed if the call resolves; calls of the broker
and reads may fail, and processes may crash.

`publishing_exclusive`: a row has one holder at most and is confirmed once at most, PUBLISHED and
FAILED rows are neither changed nor published, and a PENDING row has attempts left.
-/
namespace Bumpa.Outbox
open Bumpa.Events Bumpa.Relational Bumpa.Transition
set_option autoImplicit false

variable {Payload : Type} {options : OutboxModuleOptions}

/-- The row whose publish is the next call. -/
def Thread.calling : Thread Payload → Option ReadableId
  | .publish event _ => some event.id
  | _ => none

/-- The row whose publish is the next call or was rejected. -/
def Thread.unconfirmed : Thread Payload → Option ReadableId
  | .publish event _ | .saveFailed event _ => some event.id
  | _ => none

def Thread.writes : Thread Payload → Bool
  | .claim _ _ | .savePublished _ _ | .saveFailed _ _ => true
  | _ => false

/-- A write that is issued goes through. -/
def writesSucceed (s : State Payload) : Label Payload → Bool
  | .run e (.fails _ _) => !(s.threads e).writes
  | _ => true

def publishes (id : ReadableId) (x : Move (State Payload) (Label Payload)) : Bool :=
  match x.label with
  | .run e _ => (x.source.threads e).calling = some id
  | _ => false

def confirms (id : ReadableId) (x : Move (State Payload) (Label Payload)) : Bool :=
  match x.label with
  | .run e .ok => (x.source.threads e).calling = some id
  | _ => false

/-! ## One step of an execution -/

/-- What a step of an execution does to rows and claims, where a write goes through. -/
inductive Advance (options : OutboxModuleOptions) (w w' : World Payload) (th th' : Thread Payload)
    (o : Outcome) : Prop
  | idle (rows : w'.rows = w.rows) (before : th.holding = none) (after : th'.holding = none)
  | claims (event : OutboxRecord Payload) (rest : Rest Payload) (before : th.holding = none)
      (pending : w.statusOf event.id = some .pending) (rows : w'.rows = (w.claimRow event.id).rows)
      (after : th' = .publish event rest)
  | confirmed (event event' : OutboxRecord Payload) (rest : Rest Payload) (succeeds : o = .ok)
      (source : th = .publish event rest) (rows : w'.rows = w.rows) (same : event'.id = event.id)
      (after : th' = .savePublished event' rest)
  | rejected (event : OutboxRecord Payload) (rest : Rest Payload) (error : String)
      (fails : o ≠ .ok) (source : th = .publish event rest) (rows : w'.rows = w.rows)
      (after : th' = .saveFailed (event.attemptFailed options.maxAttempts error) rest)
  | saves (event : OutboxRecord Payload) (rest : Rest Payload)
      (source : th = .savePublished event rest ∨ th = .saveFailed event rest)
      (rows : w'.rows = (w.save event).rows) (after : th'.holding = none)

theorem advance_cases {w w' : World Payload} {th th' : Thread Payload} {o : Outcome}
    (h : advance options w th o = some (w', th')) (hwrites : o = .ok ∨ th.writes = false) :
    Advance options w w' th th' o := by
  cases th with
  | done => cases h
  | findOne id rest =>
    cases o with
    | ok =>
      simp only [advance] at h
      split at h
      · cases h
        exact .idle rfl rfl (next_holding _)
      · split at h <;> cases h
        · exact .idle rfl rfl (next_holding _)
        · exact .idle rfl rfl rfl
    | fails error written =>
      cases h
      exact .idle rfl rfl rfl
  | find =>
    cases o with
    | ok =>
      cases h
      exact .idle rfl rfl (next_holding _)
    | fails error written =>
      cases h
      exact .idle rfl rfl rfl
  | claim event rest =>
    cases o with
    | ok =>
      simp only [advance, any_pending] at h
      split at h
      · next hpending =>
        cases h
        exact .claims { event with status := .publishing } rest rfl hpending rfl rfl
      · cases h
        exact .idle rfl rfl (next_holding rest)
    | fails error written => rcases hwrites with hw | hw <;> cases hw
  | publish event rest =>
    cases o with
    | ok =>
      cases h
      exact .confirmed event (event.published w.now) rest rfl rfl rfl rfl rfl
    | fails error written =>
      cases h
      exact .rejected event rest error (by simp) rfl (by split <;> rfl) rfl
  | savePublished event rest =>
    cases o with
    | ok =>
      cases h
      exact .saves event rest (Or.inl rfl) rfl (next_holding rest)
    | fails error written => rcases hwrites with hw | hw <;> cases hw
  | saveFailed event rest =>
    cases o with
    | ok =>
      cases h
      exact .saves event rest (Or.inr rfl) rfl (next_holding rest)
    | fails error written => rcases hwrites with hw | hw <;> cases hw

/-! ## What every step keeps -/

structure Exclusive (options : OutboxModuleOptions)
    (tr : List (Move (State Payload) (Label Payload))) (s : State Payload) : Prop where
  claims : Claims options s
  held : ∀ e k, (s.threads e).holding = some k → s.world.statusOf k = some .publishing
  confirmed : ∀ k, tr.countP (confirms k) ≤ 1
  closed : ∀ k, 0 < tr.countP (confirms k) → s.world.statusOf k = some .published ∨
    (s.world.statusOf k = some .publishing ∧ ∀ e, (s.threads e).unconfirmed ≠ some k)
  pending : ∀ k row, s.world.rows.row k = some row → row.status = .pending →
    row.attempts < options.maxAttempts
  copies : ∀ e event rest, s.threads e = .saveFailed event rest → event.status = .pending →
    event.attempts < options.maxAttempts

theorem unconfirmed_holding {th : Thread Payload} {k : ReadableId} (h : th.unconfirmed = some k) :
    th.holding = some k := by
  cases th <;> first | exact h | cases h

theorem calling_unconfirmed {th : Thread Payload} {k : ReadableId} (h : th.calling = some k) :
    th.unconfirmed = some k := by
  cases th <;> first | exact h | cases h

section Step
variable {tr : List (Move (State Payload) (Label Payload))} {s s' : State Payload}
  {l : Label Payload} {e : ℕ} {th' : Thread Payload}

theorem countP_confirms (k : ReadableId) (x : Move (State Payload) (Label Payload)) :
    List.countP (confirms k) (tr ++ [x]) = tr.countP (confirms k) + (confirms k x).toNat :=
  countP_snoc _ _ _

/-- A step that leaves the rows, confirms nothing and takes no claim. -/
theorem quiet_exclusive (hs : Exclusive options tr s) (hclaims : Claims options s')
    (hrows : s'.world.rows = s.world.rows)
    (hthreads : ∀ e, s'.threads e = s.threads e ∨ (s'.threads e).holding = none)
    (hsilent : ∀ k, confirms k ⟨s, l, s'⟩ = false) : Exclusive options (tr ++ [⟨s, l, s'⟩]) s' := by
  have hcount : ∀ k, List.countP (confirms k) (tr ++ [⟨s, l, s'⟩]) = tr.countP (confirms k) := by
    intro k
    rw [countP_confirms, hsilent]
    rfl
  refine ⟨hclaims, fun e k hk => ?_, fun k => ?_, fun k hpos => ?_, fun k row hrow => ?_,
    fun e event rest hth => ?_⟩
  · rw [statusOf_congr hrows]
    rcases hthreads e with hsame | hnone
    · exact hs.held e k (hsame ▸ hk)
    · cases hnone.symm.trans hk
  · rw [hcount]
    exact hs.confirmed k
  · rw [hcount] at hpos
    rw [statusOf_congr hrows]
    refine (hs.closed k hpos).imp_right fun ⟨hstatus, hfree⟩ => ⟨hstatus, fun e he => ?_⟩
    rcases hthreads e with hsame | hnone
    · exact hfree e (hsame ▸ he)
    · cases hnone.symm.trans (unconfirmed_holding he)
  · rw [hrows] at hrow
    exact hs.pending k row hrow
  · rcases hthreads e with hsame | hnone
    · exact hs.copies e event rest (hsame ▸ hth)
    · rw [hth] at hnone
      cases hnone

/-- Whoever is about to publish a row, or to put it back, knows that it is not confirmed. -/
theorem unconfirmed_count (hs : Exclusive options tr s) {k : ReadableId}
    (h : (s.threads e).unconfirmed = some k) : tr.countP (confirms k) = 0 := by
  refine Nat.eq_zero_of_not_pos fun hpos => ?_
  have hheld := hs.held e k (unconfirmed_holding h)
  rcases hs.closed k hpos with hpublished | ⟨_, hfree⟩
  · cases hheld.symm.trans hpublished
  · exact hfree e h

/-- One execution claims a row, or goes on with the row it holds. -/
theorem thread_exclusive (hs : Exclusive options tr s) (hclaims : Claims options s')
    (htaken : ∀ k, th'.holding = some k →
      (s.threads e).holding = some k ∨ s.world.statusOf k = some .pending)
    (hheld : ∀ k, th'.holding = some k → s'.world.statusOf k = some .publishing)
    (hother : ∀ k, (s.threads e).holding ≠ some k → s.world.statusOf k ≠ some .pending →
      s'.world.statusOf k = s.world.statusOf k)
    (hconfirms : ∀ k, confirms k ⟨s, l, s'⟩ = true → (s.threads e).calling = some k)
    (hclosed : ∀ k, (0 < tr.countP (confirms k) ∨ confirms k ⟨s, l, s'⟩ = true) →
      (s.threads e).holding = some k → s'.world.statusOf k = some .published ∨
        (s'.world.statusOf k = some .publishing ∧ th'.unconfirmed ≠ some k))
    (hpending : ∀ k row, s'.world.rows.row k = some row → row.status = .pending →
      row.attempts < options.maxAttempts)
    (hcopies : ∀ event rest, th' = .saveFailed event rest → event.status = .pending →
      event.attempts < options.maxAttempts)
    (hthreads : ∀ e', s'.threads e' = if e' = e then th' else s.threads e') :
    Exclusive options (tr ++ [⟨s, l, s'⟩]) s' := by
  have hcalling : ∀ k, confirms k ⟨s, l, s'⟩ = true → (s.threads e).unconfirmed = some k :=
    fun k hk => calling_unconfirmed (hconfirms k hk)
  refine ⟨hclaims, fun e' k hk => ?_, fun k => ?_, fun k hpos => ?_, hpending,
    fun e' event rest hth => ?_⟩
  · rw [hthreads] at hk
    split at hk
    · exact hheld k hk
    · next hne =>
      have hstatus := hs.held e' k hk
      rw [hother k (fun h => hne (hs.claims.unique e' e k hk h)) (by rw [hstatus]; simp)]
      exact hstatus
  · rw [countP_confirms]
    cases hc : confirms k ⟨s, l, s'⟩ with
    | false => exact hs.confirmed k
    | true =>
      rw [unconfirmed_count hs (hcalling k hc)]
      exact Nat.le_refl 1
  · have hcase : 0 < tr.countP (confirms k) ∨ confirms k ⟨s, l, s'⟩ = true := by
      rw [countP_confirms] at hpos
      cases hc : confirms k ⟨s, l, s'⟩ with
      | false => rw [hc] at hpos; exact Or.inl hpos
      | true => exact Or.inr rfl
    by_cases hown : (s.threads e).holding = some k
    · refine (hclosed k hcase hown).imp_right fun ⟨hstatus, hfree⟩ => ⟨hstatus, fun e' he' => ?_⟩
      rw [hthreads] at he'
      split at he'
      · exact hfree he'
      · next hne => exact hne (hs.claims.unique e' e k (unconfirmed_holding he') hown)
    · have hbefore : 0 < tr.countP (confirms k) :=
        hcase.resolve_right fun hc => hown (unconfirmed_holding (hcalling k hc))
      have hclosed' := hs.closed k hbefore
      have hnot : s.world.statusOf k ≠ some .pending := by
        rcases hclosed' with h | ⟨h, _⟩ <;> rw [h] <;> simp
      rw [hother k hown hnot]
      refine hclosed'.imp_right fun ⟨hstatus, hfree⟩ => ⟨hstatus, fun e' he' => ?_⟩
      rw [hthreads] at he'
      split at he'
      · rcases htaken k (unconfirmed_holding he') with h | h
        · exact hown h
        · exact hnot h
      · exact hfree e' he'
  · rw [hthreads] at hth
    split at hth
    · exact hcopies event rest hth
    · exact hs.copies e' event rest hth

variable {o : Outcome}

theorem confirms_run {k : ReadableId} (h : confirms k ⟨s, .run e o, s'⟩ = true) :
    o = .ok ∧ (s.threads e).calling = some k := by
  cases o with
  | ok => exact ⟨rfl, of_decide_eq_true h⟩
  | fails error written => cases h

/-- A claim is won. -/
theorem claim_exclusive {event : OutboxRecord Payload} {rest : Rest Payload}
    (hs : Exclusive options tr s) (hclaims : Claims options s')
    (hbefore : (s.threads e).holding = none)
    (hpending : s.world.statusOf event.id = some .pending)
    (hrows : s'.world.rows = (s.world.claimRow event.id).rows)
    (hthreads : ∀ e', s'.threads e' = if e' = e then .publish event rest else s.threads e') :
    Exclusive options (tr ++ [⟨s, .run e o, s'⟩]) s' := by
  have hstatus : ∀ k, s'.world.statusOf k =
      if k = event.id then some .publishing else s.world.statusOf k := by
    intro k
    rw [statusOf_congr hrows, claimRow_statusOf hpending]
  refine thread_exclusive hs hclaims (fun k hk => ?_) (fun k hk => ?_) (fun k _ hne => ?_)
    (fun k hk => (confirms_run hk).2) (fun k _ hk => ?_) (fun k row hrow hfree => ?_)
    (fun _ _ heq => by cases heq) hthreads
  · cases hk
    exact Or.inr hpending
  · cases hk
    rw [hstatus, if_pos rfl]
  · rw [hstatus, if_neg]
    rintro rfl
    exact hne hpending
  · cases hbefore.symm.trans hk
  · rw [hrows, claimRow_row hpending] at hrow
    split at hrow
    · obtain ⟨_, _, rfl⟩ := Option.map_eq_some_iff.mp hrow
      cases hfree
    · exact hs.pending k row hrow hfree

/-- A publish is confirmed. -/
theorem confirm_exclusive {event event' : OutboxRecord Payload} {rest : Rest Payload}
    (hs : Exclusive options tr s) (hclaims : Claims options s')
    (hth : s.threads e = .publish event rest) (hrows : s'.world.rows = s.world.rows)
    (hid : event'.id = event.id)
    (hthreads : ∀ e', s'.threads e' = if e' = e then .savePublished event' rest else s.threads e') :
    Exclusive options (tr ++ [⟨s, .run e o, s'⟩]) s' := by
  have hown : (s.threads e).holding = some event.id := by rw [hth]; rfl
  refine thread_exclusive hs hclaims (fun k hk => ?_) (fun k hk => ?_) (fun k _ _ => ?_)
    (fun k hk => (confirms_run hk).2) (fun k _ hk => ?_) (fun k row hrow => ?_)
    (fun _ _ heq => by cases heq) hthreads
  · cases hk
    rw [hid]
    exact Or.inl hown
  · cases hk
    rw [statusOf_congr hrows, hid]
    exact hs.held e event.id hown
  · exact statusOf_congr hrows k
  · refine Or.inr ⟨?_, by simp [Thread.unconfirmed]⟩
    rw [statusOf_congr hrows]
    exact hs.held e k hk
  · rw [hrows] at hrow
    exact hs.pending k row hrow

/-- A publish is rejected. -/
theorem reject_exclusive {event : OutboxRecord Payload} {rest : Rest Payload} {error : String}
    (hs : Exclusive options tr s) (hclaims : Claims options s') (hfails : o ≠ .ok)
    (hth : s.threads e = .publish event rest) (hrows : s'.world.rows = s.world.rows)
    (hthreads : ∀ e', s'.threads e' =
      if e' = e then .saveFailed (event.attemptFailed options.maxAttempts error) rest
      else s.threads e') :
    Exclusive options (tr ++ [⟨s, .run e o, s'⟩]) s' := by
  have hown : (s.threads e).holding = some event.id := by rw [hth]; rfl
  refine thread_exclusive hs hclaims (fun k hk => ?_) (fun k hk => ?_) (fun k _ _ => ?_)
    (fun k hk => (confirms_run hk).2) (fun k hpos hk => ?_) (fun k row hrow => ?_)
    (fun event' rest' heq hpending => ?_) hthreads
  · cases hk
    exact Or.inl hown
  · cases hk
    rw [statusOf_congr hrows]
    exact hs.held e event.id hown
  · exact statusOf_congr hrows k
  · have hcount := unconfirmed_count (e := e) hs (k := k) (by rw [hth] at hk ⊢; exact hk)
    rcases hpos with hpos | hc
    · omega
    · exact absurd (confirms_run hc).1 hfails
  · rw [hrows] at hrow
    exact hs.pending k row hrow
  · cases heq
    simp only [OutboxRecord.attemptFailed] at hpending ⊢
    split at hpending
    · cases hpending
    · next hle => omega

/-- The copy is saved. -/
theorem save_exclusive {event : OutboxRecord Payload} {rest : Rest Payload}
    (hs : Exclusive options tr s) (hclaims : Claims options s')
    (hth : s.threads e = .savePublished event rest ∨ s.threads e = .saveFailed event rest)
    (hrows : s'.world.rows = (s.world.save event).rows) (hafter : th'.holding = none)
    (hthreads : ∀ e', s'.threads e' = if e' = e then th' else s.threads e') :
    Exclusive options (tr ++ [⟨s, .run e o, s'⟩]) s' := by
  have hown := holding_saved hth
  have hstatus : ∀ k, s'.world.statusOf k =
      if k = event.id then some event.status else s.world.statusOf k := by
    intro k
    rw [statusOf_congr hrows, save_statusOf]
  have hdecided := hs.claims.decided e
  refine thread_exclusive hs hclaims (fun k hk => ?_) (fun k hk => ?_) (fun k hne _ => ?_)
    (fun k hk => (confirms_run hk).2) (fun k hpos hk => ?_) (fun k row hrow hpending => ?_)
    (fun _ _ heq => ?_) hthreads
  · cases hafter.symm.trans hk
  · cases hafter.symm.trans hk
  · rw [hstatus, if_neg]
    rintro rfl
    exact hne hown
  · rw [hown, Option.some.injEq] at hk
    subst hk
    rcases hth with hpublished | hfailed
    · rw [hpublished] at hdecided
      exact Or.inl (by rw [hstatus, if_pos rfl, hdecided])
    · have hcount := unconfirmed_count (e := e) hs (k := event.id) (by rw [hfailed]; rfl)
      rcases hpos with hpos | hc
      · omega
      · have hcalling := (confirms_run hc).2
        rw [hfailed] at hcalling
        cases hcalling
  · rw [hrows, save_row] at hrow
    split at hrow
    · cases hrow
      rcases hth with hpublished | hfailed
      · rw [hpublished] at hdecided
        cases hdecided.symm.trans hpending
      · exact hs.copies e event rest hfailed hpending
    · exact hs.pending k row hrow hpending
  · rw [heq] at hafter
    cases hafter

theorem run_exclusive (hs : Exclusive options tr s) (hclaims : Claims options s')
    (hadv : Advance options s.world s'.world (s.threads e) th' o)
    (hthreads : ∀ e', s'.threads e' = if e' = e then th' else s.threads e') :
    Exclusive options (tr ++ [⟨s, .run e o, s'⟩]) s' := by
  cases hadv with
  | idle rows before after =>
    refine quiet_exclusive hs hclaims rows (fun e' => ?_) fun k => Bool.eq_false_iff.mpr fun hk => ?_
    · rw [hthreads]
      split
      · exact Or.inr after
      · exact Or.inl rfl
    · cases before.symm.trans (unconfirmed_holding (calling_unconfirmed (confirms_run hk).2))
  | claims event rest before pending rows after =>
    subst after
    exact claim_exclusive hs hclaims before pending rows hthreads
  | confirmed event event' rest succeeds source rows same after =>
    subst after
    exact confirm_exclusive hs hclaims source rows same hthreads
  | rejected event rest error fails source rows after =>
    subst after
    exact reject_exclusive hs hclaims fails source rows hthreads
  | saves event rest source rows after =>
    exact save_exclusive hs hclaims source rows after hthreads

/-- A new row is PENDING, and its attempts are all left. -/
theorem commit_exclusive (hmax : 0 < options.maxAttempts) (hs : Exclusive options tr s)
    (hclaims : Claims options s') {id : ReadableId} {payload : Payload} {now : ℕ}
    (hnew : s.world.rows.row id = none)
    (hworld : s'.world = s.world.save (OutboxRecord.create id payload now))
    (hthreads : s'.threads = s.threads) (hsilent : ∀ k, confirms k ⟨s, l, s'⟩ = false) :
    Exclusive options (tr ++ [⟨s, l, s'⟩]) s' := by
  have hcount : ∀ k, List.countP (confirms k) (tr ++ [⟨s, l, s'⟩]) = tr.countP (confirms k) := by
    intro k
    rw [countP_confirms, hsilent]
    rfl
  have hsame : ∀ k status, s.world.statusOf k = some status → s'.world.statusOf k = some status := by
    intro k status hk
    rw [hworld, save_statusOf, if_neg]
    · exact hk
    · rintro rfl
      rw [World.statusOf] at hk
      cases (congrArg (Option.map (·.status)) hnew).symm.trans hk
  refine ⟨hclaims, fun e k hk => ?_, fun k => ?_, fun k hpos => ?_, fun k row hrow hpending => ?_,
    fun e event rest hth => ?_⟩
  · rw [hthreads] at hk
    exact hsame k _ (hs.held e k hk)
  · rw [hcount]
    exact hs.confirmed k
  · rw [hcount] at hpos
    rw [hthreads]
    rcases hs.closed k hpos with hpublished | ⟨hpublishing, hfree⟩
    · exact Or.inl (hsame k _ hpublished)
    · exact Or.inr ⟨hsame k _ hpublishing, hfree⟩
  · rw [hworld, save_row] at hrow
    split at hrow
    · cases hrow
      exact hmax
    · exact hs.pending k row hrow hpending
  · rw [hthreads] at hth
    exact hs.copies e event rest hth

theorem step_exclusive (hmax : 0 < options.maxAttempts) (hs : Exclusive options tr s)
    (hwrites : writesSucceed s l = true) (h : step options s l = some s') :
    Exclusive options (tr ++ [⟨s, l, s'⟩]) s' := by
  have hclaims := (step_claims hs.claims h).1
  cases l with
  | tick ms =>
    cases h
    exact quiet_exclusive hs hclaims rfl (fun _ => Or.inl rfl) fun _ => rfl
  | commit id payload =>
    simp only [step] at h
    split at h
    · next hnew =>
      cases h
      exact commit_exclusive hmax hs hclaims hnew rfl rfl fun _ => rfl
    · cases h
  | publishMany ids =>
    cases h
    refine quiet_exclusive hs hclaims rfl (fun e => ?_) fun _ => rfl
    simp only [State.spawn, Function.update_apply]
    split
    · exact Or.inr (next_holding _)
    · exact Or.inl rfl
  | publishPendingBatch =>
    cases h
    refine quiet_exclusive hs hclaims rfl (fun e => ?_) fun _ => rfl
    simp only [State.spawn, Function.update_apply]
    split
    · exact Or.inr rfl
    · exact Or.inl rfl
  | run e o =>
    obtain ⟨th', hadv, _, hthreads⟩ := step_run h
    refine run_exclusive hs hclaims (advance_cases hadv ?_) hthreads
    cases o with
    | ok => exact Or.inl rfl
    | fails error written => exact Or.inr (Bool.not_eq_true' _ ▸ hwrites)
  | crash e =>
    cases h
    refine quiet_exclusive hs hclaims rfl (fun e' => ?_) fun _ => rfl
    simp only [Function.update_apply]
    split
    · exact Or.inr rfl
    · exact Or.inl rfl

/-- A PUBLISHED or FAILED row is not held, so nobody changes or publishes it. -/
theorem step_absorbs (hs : Exclusive options tr s) (hwrites : writesSucceed s l = true)
    (h : step options s l = some s') {id : ReadableId} {row : OutboxRecord Payload}
    (hrow : s.world.rows.row id = some row) (hdone : row.status = .published ∨ row.status = .failed) :
    s'.world.rows.row id = some row ∧ publishes id ⟨s, l, s'⟩ = false := by
  have hstatus : s.world.statusOf id = some .published ∨ s.world.statusOf id = some .failed := by
    rw [World.statusOf, hrow]
    exact hdone.imp (congrArg some) (congrArg some)
  have hfree : ∀ e, (s.threads e).holding ≠ some id := by
    intro e he
    have hheld := hs.held e id he
    rcases hstatus with h | h <;> cases hheld.symm.trans h
  cases l with
  | run e o =>
    obtain ⟨th', hadv, _, hthreads⟩ := step_run h
    have hokay : o = .ok ∨ (s.threads e).writes = false := by
      cases o with
      | ok => exact Or.inl rfl
      | fails error written => exact Or.inr (Bool.not_eq_true' _ ▸ hwrites)
    refine ⟨?_, decide_eq_false fun hcalling =>
      hfree e (unconfirmed_holding (calling_unconfirmed hcalling))⟩
    cases advance_cases hadv hokay with
    | idle rows _ _ => rw [rows, hrow]
    | claims event rest before pending rows after =>
      rw [rows, claimRow_row pending, if_neg, hrow]
      rintro rfl
      rcases hstatus with h | h <;> cases pending.symm.trans h
    | confirmed _ _ _ _ _ rows _ _ => rw [rows, hrow]
    | rejected _ _ _ _ _ rows _ => rw [rows, hrow]
    | saves event rest source rows after =>
      rw [rows, save_row, if_neg, hrow]
      rintro rfl
      exact hfree e (holding_saved source)
  | commit id' payload =>
    simp only [step] at h
    split at h
    · next hnew =>
      cases h
      refine ⟨?_, rfl⟩
      rw [save_row, if_neg, hrow]
      rintro rfl
      cases hnew.symm.trans hrow
    · cases h
  | _ =>
    cases h
    exact ⟨hrow, rfl⟩

end Step

theorem initial_exclusive : Exclusive options [] (initial : State Payload) where
  claims := claims_initial
  held := fun _ _ h => by cases h
  confirmed := fun _ => Nat.zero_le _
  closed := fun _ h => absurd h (Nat.lt_irrefl 0)
  pending := fun _ _ h => by cases h
  copies := fun _ _ _ h => by cases h

/-! ## The result -/

/-- Where repository writes succeed (and the attempts that the environment allows are positive, as
its schema requires): a row is between a claim and its save in one execution at most, and confirmed
once at most; a row that is PUBLISHED or FAILED is neither changed nor published by any step; a
PENDING row has attempts left. -/
theorem publishing_exclusive (hmax : 0 < options.maxAttempts)
    {tr : List (Move (State Payload) (Label Payload))} {s : State Payload}
    (h : Reaches options tr s) (hwrites : Guarded (fun s l => writesSucceed s l = true) tr) :
    (∀ e e' id, (s.threads e).holding = some id → (s.threads e').holding = some id → e = e') ∧
    (∀ id, tr.countP (confirms id) ≤ 1) ∧
    (∀ x ∈ tr, ∀ id row, x.source.world.rows.row id = some row →
      row.status = .published ∨ row.status = .failed →
        x.target.world.rows.row id = some row ∧ publishes id x = false) ∧
    ∀ id row, s.world.rows.row id = some row → row.status = .pending →
      row.attempts < options.maxAttempts := by
  have hall := Run.guarded_history (fun tr s => Exclusive options tr s ∧
      ∀ x ∈ tr, ∀ id row, x.source.world.rows.row id = some row →
        row.status = .published ∨ row.status = .failed →
          x.target.world.rows.row id = some row ∧ publishes id x = false)
    ⟨initial_exclusive, List.forall_mem_nil _⟩ (fun tr t l u _ hG hJ hstep => ?_) h hwrites
  · exact ⟨hall.1.claims.unique, hall.1.confirmed, hall.2, hall.1.pending⟩
  · refine ⟨step_exclusive hmax hJ.1 hG hstep, fun x hmem id row hrow hdone => ?_⟩
    rcases List.mem_append.mp hmem with hold | hlast
    · exact hJ.2 x hold id row hrow hdone
    · rw [List.mem_singleton.mp hlast] at hrow ⊢
      exact step_absorbs hJ.1 hG hstep hrow hdone

/-- A batch claims with a copy that an attempt of another publisher has outdated. -/
theorem publishing_exclusive_stale : ∃ tr s, Reaches ⟨10, 5⟩ tr s ∧
    (s.world : World Unit).statusOf 0 = some .published ∧
    (tr.any fun x => match x.label with | .run 0 (.fails _ _) => true | _ => false) = true ∧
    tr.countP (confirms 0) ≤ 1 := by
  obtain ⟨tr, s, h, hp⟩ := exists_run_of_trace (step ⟨10, 5⟩) (initial : State Unit)
    [.commit 0 (), .publishMany [0], .publishPendingBatch, .run 1 .ok, .run 0 .ok, .run 0 .ok,
      .run 0 (.fails "timeout" false), .run 0 .ok, .run 1 .ok, .run 1 .ok, .run 1 .ok]
    (fun r => (r.1.all fun x => writesSucceed x.source x.label) &&
      (r.1.any fun x => match x.label with | .run 0 (.fails _ _) => true | _ => false) &&
      decide (r.2.world.statusOf 0 = some .published)) (by decide +kernel)
  simp only [Bool.and_eq_true, decide_eq_true_eq] at hp
  obtain ⟨⟨hwrites, hfails⟩, hstatus⟩ := hp
  exact ⟨tr, s, h, hstatus, hfails,
    (publishing_exclusive (by decide) h (guarded_of_all hwrites)).2.1 0⟩

end Bumpa.Outbox
