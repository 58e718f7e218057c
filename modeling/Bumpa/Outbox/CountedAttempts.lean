import Bumpa.Outbox.ExclusivePublishing

/-! # Counted attempts

The attempts of a row count its rejected publishes, but they are counted on a copy: `attemptFailed`
adds one to the copy that was read, long before its claim if it was read in a batch, and `save`
writes the copy back whole. A claim looks at the status alone, so it may be won with a copy that
other publishers have outdated, and what they counted is lost.

`attempts_counted`: the count is exact whenever nobody holds the row, in every run in which claims
are won with copies that have the attempts of the row (`claimsUpToDate`), and in which no process
dies between a rejected publish and its save. `attempts_lost` is a run with an outdated copy.
-/
namespace Bumpa.Outbox
open Bumpa.Events Bumpa.Relational Bumpa.Transition
set_option autoImplicit false

variable {Payload : Type} {options : OutboxModuleOptions}

/-- A publish of the row is rejected. -/
def rejects (id : ReadableId) (x : Move (State Payload) (Label Payload)) : Bool :=
  match x.label with
  | .run e (.fails _ _) => (x.source.threads e).calling = some id
  | _ => false

/-- A claim that wins its row has the row's attempts on its copy. -/
def claimsUpToDate (s : State Payload) : Label Payload → Bool
  | .run e .ok =>
    match s.threads e with
    | .claim event _ =>
      (s.world.rows.row event.id).all fun row =>
        row.status ≠ .pending || row.attempts = event.attempts
    | _ => true
  | _ => true

/-- A rejected publish is saved: no process dies before that. -/
def savesFailures (s : State Payload) : Label Payload → Bool
  | .crash e =>
    match s.threads e with
    | .saveFailed _ _ => false
    | _ => true
  | _ => true

/-! ## What is counted -/

/-- The copy of an execution that holds its row. -/
def Thread.copy : Thread Payload → Option (OutboxRecord Payload)
  | .publish event _ | .savePublished event _ | .saveFailed event _ => some event
  | _ => none

/-- The row whose rejected publish is not saved yet. -/
def Thread.unsaved : Thread Payload → Option ReadableId
  | .saveFailed event _ => some event.id
  | _ => none

theorem copy_holding {th : Thread Payload} {event : OutboxRecord Payload}
    (h : th.copy = some event) : th.holding = some event.id := by
  cases th <;> cases h <;> rfl

theorem unsaved_holding {th : Thread Payload} {k : ReadableId} (h : th.unsaved = some k) :
    th.holding = some k := by
  cases th <;> first | exact h | cases h

theorem copy_eq_none {th : Thread Payload} (h : th.holding = none) : th.copy = none := by
  cases th <;> first | rfl | cases h

/-- Attempts are left, or the row is FAILED. -/
def OutboxRecord.attemptsLeft (event : OutboxRecord Payload) (options : OutboxModuleOptions) :
    Prop :=
  event.attempts < options.maxAttempts ∨ event.status = .failed

/-- The copies in hand and the rows that are not being counted have the exact count. -/
structure Counted (options : OutboxModuleOptions)
    (tr : List (Move (State Payload) (Label Payload))) (s : State Payload) : Prop where
  rows : ∀ k row, s.world.rows.row k = some row → (∀ e, (s.threads e).unsaved ≠ some k) →
    row.attempts = tr.countP (rejects k)
  copies : ∀ e event, (s.threads e).copy = some event →
    event.attempts = tr.countP (rejects event.id)
  rowsLeft : ∀ k row, s.world.rows.row k = some row → row.attemptsLeft options
  copiesLeft : ∀ e event, (s.threads e).copy = some event → event.attemptsLeft options
  publishing : ∀ e event, (s.threads e).copy = some event → (s.threads e).unsaved = none →
    event.attempts < options.maxAttempts
  absent : ∀ k, s.world.rows.row k = none → tr.countP (rejects k) = 0
  bounded : ∀ k, tr.countP (rejects k) ≤ options.maxAttempts

theorem attemptFailed_left (event : OutboxRecord Payload) (error : String) :
    (event.attemptFailed options.maxAttempts error).attemptsLeft options := by
  simp only [OutboxRecord.attemptsLeft, OutboxRecord.attemptFailed]
  by_cases h : options.maxAttempts ≤ event.attempts + 1
  · exact Or.inr (if_pos h)
  · exact Or.inl (Nat.lt_of_not_le h)

theorem next_copy (rest : Rest Payload) : rest.next.copy = none := copy_eq_none (next_holding rest)

/-- The copy that wins a claim is the one the execution had. -/
theorem claim_copy {w w' : World Payload} {th : Thread Payload} {o : Outcome}
    {event : OutboxRecord Payload} {rest : Rest Payload}
    (h : advance options w th o = some (w', .publish event rest)) (hbefore : th.holding = none) :
    ∃ event₀, th = .claim event₀ rest ∧ o = .ok ∧
      event = { event₀ with status := .publishing } := by
  have hnext : ∀ rest' : Rest Payload, rest'.next ≠ .publish event rest := fun rest' heq => by
    have hnone := next_copy rest'
    rw [heq] at hnone
    cases hnone
  unfold advance at h
  grind [Thread.holding]

section Step
variable {tr : List (Move (State Payload) (Label Payload))} {s s' : State Payload}
  {l : Label Payload} {e : ℕ} {th' : Thread Payload}

variable (tr) in
theorem countP_rejects (h : ∀ k, rejects k ⟨s, l, s'⟩ = false) (k : ReadableId) :
    List.countP (rejects k) (tr ++ [⟨s, l, s'⟩]) = tr.countP (rejects k) := by
  rw [countP_snoc, h]
  rfl

/-- A step that rejects nothing, keeps the rows and takes no copy. -/
theorem quiet_counted (hs : Counted options tr s) (hrows : s'.world.rows = s.world.rows)
    (hthreads : ∀ e, s'.threads e = s.threads e ∨
      ((s'.threads e).copy = none ∧ (s.threads e).unsaved = none))
    (hsilent : ∀ k, rejects k ⟨s, l, s'⟩ = false) : Counted options (tr ++ [⟨s, l, s'⟩]) s' := by
  have hcount := countP_rejects tr hsilent
  have hcopies : ∀ {e event}, (s'.threads e).copy = some event → s'.threads e = s.threads e := by
    intro e event hcopy
    rcases hthreads e with hsame | ⟨hnone, -⟩
    · exact hsame
    · cases hnone.symm.trans hcopy
  refine ⟨fun k row hrow hsaved => ?_, fun e event hcopy => ?_,
    fun k row hrow => hs.rowsLeft k row (hrows ▸ hrow),
    fun e event hcopy => hs.copiesLeft e event (hcopies hcopy ▸ hcopy),
    fun e event hcopy hsaved =>
      hs.publishing e event (hcopies hcopy ▸ hcopy) (hcopies hcopy ▸ hsaved),
    fun k hrow => ?_, fun k => ?_⟩
  · rw [hcount]
    rw [hrows] at hrow
    refine hs.rows k row hrow fun e he => ?_
    rcases hthreads e with hsame | ⟨-, hnone⟩
    · exact hsaved e (hsame ▸ he)
    · cases hnone.symm.trans he
  · rw [hcount]
    exact hs.copies e event (hcopies hcopy ▸ hcopy)
  · rw [hcount]
    rw [hrows] at hrow
    exact hs.absent k hrow
  · rw [hcount]
    exact hs.bounded k

/-- One execution goes on with the row `id`, whose count is then `n`. -/
theorem thread_counted (hs : Counted options tr s) (id : ReadableId)
    (hcount : ∀ k, k ≠ id →
      List.countP (rejects k) (tr ++ [⟨s, l, s'⟩]) = tr.countP (rejects k))
    (hbound : List.countP (rejects id) (tr ++ [⟨s, l, s'⟩]) ≤ options.maxAttempts)
    (hrows : ∀ k, k ≠ id → s'.world.rows.row k = s.world.rows.row k)
    (hown : ∀ row, s'.world.rows.row id = some row → th'.unsaved ≠ some id →
      row.attempts = List.countP (rejects id) (tr ++ [⟨s, l, s'⟩]))
    (hpresent : ∃ row, s'.world.rows.row id = some row ∧ row.attemptsLeft options)
    (hcopy : ∀ event, th'.copy = some event → event.id = id ∧
      event.attempts = List.countP (rejects id) (tr ++ [⟨s, l, s'⟩]) ∧
      event.attemptsLeft options ∧ (th'.unsaved = none → event.attempts < options.maxAttempts))
    (hbefore : ∀ k, (s.threads e).unsaved = some k → k = id)
    (hothers : ∀ e', e' ≠ e → (s.threads e').holding ≠ some id)
    (hthreads : ∀ e', s'.threads e' = if e' = e then th' else s.threads e') :
    Counted options (tr ++ [⟨s, l, s'⟩]) s' := by
  obtain ⟨own, hpresent, hleft⟩ := hpresent
  refine ⟨fun k row hrow hsaved => ?_, fun e' event hcopy' => ?_, fun k row hrow => ?_,
    fun e' event hcopy' => ?_, fun e' event hcopy' hsaved => ?_, fun k hrow => ?_, fun k => ?_⟩
  · have hself := hsaved e
    rw [hthreads, if_pos rfl] at hself
    by_cases hk : k = id
    · subst hk
      exact hown row hrow hself
    · rw [hcount k hk]
      rw [hrows k hk] at hrow
      refine hs.rows k row hrow fun e' he' => ?_
      by_cases he : e' = e
      · subst he
        exact hk (hbefore k he')
      · have := hsaved e'
        rw [hthreads, if_neg he] at this
        exact this he'
  · rw [hthreads] at hcopy'
    split at hcopy'
    · obtain ⟨hid, hattempts, -⟩ := hcopy event hcopy'
      rw [hid]
      exact hattempts
    · next he =>
      have hne : event.id ≠ id := fun hid => hothers e' he (hid ▸ copy_holding hcopy')
      rw [hcount _ hne]
      exact hs.copies e' event hcopy'
  · by_cases hk : k = id
    · subst hk
      cases hrow.symm.trans hpresent
      exact hleft
    · exact hs.rowsLeft k row (hrows k hk ▸ hrow)
  · rw [hthreads] at hcopy'
    split at hcopy'
    · exact (hcopy event hcopy').2.2.1
    · exact hs.copiesLeft e' event hcopy'
  · rw [hthreads] at hcopy' hsaved
    split at hcopy'
    · next he =>
      rw [if_pos he] at hsaved
      exact (hcopy event hcopy').2.2.2 hsaved
    · next he =>
      rw [if_neg he] at hsaved
      exact hs.publishing e' event hcopy' hsaved
  · have hne : k ≠ id := fun hk => by cases hrow.symm.trans (hk ▸ hpresent)
    rw [hcount k hne]
    rw [hrows k hne] at hrow
    exact hs.absent k hrow
  · by_cases hk : k = id
    · rw [hk]
      exact hbound
    · rw [hcount k hk]
      exact hs.bounded k

variable {o : Outcome}

theorem rejects_run (h : (s.threads e).calling = none ∨ o = .ok) (k : ReadableId) :
    rejects k ⟨s, .run e o, s'⟩ = false := by
  cases o with
  | ok => rfl
  | fails error written =>
    rcases h with hnone | hok
    · exact decide_eq_false (by rw [hnone]; simp)
    · cases hok

variable (tr s') in
theorem countP_run (h : (s.threads e).calling = none ∨ o = .ok) (k : ReadableId) :
    List.countP (rejects k) (tr ++ [⟨s, .run e o, s'⟩]) = tr.countP (rejects k) :=
  countP_rejects tr (rejects_run h) k

theorem held_alone (hexcl : Exclusive options tr s) {id : ReadableId}
    (hheld : (s.threads e).holding = some id) (e' : ℕ) (hne : e' ≠ e) :
    (s.threads e').holding ≠ some id :=
  fun hheld' => hne (hexcl.claims.unique e' e _ hheld' hheld)

theorem held_present (hexcl : Exclusive options tr s) (hs : Counted options tr s)
    (hrows : s'.world.rows = s.world.rows) {id : ReadableId}
    (hheld : (s.threads e).holding = some id) :
    ∃ row, s'.world.rows.row id = some row ∧ row.attemptsLeft options := by
  obtain ⟨row, hrow, -⟩ := statusOf_eq_some.mp (hexcl.held e id hheld)
  exact ⟨row, hrows ▸ hrow, hs.rowsLeft id row hrow⟩

/-- A claim is won. Nobody counts the row, so its attempts, and hence the copy's, are exact. -/
theorem claim_counted {event : OutboxRecord Payload} {rest : Rest Payload}
    (hexcl : Exclusive options tr s) (hs : Counted options tr s)
    (hth : s.threads e = .claim event rest)
    (hclaims : claimsUpToDate s (.run e .ok) = true)
    (hstatus : s.world.statusOf event.id = some .pending)
    (hrows : s'.world.rows = (s.world.claimRow event.id).rows)
    (hthreads : ∀ e', s'.threads e' =
      if e' = e then .publish { event with status := .publishing } rest else s.threads e') :
    Counted options (tr ++ [⟨s, .run e .ok, s'⟩]) s' := by
  obtain ⟨row, hrow, hpending⟩ := statusOf_eq_some.mp hstatus
  have hfree : ∀ e', (s.threads e').holding ≠ some event.id := by
    intro e' hheld
    cases (hexcl.held e' _ hheld).symm.trans hstatus
  have hexact := hs.rows _ row hrow fun e' he' => hfree e' (unsaved_holding he')
  simp only [claimsUpToDate, hth, hrow, Option.all_some, hpending, Bool.or_eq_true,
    decide_eq_true_eq, ne_eq, not_true_eq_false, decide_false, Bool.false_eq_true,
    false_or] at hclaims
  have hcount := countP_run tr s' (s := s) (e := e) (Or.inr rfl)
  refine thread_counted hs event.id (fun k _ => hcount k) ((hcount _).trans_le (hs.bounded _))
    (fun k hk => ?_) (fun row' hrow' _ => ?_) ?_ (fun event₁ hevent => ?_) (fun k hk => ?_)
    (fun e' _ => hfree e') hthreads
  · rw [hrows, claimRow_row hstatus, if_neg hk]
  · rw [hrows, claimRow_row hstatus, if_pos rfl, hrow] at hrow'
    cases hrow'
    rw [hcount]
    exact hexact
  · rw [hrows, claimRow_row hstatus, if_pos rfl, hrow]
    exact ⟨_, rfl, Or.inl (hexcl.pending _ row hrow hpending)⟩
  · cases hevent
    have hleft := hclaims ▸ hexcl.pending _ row hrow hpending
    rw [hcount]
    exact ⟨rfl, hclaims.symm.trans hexact, Or.inl hleft, fun _ => hleft⟩
  · rw [hth] at hk
    cases hk

/-- A publish is confirmed. -/
theorem confirm_counted {event event' : OutboxRecord Payload} {rest : Rest Payload}
    (hexcl : Exclusive options tr s) (hs : Counted options tr s)
    (hth : s.threads e = .publish event rest) (hid : event'.id = event.id)
    (hattempts : event'.attempts = event.attempts) (hrows : s'.world.rows = s.world.rows)
    (hthreads : ∀ e', s'.threads e' =
      if e' = e then .savePublished event' rest else s.threads e') :
    Counted options (tr ++ [⟨s, .run e .ok, s'⟩]) s' := by
  have hcopy := hs.copies e event (by rw [hth]; rfl)
  have hleft := hs.publishing e event (by rw [hth]; rfl) (by rw [hth]; rfl)
  have hheld : (s.threads e).holding = some event.id := by rw [hth]; rfl
  have hcount := countP_run tr s' (s := s) (e := e) (Or.inr rfl)
  refine thread_counted hs event.id (fun k _ => hcount k) ((hcount _).trans_le (hs.bounded _))
    (fun k _ => by rw [hrows]) (fun row hrow _ => ?_) (held_present hexcl hs hrows hheld)
    (fun event₁ hevent => ?_) (fun k hk => ?_) (held_alone hexcl hheld) hthreads
  · rw [hcount]
    rw [hrows] at hrow
    refine hs.rows _ row hrow fun e' he' => ?_
    by_cases he : e' = e
    · rw [he, hth] at he'
      cases he'
    · exact held_alone hexcl hheld e' he (unsaved_holding he')
  · cases hevent
    rw [hcount, hattempts]
    exact ⟨hid, hcopy, Or.inl (hattempts ▸ hleft), fun _ => hleft⟩
  · rw [hth] at hk
    cases hk

/-- A publish is rejected, and counted on the copy. -/
theorem reject_counted {event : OutboxRecord Payload} {rest : Rest Payload} {error : String}
    (hexcl : Exclusive options tr s) (hs : Counted options tr s) (hfails : o ≠ .ok)
    (hth : s.threads e = .publish event rest) (hrows : s'.world.rows = s.world.rows)
    (hthreads : ∀ e', s'.threads e' =
      if e' = e then .saveFailed (event.attemptFailed options.maxAttempts error) rest
      else s.threads e') :
    Counted options (tr ++ [⟨s, .run e o, s'⟩]) s' := by
  have hcopy := hs.copies e event (by rw [hth]; rfl)
  have hleft := hs.publishing e event (by rw [hth]; rfl) (by rw [hth]; rfl)
  have hheld : (s.threads e).holding = some event.id := by rw [hth]; rfl
  have hrejects : ∀ k, rejects k ⟨s, .run e o, s'⟩ = decide (event.id = k) := by
    intro k
    cases o with
    | ok => exact absurd rfl hfails
    | fails error written => simp [rejects, hth, Thread.calling]
  have hcount : ∀ k, List.countP (rejects k) (tr ++ [⟨s, .run e o, s'⟩]) =
      tr.countP (rejects k) + if event.id = k then 1 else 0 := by
    intro k
    rw [countP_snoc, hrejects]
    split <;> simp_all
  have hown := hcount event.id
  rw [if_pos rfl] at hown
  refine thread_counted hs event.id (fun k hk => ?_) ?_ (fun k _ => by rw [hrows])
    (fun row _ hsaved => absurd rfl hsaved) (held_present hexcl hs hrows hheld)
    (fun event₁ hevent => ?_) (fun k hk => ?_) (held_alone hexcl hheld) hthreads
  · rw [hcount, if_neg (Ne.symm hk), Nat.add_zero]
  · rw [hown]
    omega
  · cases hevent
    refine ⟨rfl, ?_, attemptFailed_left event error, fun hsaved => by cases hsaved⟩
    rw [hown, ← hcopy]
    rfl
  · rw [hth] at hk
    cases hk

/-- The copy is saved. -/
theorem save_counted {event : OutboxRecord Payload} {rest : Rest Payload}
    (hexcl : Exclusive options tr s) (hs : Counted options tr s)
    (hth : s.threads e = .savePublished event rest ∨ s.threads e = .saveFailed event rest)
    (hrows : s'.world.rows = (s.world.save event).rows) (hafter : th'.holding = none)
    (hthreads : ∀ e', s'.threads e' = if e' = e then th' else s.threads e') :
    Counted options (tr ++ [⟨s, .run e o, s'⟩]) s' := by
  have hheld := holding_saved hth
  have hcopied : (s.threads e).copy = some event := by
    rcases hth with h | h <;> rw [h] <;> rfl
  have hcalling : (s.threads e).calling = none := by
    rcases hth with h | h <;> rw [h] <;> rfl
  have hcopy := hs.copies e event hcopied
  have hcount := countP_run tr s' (o := o) (Or.inl hcalling)
  refine thread_counted hs event.id (fun k _ => hcount k) ((hcount _).trans_le (hs.bounded _))
    (fun k hk => ?_) (fun row hrow _ => ?_) ?_ (fun event₁ hevent => ?_) (fun k hk => ?_)
    (held_alone hexcl hheld) hthreads
  · rw [hrows, save_row, if_neg hk]
  · rw [hrows, save_row, if_pos rfl] at hrow
    cases hrow
    rw [hcount]
    exact hcopy
  · rw [hrows, save_row, if_pos rfl]
    exact ⟨_, rfl, hs.copiesLeft e event hcopied⟩
  · cases (copy_eq_none hafter).symm.trans hevent
  · cases hheld.symm.trans (unsaved_holding hk)
    rfl

/-- A run of an execution, where writes go through and claims are up to date. -/
theorem run_counted (hexcl : Exclusive options tr s) (hs : Counted options tr s)
    (hadv : advance options s.world (s.threads e) o = some (s'.world, th'))
    (hwrites : o = .ok ∨ (s.threads e).writes = false)
    (hclaims : claimsUpToDate s (.run e o) = true)
    (hthreads : ∀ e', s'.threads e' = if e' = e then th' else s.threads e') :
    Counted options (tr ++ [⟨s, .run e o, s'⟩]) s' := by
  cases advance_cases hadv hwrites with
  | idle rows before after =>
    refine quiet_counted hs rows (fun e' => ?_) (rejects_run (Or.inl ?_))
    · rw [hthreads]
      split
      · next he =>
        subst he
        refine Or.inr ⟨copy_eq_none after, Option.eq_none_iff_forall_ne_some.mpr fun k hk => ?_⟩
        cases before.symm.trans (unsaved_holding hk)
      · exact Or.inl rfl
    · refine Option.eq_none_iff_forall_ne_some.mpr fun k hk => ?_
      cases before.symm.trans (unconfirmed_holding (calling_unconfirmed hk))
  | claims event rest before pending rows after =>
    subst after
    obtain ⟨event₀, hth, rfl, rfl⟩ := claim_copy hadv before
    exact claim_counted hexcl hs hth hclaims pending rows hthreads
  | confirmed event event' rest succeeds source rows same after =>
    subst succeeds
    subst after
    rw [source] at hadv
    obtain ⟨-, hsaved⟩ := Prod.mk.inj (Option.some.inj hadv)
    obtain ⟨rfl, -⟩ := Thread.savePublished.inj hsaved
    exact confirm_counted hexcl hs source same rfl rows hthreads
  | rejected event rest error fails source rows after =>
    subst after
    exact reject_counted hexcl hs fails source rows hthreads
  | saves event rest source rows after => exact save_counted hexcl hs source rows after hthreads

/-- A new row has no attempts. -/
theorem commit_counted (hmax : 0 < options.maxAttempts) (hs : Counted options tr s)
    {id : ReadableId} {payload : Payload} {now : ℕ} (hnew : s.world.rows.row id = none)
    (hworld : s'.world = s.world.save (OutboxRecord.create id payload now))
    (hthreads : s'.threads = s.threads) (hsilent : ∀ k, rejects k ⟨s, l, s'⟩ = false) :
    Counted options (tr ++ [⟨s, l, s'⟩]) s' := by
  have hcount := countP_rejects tr hsilent
  refine ⟨fun k row hrow hsaved => ?_, fun e event hcopy => ?_, fun k row hrow => ?_,
    fun e event hcopy => ?_, fun e event hcopy hsaved => ?_, fun k hrow => ?_,
    fun k => (hcount k).trans_le (hs.bounded k)⟩
  · rw [hcount]
    rw [hworld, save_row] at hrow
    rw [hthreads] at hsaved
    split at hrow
    · next hk =>
      cases hrow
      subst hk
      exact (hs.absent _ hnew).symm
    · exact hs.rows k row hrow hsaved
  · rw [hcount]
    rw [hthreads] at hcopy
    exact hs.copies e event hcopy
  · rw [hworld, save_row] at hrow
    split at hrow
    · cases hrow
      exact Or.inl hmax
    · exact hs.rowsLeft k row hrow
  · rw [hthreads] at hcopy
    exact hs.copiesLeft e event hcopy
  · rw [hthreads] at hcopy hsaved
    exact hs.publishing e event hcopy hsaved
  · rw [hcount]
    rw [hworld, save_row] at hrow
    split at hrow
    · cases hrow
    · exact hs.absent k hrow

theorem step_counted (hmax : 0 < options.maxAttempts) (hexcl : Exclusive options tr s)
    (hs : Counted options tr s)
    (hwrites : writesSucceed s l = true) (hclaims : claimsUpToDate s l = true)
    (hsaves : savesFailures s l = true) (h : step options s l = some s') :
    Counted options (tr ++ [⟨s, l, s'⟩]) s' := by
  have hspawn : ∀ {th : Thread Payload}, th.holding = none → ∀ e,
      (s.spawn th).threads e = s.threads e ∨
        ((s.spawn th).threads e).copy = none ∧ (s.threads e).unsaved = none := by
    intro th hth e
    simp only [State.spawn, Function.update_apply]
    split
    · next he =>
      rw [he, hexcl.claims.beyond _ (Nat.le_refl _)]
      exact Or.inr ⟨copy_eq_none hth, rfl⟩
    · exact Or.inl rfl
  cases l with
  | tick ms =>
    cases h
    exact quiet_counted hs rfl (fun _ => Or.inl rfl) fun _ => rfl
  | commit id payload =>
    simp only [step] at h
    split at h
    · next hnew =>
      cases h
      exact commit_counted hmax hs hnew rfl rfl fun _ => rfl
    · cases h
  | publishMany ids =>
    cases h
    exact quiet_counted hs rfl (hspawn (next_holding (.ids ids))) fun _ => rfl
  | publishPendingBatch =>
    cases h
    exact quiet_counted hs rfl (@hspawn .find rfl) fun _ => rfl
  | run e o =>
    obtain ⟨th', hadv, _, hthreads⟩ := step_run h
    refine run_counted hexcl hs hadv ?_ hclaims hthreads
    cases o with
    | ok => exact Or.inl rfl
    | fails error written => exact Or.inr (Bool.not_eq_true' _ ▸ hwrites)
  | crash e =>
    cases h
    refine quiet_counted hs rfl (fun e' => ?_) fun _ => rfl
    simp only [Function.update_apply]
    split
    · next he =>
      subst he
      refine Or.inr ⟨rfl, ?_⟩
      cases hth : s.threads e' with
      | saveFailed event rest =>
        rw [savesFailures, hth] at hsaves
        cases hsaves
      | _ => rfl
    · exact Or.inl rfl

end Step

theorem initial_counted : Counted options [] (initial : State Payload) where
  rows := fun _ _ h => by cases h
  copies := fun _ _ h => by cases h
  rowsLeft := fun _ _ h => by cases h
  copiesLeft := fun _ _ h => by cases h
  publishing := fun _ _ h => by cases h
  absent := fun _ _ => rfl
  bounded := fun _ => Nat.zero_le _

/-- No execution holds a row. -/
def State.idle (s : State Payload) : Bool :=
  (List.range s.nextThread).all fun e => (s.threads e).holding.isNone

theorem idle_unheld {tr : List (Move (State Payload) (Label Payload))} {s : State Payload}
    (h : Reaches options tr s) (hidle : s.idle = true) (k : ReadableId) (e : ℕ) :
    (s.threads e).holding ≠ some k := by
  intro hheld
  by_cases he : e < s.nextThread
  · have := List.all_eq_true.mp hidle e (List.mem_range.mpr he)
    rw [hheld] at this
    cases this
  · rw [(reaches_claims h).beyond e (Nat.le_of_not_lt he)] at hheld
    cases hheld

/-! ## The result -/

/-- Where repository writes succeed, rejected publishes are saved and claims are won with copies
that are up to date: the attempts of a row that nobody holds are the number of its rejected
publishes, these are never more than the maximum, and a row that has used them up is FAILED. -/
theorem attempts_counted (hmax : 0 < options.maxAttempts)
    {tr : List (Move (State Payload) (Label Payload))} {s : State Payload}
    (h : Reaches options tr s) (hwrites : Guarded (fun s l => writesSucceed s l = true) tr)
    (hsaves : Guarded (fun s l => savesFailures s l = true) tr)
    (hclaims : Guarded (fun s l => claimsUpToDate s l = true) tr) :
    ∀ id row, s.world.rows.row id = some row →
      tr.countP (rejects id) ≤ options.maxAttempts ∧
      ((∀ e, (s.threads e).holding ≠ some id) → row.attempts = tr.countP (rejects id) ∧
        (row.attempts = options.maxAttempts → row.status = .failed)) := by
  have hG : Guarded (fun s l => writesSucceed s l = true ∧ savesFailures s l = true ∧
      claimsUpToDate s l = true) tr :=
    fun x hx => ⟨hwrites x hx, hsaves x hx, hclaims x hx⟩
  obtain ⟨hexcl, hcounted⟩ := Run.guarded_history
    (fun tr s => Exclusive options tr s ∧ Counted options tr s)
    ⟨initial_exclusive, initial_counted⟩
    (fun tr t l u _ ⟨hw, hsaved, hc⟩ ⟨hexcl, hs⟩ hstep =>
      ⟨step_exclusive hmax hexcl hw hstep, step_counted hmax hexcl hs hw hc hsaved hstep⟩) h hG
  intro id row hrow
  refine ⟨hcounted.bounded id, fun hfree => ⟨?_, fun hall => ?_⟩⟩
  · exact hcounted.rows id row hrow fun e he => hfree e (unsaved_holding he)
  · exact (hcounted.rowsLeft id row hrow).resolve_left (hall ▸ Nat.lt_irrefl _)

/-- Two rejected publishes by publishers that read the row one after the other. -/
theorem attempts_counted_twice : ∃ tr s row, Reaches ⟨10, 5⟩ tr s ∧
    (s.world : World Unit).rows.row 0 = some row ∧ row.attempts = 2 ∧
    tr.countP (rejects 0) = 2 := by
  obtain ⟨tr, s, h, hp⟩ := exists_run_of_trace (step ⟨10, 5⟩) (initial : State Unit)
    [.commit 0 (), .publishMany [0], .run 0 .ok, .run 0 .ok, .run 0 (.fails "timeout" false),
      .run 0 .ok, .publishPendingBatch, .run 1 .ok, .run 1 .ok, .run 1 (.fails "timeout" false),
      .run 1 .ok]
    (fun r => (r.1.all fun x => writesSucceed x.source x.label) &&
      (r.1.all fun x => savesFailures x.source x.label) &&
      (r.1.all fun x => claimsUpToDate x.source x.label) &&
      r.2.idle && (r.2.world.rows.row 0).any (·.attempts = 2)) (by decide +kernel)
  simp only [Bool.and_eq_true, decide_eq_true_eq, Option.any_eq_true] at hp
  obtain ⟨⟨⟨⟨hwrites, hsaves⟩, hclaims⟩, hidle⟩, row, hrow, htwo⟩ := hp
  obtain ⟨-, hcounted⟩ := attempts_counted (by decide) h (guarded_of_all hwrites)
    (guarded_of_all hsaves) (guarded_of_all hclaims) 0 row hrow
  exact ⟨tr, s, row, h, hrow, htwo, htwo ▸ (hcounted (idle_unheld h hidle 0)).1.symm⟩

/-- A batch reads the row, another publisher fails once, and the batch fails with the copy it has:
two rejected publishes, one attempt. -/
theorem attempts_lost : ¬ ∀ (options : OutboxModuleOptions)
    (tr : List (Move (State Unit) (Label Unit))) (s : State Unit), 0 < options.maxAttempts →
    Reaches options tr s → Guarded (fun s l => writesSucceed s l = true) tr →
    Guarded (fun s l => savesFailures s l = true) tr → ∀ id row,
    s.world.rows.row id = some row → (∀ e, (s.threads e).holding ≠ some id) →
    row.attempts = tr.countP (rejects id) := by
  intro hall
  obtain ⟨tr, s, h, hp⟩ := exists_run_of_trace (step ⟨10, 5⟩) (initial : State Unit)
    [.commit 0 (), .publishMany [0], .publishPendingBatch, .run 1 .ok, .run 0 .ok, .run 0 .ok,
      .run 0 (.fails "timeout" false), .run 0 .ok, .run 1 .ok, .run 1 (.fails "timeout" false),
      .run 1 .ok]
    (fun r => (r.1.all fun x => writesSucceed x.source x.label) &&
      (r.1.all fun x => savesFailures x.source x.label) &&
      r.2.idle && decide (r.1.countP (rejects 0) = 2) &&
      (r.2.world.rows.row 0).any (·.attempts = 1)) (by decide +kernel)
  simp only [Bool.and_eq_true, decide_eq_true_eq, Option.any_eq_true] at hp
  obtain ⟨⟨⟨⟨hwrites, hsaves⟩, hidle⟩, htwo⟩, row, hrow, hone⟩ := hp
  have hcounted := hall ⟨10, 5⟩ tr s (by decide) h (guarded_of_all hwrites)
    (guarded_of_all hsaves) 0 row hrow (idle_unheld h hidle 0)
  rw [htwo, hone] at hcounted
  cases hcounted

end Bumpa.Outbox
