import Bumpa.Outbox.CountedAttempts
import Bumpa.Outbox.PublishedRows
import Mathlib.Algebra.BigOperators.Group.Finset.Piecewise
import Mathlib.Algebra.Order.BigOperators.Group.Finset

/-! # Bounded waiting

A batch takes the oldest PENDING rows, and a row whose publish is rejected goes back to PENDING as
old as it was: events that the broker keeps rejecting stand at the head of every batch until their
attempts run out, and everything younger waits behind them.

`waits_bounded`: how long it waits, in batches that read while the row is PENDING and come to their
end. Each of them takes a whole batch of attempts from the rows that are no younger (`left`), or
takes the row itself. Any number of publishers may run beside them.
-/
namespace Bumpa.Outbox
open Bumpa.Events Bumpa.Relational Bumpa.Transition
set_option autoImplicit false

variable {Payload : Type} {options : OutboxModuleOptions}

/-- How often a row may still be claimed. -/
def OutboxRecord.left (options : OutboxModuleOptions) (row : OutboxRecord Payload) : ℕ :=
  match row.status with
  | .pending => options.maxAttempts - row.attempts
  | .publishing => options.maxAttempts - row.attempts - 1
  | .published | .failed => 0

/-- The same for a row that may be missing, or younger than the limit. -/
def dueOf (options : OutboxModuleOptions) (limit : ℕ) : Option (OutboxRecord Payload) → ℕ
  | some row => if row.createdAt ≤ limit then row.left options else 0
  | none => 0

def World.due (w : World Payload) (options : OutboxModuleOptions) (limit : ℕ) (id : ReadableId) :
    ℕ :=
  dueOf options limit (w.rows.row id)

/-- Claims of a row's own weigh a batch each, for that batch may take no other row. -/
def weight (options : OutboxModuleOptions) (own id : ReadableId) : ℕ :=
  if id = own then options.batchSize else 1

/-- The claims that the rows no younger than this one have left. -/
def State.waiting (s : State Payload) (options : OutboxModuleOptions)
    (row : OutboxRecord Payload) : ℕ :=
  ∑ id ∈ s.world.rows.keys.toFinset,
    weight options row.id id * s.world.due options row.createdAt id

inductive RowStep (now : ℕ) :
    Option (OutboxRecord Payload) → Option (OutboxRecord Payload) → Prop
  | same (row : Option (OutboxRecord Payload)) : RowStep now row row
  | committed {row : OutboxRecord Payload} (createdAt : row.createdAt = now) :
      RowStep now none (some row)
  | claimed {row : OutboxRecord Payload} (pending : row.status = .pending) :
      RowStep now (some row) (some { row with status := .publishing })
  | saved {row row' : OutboxRecord Payload} (publishing : row.status = .publishing)
      (createdAt : row'.createdAt = row.createdAt)
      (attempted : row'.status = .published ∨
        row'.status ≠ .publishing ∧ row'.attempts = row.attempts + 1) :
      RowStep now (some row) (some row')

section RowStep
variable {now limit : ℕ} {row row' : Option (OutboxRecord Payload)}

/-- A row is made later than what is waiting. -/
theorem RowStep.due_le (h : RowStep now row row') (hlimit : limit < now) :
    dueOf options limit row' ≤ dueOf options limit row := by
  cases h with
  | same => exact Nat.le_refl _
  | committed createdAt =>
    rw [dueOf, if_neg (Nat.not_le.mpr (createdAt ▸ hlimit))]
    exact Nat.zero_le _
  | claimed pending =>
    simp only [dueOf]
    split
    · simp only [OutboxRecord.left, pending]
      omega
    · exact Nat.le_refl _
  | @saved row row' publishing createdAt attempted =>
    simp only [dueOf, createdAt]
    split
    · rcases attempted with hpublished | ⟨hdecided, hattempts⟩
      · simp only [OutboxRecord.left, hpublished]
        exact Nat.zero_le _
      · simp only [OutboxRecord.left, publishing]
        cases hstatus : row'.status with
        | publishing => exact absurd hstatus hdecided
        | pending =>
          simp only
          omega
        | _ => exact Nat.zero_le _
    · exact Nat.le_refl _

theorem RowStep.createdAt {r : OutboxRecord Payload} (h : RowStep now (some r) row') :
    ∃ r', row' = some r' ∧ r'.createdAt = r.createdAt := by
  cases h with
  | same => exact ⟨r, rfl, rfl⟩
  | claimed _ => exact ⟨_, rfl, rfl⟩
  | saved _ createdAt _ => exact ⟨_, rfl, createdAt⟩

end RowStep

/-! ## Copies -/

/-- The rejected publish that is counted on the copy alone. -/
def Thread.uncounted : Thread Payload → ℕ
  | .saveFailed _ _ => 1
  | _ => 0

/-- A row of the table is as old as the copy. -/
def World.dated (w : World Payload) (copy : OutboxRecord Payload) : Prop :=
  (w.rows.row copy.id).map (·.createdAt) = some copy.createdAt

/-- What every step keeps that claims with copies that are up to date. -/
structure Sound (options : OutboxModuleOptions) (s : State Payload) : Prop where
  exclusive : ∃ tr, Exclusive options tr s
  keys : s.world.rows.keys.Nodup
  dated : ∀ e, ∀ copy ∈ (s.threads e).records, s.world.dated copy
  counted : ∀ e copy, (s.threads e).copy = some copy →
    (s.world.rows.row copy.id).map (·.attempts + (s.threads e).uncounted) = some copy.attempts

/-- Repository writes succeed, and claims are won with copies that are up to date. -/
def sound (s : State Payload) (l : Label Payload) : Prop :=
  writesSucceed s l = true ∧ claimsUpToDate s l = true

theorem copy_record {th : Thread Payload} {copy : OutboxRecord Payload}
    (h : th.copy = some copy) : copy ∈ th.records := by
  cases th with
  | publish | savePublished | saveFailed =>
    cases h
    exact .head _
  | _ => cases h

section Advance
variable {w w' : World Payload} {th th' : Thread Payload} {o : Outcome}

/-- An execution goes on with copies it has, or has just read. -/
theorem advance_dated (h : advance options w th o = some (w', th'))
    (hth : ∀ copy ∈ th.records, w.dated copy) : ∀ copy ∈ th'.records, w.dated copy := by
  intro copy' hcopy'
  rcases advance_records h copy' hcopy' with hrow | ⟨copy, hcopy, hsame⟩
  · rw [World.dated, hrow]
    rfl
  · rw [World.dated, hsame.id, hsame.createdAt]
    exact hth copy hcopy

end Advance

section Step
variable {s s' : State Payload} {l : Label Payload}

/-- Rows change as the copies in hand allow. -/
theorem step_rowStep (hs : Sound options s) (hl : writesSucceed s l = true)
    (h : step options s l = some s') (id : ReadableId) :
    RowStep s.world.now (s.world.rows.row id) (s'.world.rows.row id) := by
  obtain ⟨tr, hexcl⟩ := hs.exclusive
  cases l with
  | commit id' payload =>
    simp only [step] at h
    split at h
    · next hnew =>
      cases h
      rw [save_row]
      split
      · next heq =>
        have hrow : s.world.rows.row id = none := by
          rw [heq]
          exact hnew
        rw [hrow]
        exact .committed rfl
      · exact .same _
    · cases h
  | run e o =>
    obtain ⟨th', hadv, -, -⟩ := step_run h
    have hokay : o = .ok ∨ (s.threads e).writes = false := by
      cases o with
      | ok => exact Or.inl rfl
      | fails error written => exact Or.inr (Bool.not_eq_true' _ ▸ hl)
    cases advance_cases hadv hokay with
    | idle rows _ _ =>
      rw [rows]
      exact .same _
    | confirmed _ _ _ _ _ rows _ _ =>
      rw [rows]
      exact .same _
    | rejected _ _ _ _ _ rows _ =>
      rw [rows]
      exact .same _
    | claims event rest before pending rows after =>
      rw [rows, claimRow_row pending]
      split
      · next heq =>
        obtain ⟨row, hrow, hpending⟩ := statusOf_eq_some.mp pending
        rw [heq, hrow]
        exact .claimed hpending
      · exact .same _
    | saves event rest source rows after =>
      rw [rows, save_row]
      split
      · next heq =>
        have hcopy : (s.threads e).copy = some event := by
          rcases source with hth | hth <;> rw [hth] <;> rfl
        have hheld := hexcl.held e event.id (copy_holding hcopy)
        obtain ⟨row, hrow, hpublishing⟩ := statusOf_eq_some.mp hheld
        have hdated := hs.dated e event (copy_record hcopy)
        have hcounted := hs.counted e event hcopy
        have hdecided := hexcl.claims.decided e
        rw [World.dated, hrow] at hdated
        rw [hrow] at hcounted
        rw [heq, hrow]
        refine .saved hpublishing (Option.some.inj hdated).symm ?_
        rcases source with hth | hth
        · rw [hth] at hdecided
          exact Or.inl hdecided
        · rw [hth] at hcounted hdecided
          refine Or.inr ⟨?_, (Option.some.inj hcounted).symm⟩
          rcases hdecided with hpending | ⟨hfailed, -⟩
          · exact ne_of_eq_of_ne hpending (by simp)
          · exact ne_of_eq_of_ne hfailed (by simp)
      · exact .same _
  | _ =>
    cases h
    exact .same _

/-- A row that an execution holds is changed by nobody else. -/
theorem run_row_of_held {tr : List (Move (State Payload) (Label Payload))} {e e' : ℕ} {o : Outcome}
    {th' : Thread Payload} {k : ReadableId} (hexcl : Exclusive options tr s)
    (hokay : o = .ok ∨ (s.threads e).writes = false)
    (hadv : advance options s.world (s.threads e) o = some (s'.world, th')) (hne : e' ≠ e)
    (hheld : (s.threads e').holding = some k) :
    s'.world.rows.row k = s.world.rows.row k := by
  cases advance_cases hadv hokay with
  | idle rows _ _ => rw [rows]
  | confirmed _ _ _ _ _ rows _ _ => rw [rows]
  | rejected _ _ _ _ _ rows _ => rw [rows]
  | claims event rest before pending rows after =>
    rw [rows, claimRow_row pending, if_neg]
    rintro rfl
    cases (hexcl.held e' _ hheld).symm.trans pending
  | saves event rest source rows after =>
    rw [rows, save_row, if_neg]
    rintro rfl
    exact hne (hexcl.claims.unique e' e _ hheld (holding_saved source))

/-- What an execution holds after its step, it has counted. -/
theorem run_counted_copy {e : ℕ} {o : Outcome} {th' : Thread Payload} (hs : Sound options s)
    (hclaims : claimsUpToDate s (.run e o) = true)
    (hokay : o = .ok ∨ (s.threads e).writes = false)
    (hadv : advance options s.world (s.threads e) o = some (s'.world, th'))
    {copy : OutboxRecord Payload} (hcopy : th'.copy = some copy) :
    (s'.world.rows.row copy.id).map (·.attempts + th'.uncounted) = some copy.attempts := by
  have hcounted := hs.counted e
  cases advance_cases hadv hokay with
  | idle rows _ after => cases (copy_eq_none after).symm.trans hcopy
  | saves event rest source rows after => cases (copy_eq_none after).symm.trans hcopy
  | claims event rest before pending rows after =>
    subst after
    cases hcopy
    obtain ⟨event₀, hth, rfl, rfl⟩ := claim_copy hadv before
    obtain ⟨row, hrow, hpending⟩ := statusOf_eq_some.mp pending
    have hrow₀ : s.world.rows.row event₀.id = some row := hrow
    simp only [claimsUpToDate, hth, hrow₀, Option.all_some] at hclaims
    rw [rows, claimRow_row pending, if_pos rfl, hrow]
    simpa [hpending, Thread.uncounted] using hclaims
  | confirmed event event' rest succeeds source rows same after =>
    subst succeeds
    subst after
    rw [source] at hadv
    obtain ⟨-, hsaved⟩ := Prod.mk.inj (Option.some.inj hadv)
    obtain ⟨rfl, -⟩ := Thread.savePublished.inj hsaved
    cases hcopy
    rw [rows]
    have hheld := hcounted event (by rw [source]; rfl)
    rw [source] at hheld
    exact hheld
  | rejected event rest error fails source rows after =>
    subst after
    cases hcopy
    rw [rows]
    have hheld := hcounted event (by rw [source]; rfl)
    rw [source] at hheld
    obtain ⟨row, hrow, heq⟩ := Option.map_eq_some_iff.mp hheld
    simp only [OutboxRecord.attemptFailed, hrow, Option.map_some, Option.some.injEq]
    simp only [Thread.uncounted] at heq ⊢
    omega

theorem save_keys {w : World Payload} (h : w.rows.keys.Nodup) (event : OutboxRecord Payload) :
    (w.save event).rows.keys.Nodup :=
  Table.put_keys_nodup h _

theorem claimRow_keys {w : World Payload} (h : w.rows.keys.Nodup) (k : ReadableId) :
    (w.claimRow k).rows.keys.Nodup := by
  rw [World.claimRow, claimForPublishing, Table.updateWhere]
  split
  · exact h
  · split
    · exact Table.put_keys_nodup h _
    · exact h

theorem advance_keys {w w' : World Payload} {th th' : Thread Payload} {o : Outcome}
    (h : advance options w th o = some (w', th')) (hkeys : w.rows.keys.Nodup) :
    w'.rows.keys.Nodup := by
  rcases advance_effect h with ⟨hrows, _⟩ | ⟨k, _, _, hrows, _⟩ | ⟨copy, _, _, hrows, _⟩ |
    ⟨k, _, hrows, _⟩
  · rw [hrows]
    exact hkeys
  · rw [hrows]
    exact claimRow_keys hkeys k
  · rw [hrows]
    exact save_keys hkeys copy
  · rw [hrows]
    exact hkeys

theorem World.dated_of_rowStep {w w' : World Payload} {now : ℕ} {copy : OutboxRecord Payload}
    (hrow : RowStep now (w.rows.row copy.id) (w'.rows.row copy.id)) (h : w.dated copy) :
    w'.dated copy := by
  obtain ⟨row, hfound, hage⟩ := Option.map_eq_some_iff.mp h
  rw [hfound] at hrow
  obtain ⟨row', hfound', hage'⟩ := hrow.createdAt
  rw [World.dated, hfound', ← hage, ← hage']
  rfl

theorem Sound.spawn {th : Thread Payload} (hs : Sound options s)
    (hexcl : ∃ tr, Exclusive options tr (s.spawn th)) (hrecords : th.records = [])
    (hcopy : th.copy = none) : Sound options (s.spawn th) := by
  refine ⟨hexcl, hs.keys, fun e copy hmem => ?_, fun e copy hheld => ?_⟩
  · simp only [State.spawn, Function.update_apply] at hmem
    split at hmem
    · rw [hrecords] at hmem
      cases hmem
    · exact hs.dated e copy hmem
  · simp only [State.spawn, Function.update_apply] at hheld ⊢
    split at hheld
    · cases hcopy.symm.trans hheld
    · next hne =>
      rw [if_neg hne]
      exact hs.counted e copy hheld

theorem step_sound (hmax : 0 < options.maxAttempts) (hs : Sound options s) (hl : sound s l)
    (h : step options s l = some s') : Sound options s' := by
  obtain ⟨hwrites, hclaims⟩ := hl
  have hrows := step_rowStep hs hwrites h
  obtain ⟨tr, hexcl⟩ := hs.exclusive
  have hexcl' : ∃ tr, Exclusive options tr s' := ⟨_, step_exclusive hmax hexcl hwrites h⟩
  cases l with
  | tick ms =>
    cases h
    exact ⟨hexcl', hs.keys, hs.dated, hs.counted⟩
  | commit id payload =>
    simp only [step] at h
    split at h
    · next hnew =>
      cases h
      refine ⟨hexcl', save_keys hs.keys _, fun e copy hmem => ?_, fun e copy hheld => ?_⟩
      · exact World.dated_of_rowStep (hrows copy.id) (hs.dated e copy hmem)
      · have hcounted := hs.counted e copy hheld
        rw [save_row, if_neg]
        · exact hcounted
        · intro heq
          have hnone : s.world.rows.row copy.id = none := by
            rw [heq]
            exact hnew
          rw [hnone] at hcounted
          cases hcounted
    · cases h
  | publishMany ids =>
    cases h
    refine hs.spawn hexcl' (List.eq_nil_iff_forall_not_mem.mpr fun copy hcopy => ?_)
      (copy_eq_none (next_holding _))
    cases next_records (.ids ids) copy hcopy
  | publishPendingBatch =>
    cases h
    exact hs.spawn hexcl' rfl rfl
  | run e o =>
    obtain ⟨th', hadv, -, hthreads⟩ := step_run h
    have hokay : o = .ok ∨ (s.threads e).writes = false := by
      cases o with
      | ok => exact Or.inl rfl
      | fails error written => exact Or.inr (Bool.not_eq_true' _ ▸ hwrites)
    refine ⟨hexcl', advance_keys hadv hs.keys, fun e' copy hmem => ?_, fun e' copy hheld => ?_⟩
    · rw [hthreads] at hmem
      refine World.dated_of_rowStep (hrows copy.id) ?_
      split at hmem
      · exact advance_dated hadv (hs.dated e) copy hmem
      · exact hs.dated e' copy hmem
    · rw [hthreads] at hheld ⊢
      split at hheld
      · next he =>
        rw [if_pos he]
        exact run_counted_copy hs hclaims hokay hadv hheld
      · next hne =>
        rw [if_neg hne, run_row_of_held hexcl hokay hadv hne (copy_holding hheld)]
        exact hs.counted e' copy hheld
  | crash e =>
    cases h
    refine ⟨hexcl', hs.keys, fun e' copy hmem => ?_, fun e' copy hheld => ?_⟩
    · simp only [Function.update_apply] at hmem
      split at hmem
      · cases hmem
      · exact hs.dated e' copy hmem
    · simp only [Function.update_apply] at hheld ⊢
      split at hheld
      · cases hheld
      · next hne =>
        rw [if_neg hne]
        exact hs.counted e' copy hheld

theorem initial_sound : Sound options (initial : State Payload) where
  exclusive := ⟨[], initial_exclusive⟩
  keys := List.nodup_nil
  dated := fun _ => List.forall_mem_nil _
  counted := fun _ _ hcopy => by cases hcopy

end Step

/-! ## What waits -/

section Waiting
variable {limit : ℕ} {s t : State Payload}

/-- `t` comes later than `s`, and than everything that is no younger than the limit. -/
structure Later (options : OutboxModuleOptions) (limit : ℕ) (s t : State Payload) : Prop where
  sound : Sound options t
  now : limit < t.world.now
  due : ∀ id, t.world.due options limit id ≤ s.world.due options limit id
  createdAt : ∀ id row, s.world.rows.row id = some row →
    ∃ row', t.world.rows.row id = some row' ∧ row'.createdAt = row.createdAt

theorem Later.refl (hs : Sound options s) (hnow : limit < s.world.now) :
    Later options limit s s :=
  ⟨hs, hnow, fun _ => Nat.le_refl _, fun _ row hrow => ⟨row, hrow, rfl⟩⟩

theorem step_now {s' : State Payload} {l : Label Payload} (h : step options s l = some s') :
    s.world.now ≤ s'.world.now := by
  cases l with
  | tick ms =>
    cases h
    exact Nat.le_add_right _ _
  | commit id payload =>
    simp only [step] at h
    split at h <;> cases h
    exact Nat.le_refl _
  | run e o =>
    obtain ⟨th', hadv, -, -⟩ := step_run h
    have hnow : s'.world.now = s.world.now := by
      have hsave : ∀ copy, (s.world.save copy).now = s.world.now := fun _ => rfl
      have hclaim : ∀ k, (s.world.claimRow k).now = s.world.now := fun _ => rfl
      have haccept : ∀ k, (s.world.accept k).now = s.world.now := fun _ => rfl
      unfold advance at hadv
      grind
    exact hnow.ge
  | _ =>
    cases h
    exact Nat.le_refl _

theorem Later.step (hmax : 0 < options.maxAttempts) (hst : Later options limit s t)
    {l : Label Payload} {u : State Payload} (hl : Outbox.sound t l)
    (h : step options t l = some u) : Later options limit s u := by
  have hrows := step_rowStep hst.sound hl.1 h
  refine ⟨step_sound hmax hst.sound hl h, hst.now.trans_le (step_now h), fun id => ?_,
    fun id row hrow => ?_⟩
  · exact ((hrows id).due_le hst.now).trans (hst.due id)
  · obtain ⟨row', hrow', hage⟩ := hst.createdAt id row hrow
    have hstep := hrows id
    rw [hrow'] at hstep
    obtain ⟨row'', hrow'', hage'⟩ := hstep.createdAt
    exact ⟨row'', hrow'', hage'.trans hage⟩

theorem Later.run (hmax : 0 < options.maxAttempts) (hst : Later options limit s t)
    {tr : List (Move (State Payload) (Label Payload))} {u : State Payload}
    (h : Run (Outbox.step options) t tr u) (hsound : Guarded Outbox.sound tr) :
    Later options limit s u :=
  (h.guarded_invariant (Later options limit s) (fun _ _ _ hl hst hstep => hst.step hmax hl hstep)
    hsound hst).1

end Waiting

/-! ## A batch -/

/-- The copies of a batch that are not claimed yet. -/
def Thread.unclaimed : Thread Payload → List (OutboxRecord Payload)
  | .claim copy rest => copy :: rest.records
  | .publish _ rest | .savePublished _ rest | .saveFailed _ rest => rest.records
  | _ => []

theorem pendingBatch_pending {w : World Payload} {copy : OutboxRecord Payload}
    (h : copy ∈ pendingBatch options w.rows) : copy.status = .pending := by
  have hmem := List.mem_of_mem_take h
  rw [List.mem_insertionSort] at hmem
  exact of_decide_eq_true (List.mem_filter.mp hmem).2

section Batch
variable {limit e : ℕ} {s t : State Payload} {copy : OutboxRecord Payload}

end Batch

/-! ## What a batch takes -/

section Total
variable {s t : State Payload} {row : OutboxRecord Payload}

/-- The claims left of the ids of `s` at a later time. -/
def State.left (s : State Payload) (options : OutboxModuleOptions) (row : OutboxRecord Payload)
    (t : State Payload) : ℕ :=
  ∑ id ∈ s.world.rows.keys.toFinset,
    weight options row.id id * t.world.due options row.createdAt id

theorem Later.mem_keys {limit : ℕ} (hst : Later options limit s t) {copy : OutboxRecord Payload}
    (hcopy : copy ∈ pendingBatch options t.world.rows) (hlimit : copy.createdAt ≤ limit) :
    copy.id ∈ s.world.rows.keys.toFinset := by
  obtain ⟨tr, hexcl⟩ := hst.sound.exclusive
  have hpending := pendingBatch_pending hcopy
  have hrow := pendingBatch_row hcopy
  have hleft := hexcl.pending _ copy hrow hpending
  have hdue := hst.due copy.id
  cases hs : s.world.rows.row copy.id with
  | some _ => exact List.mem_toFinset.mpr (s.world.rows.mem_keys hs)
  | none =>
    rw [World.due, World.due, hs, hrow, dueOf, dueOf, if_pos hlimit, OutboxRecord.left,
      hpending] at hdue
    simp only at hdue
    omega

end Total

/-! ## The result -/

def Thread.finds : Thread Payload → Bool
  | .find => true
  | _ => false

def Thread.ended : Thread Payload → Bool
  | .done => true
  | _ => false

theorem finds_iff {th : Thread Payload} : th.finds = true ↔ th = .find := by
  cases th <;> simp [Thread.finds]

end Bumpa.Outbox
