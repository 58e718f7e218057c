import Bumpa.Cashback.BadgeRows

/-! # One payout job per unlocked badge

`handleBadgeUnlocked` adds a job for whatever transaction it saved, the one it found included: the
duplicate check of the event comes before the transaction, an existing row is accepted, and so is
an existing marker.

`one_job_per_badge`: a badge gets at most one job, all along a run, exactly if no handler adds a
job for a transaction that has a committed row by then. `second_job` is a redelivery that does: it
passes the duplicate check before the first delivery commits and reads the row after that.

The invariant counts: a transaction without a row has no job yet, or the one of the handler that
is about to insert it.
-/
namespace Bumpa.Cashback
open Bumpa.Events Bumpa.Relational Bumpa.Transition
set_option autoImplicit false

/-- The transaction a handler adds a job for, and the badge of its event. -/
def enqueued (x : Move State Label) : Option (ReadableId × String × String) :=
  match x.label with
  | .run e o =>
    match x.source.threads e with
    | .badge (.enqueue event t) => if o.takesEffect then some (t.id, badgeOf event) else none
    | _ => none
  | _ => none

/-- A handler adds a job for a badge whose transaction has a row in `w`. -/
def enqueuesFor (w : World) (badge : String × String) (x : Move State Label) : Bool :=
  (enqueued x).any fun r => r.2 = badge && (w.row r.1).isSome

/-- A handler adds a job for transaction `k`. -/
def enqueues (k : ReadableId) (x : Move State Label) : Bool :=
  (enqueued x).any fun r => r.1 = k

/-- A handler adds its job before its transaction has a committed row. -/
def enqueuesFirst (s : State) : Label → Bool
  | .run e o =>
    match s.threads e with
    | .badge (.enqueue _ t) => !o.takesEffect || (s.world.row t.id).isNone
    | _ => true
  | _ => true

/-- In `tr`, which led to `s`, no badge got two jobs whose transaction has a row. -/
def OneJobPerBadge (tr : List (Move State Label)) (s : State) : Prop :=
  ∀ userId badgeName, tr.countP (enqueuesFor s.world (userId, badgeName)) ≤ 1

/-! ## What the moves so far say about jobs -/

/-- A handler that is about to commit has added its job, an earlier one has not. -/
def Thread.jobsAdded : Thread → ℕ
  | .badge (.commit _ _) => 1
  | _ => 0

structure JobHistory (tr : List (Move State Label)) (s : State) : Prop where
  sent : ∀ k, (s.world.row k).isSome → 1 ≤ tr.countP (enqueues k)
  unsent : ∀ e t, (s.threads e).loaded = some t → s.world.row t.id = none →
    tr.countP (enqueues t.id) = (s.threads e).jobsAdded
  known : ∀ x ∈ tr, ∀ k badge, enqueued x = some (k, badge) → k < s.world.nextId ∧
    ∀ badge', s.Names k badge' → badge' = badge

theorem enqueues_iff {k : ReadableId} {x : Move State Label} :
    enqueues k x = true ↔ ∃ badge, enqueued x = some (k, badge) := by
  unfold enqueues
  cases h : enqueued x with
  | none => simp
  | some r =>
    rw [Option.any_some, decide_eq_true_eq]
    constructor
    · rintro rfl
      exact ⟨r.2, rfl⟩
    · rintro ⟨badge, hr⟩
      rw [Option.some.inj hr]

theorem enqueuesFor_iff {w : World} {badge : String × String} {x : Move State Label} :
    enqueuesFor w badge x = true ↔ ∃ k, enqueued x = some (k, badge) ∧ (w.row k).isSome := by
  unfold enqueuesFor
  cases h : enqueued x with
  | none => simp
  | some r =>
    rw [Option.any_some, Bool.and_eq_true, decide_eq_true_eq]
    constructor
    · rintro ⟨rfl, hrow⟩
      exact ⟨r.1, rfl, hrow⟩
    · rintro ⟨k, hr, hrow⟩
      rw [Option.some.inj hr]
      exact ⟨rfl, hrow⟩

/-- A job is added by a handler at that point, for its transaction. -/
theorem enqueued_eq_some {s s' : State} {l : Label} {k : ReadableId} {badge : String × String} :
    enqueued ⟨s, l, s'⟩ = some (k, badge) ↔ ∃ e o event t, l = .run e o ∧
      s.threads e = .badge (.enqueue event t) ∧ o.takesEffect = true ∧ k = t.id ∧
      badge = badgeOf event := by
  cases l with
  | run e o =>
    simp only [enqueued]
    split
    · next event t hpc =>
      constructor
      · intro h
        split_ifs at h with ho
        obtain ⟨rfl, rfl⟩ := Prod.mk.inj (Option.some.inj h)
        exact ⟨e, o, event, t, rfl, hpc, ho, rfl, rfl⟩
      · rintro ⟨e', o', event', t', hl, hpc', ho, rfl, rfl⟩
        obtain ⟨rfl, rfl⟩ := Label.run.inj hl
        rw [hpc, Thread.badge.injEq, BadgePc.enqueue.injEq] at hpc'
        rw [if_pos ho, hpc'.1, hpc'.2]
    · next hpc =>
      constructor
      · intro h
        cases h
      · rintro ⟨e', o', event', t', hl, hpc', _⟩
        obtain ⟨rfl, rfl⟩ := Label.run.inj hl
        exact absurd hpc' (hpc event' t')
  | _ =>
    constructor
    · intro h
      cases h
    · rintro ⟨_, _, _, _, h, _⟩
      cases h

/-- A counted job is one for the badge's transaction. -/
theorem JobHistory.counted {tr : List (Move State Label)} {s : State} (hJ : JobHistory tr s)
    {badge : String × String} {x : Move State Label} (hx : x ∈ tr)
    (hfor : enqueuesFor s.world badge x = true) :
    ∃ k, enqueues k x = true ∧ s.world.badgeOf k = some badge := by
  obtain ⟨k, hk, hrow⟩ := enqueuesFor_iff.mp hfor
  obtain ⟨badge', hb⟩ := exists_badgeOf hrow
  refine ⟨k, enqueues_iff.mpr ⟨badge, hk⟩, ?_⟩
  rw [← (hJ.known x hx k badge hk).2 badge' (Or.inl hb), hb]

/-- The jobs of a badge are those of its one transaction. -/
theorem oneJobPerBadge_iff {tr : List (Move State Label)} {s : State} (hs : BadgeRows s)
    (hJ : JobHistory tr s) :
    OneJobPerBadge tr s ↔ ∀ k, (s.world.row k).isSome → tr.countP (enqueues k) ≤ 1 := by
  constructor
  · intro hall k hk
    obtain ⟨badge, hbadge⟩ := exists_badgeOf hk
    refine Nat.le_trans (List.countP_mono_left fun x hx hkx => ?_) (hall badge.1 badge.2)
    obtain ⟨b, hb⟩ := enqueues_iff.mp hkx
    rw [← (hJ.known x hx k b hb).2 badge (Or.inl hbadge)] at hb
    exact enqueuesFor_iff.mpr ⟨k, hb, hk⟩
  · intro hall userId badgeName
    by_cases hany : ∃ k, s.world.badgeOf k = some (userId, badgeName)
    · obtain ⟨k, hbadge⟩ := hany
      have hk : (s.world.row k).isSome := by
        rw [← badgeOf_isSome, hbadge]
        rfl
      refine Nat.le_trans (List.countP_mono_left fun x hx hfor => ?_) (hall k hk)
      obtain ⟨k', hk', hb⟩ := hJ.counted hx hfor
      rwa [hs.unique k k' _ hbadge hb]
    · have hzero : tr.countP (enqueuesFor s.world (userId, badgeName)) = 0 := by
        refine List.countP_eq_zero.mpr fun x hx hfor => hany ?_
        obtain ⟨k, _, hb⟩ := hJ.counted hx hfor
        exact ⟨k, hb⟩
      omega

/-! ## What a step does to the history -/

theorem jobHistory_initial : JobHistory [] initial where
  sent := fun k h => by cases h
  unsent := fun e t h => by cases h
  known := fun x hx => absurd hx List.not_mem_nil

theorem countP_enqueues (tr : List (Move State Label)) (x : Move State Label) (k : ReadableId) :
    (tr ++ [x]).countP (enqueues k) = tr.countP (enqueues k) + if enqueues k x then 1 else 0 := by
  rw [List.countP_append, List.countP_singleton]

theorem enqueues_ambient {s s' : State} {l : Label} (hl : ∀ e o, l ≠ .run e o) (k : ReadableId) :
    enqueues k ⟨s, l, s'⟩ = false := by
  cases l with
  | run e o => exact absurd rfl (hl e o)
  | _ => rfl

/-- A handler's step with its copy: it adds its job on the way to the commit. -/
theorem handled_jobsAdded {cfg : Config} {s s' : State} {e : ℕ} {o : Outcome} {pc : BadgePc}
    {th' : Thread} {t : CashbackTransaction} (hpc : s.threads e = .badge pc)
    (h : handleBadgeUnlocked cfg s.world e pc o = some (s'.world, th'))
    (ht : (Thread.badge pc).loaded = some t) (ht' : th'.loaded ≠ none) :
    th'.jobsAdded =
      (Thread.badge pc).jobsAdded + if enqueues t.id ⟨s, .run e o, s'⟩ then 1 else 0 := by
  have hquiet : (∀ event t, pc ≠ .enqueue event t) → enqueues t.id ⟨s, .run e o, s'⟩ = false := by
    intro hne
    rw [Bool.eq_false_iff]
    intro hk
    obtain ⟨badge, hb⟩ := enqueues_iff.mp hk
    obtain ⟨e', o', event, t', hl, hpc', _⟩ := enqueued_eq_some.mp hb
    obtain ⟨rfl, rfl⟩ := Label.run.inj hl
    rw [hpc, Thread.badge.injEq] at hpc'
    exact hne event t' hpc'
  cases pc with
  | enqueue event t₀ =>
    cases ht
    cases o with
    | ok =>
      obtain ⟨_, rfl⟩ := some_pair_inj h
      rw [if_pos (enqueues_iff.mpr ⟨badgeOf event, enqueued_eq_some.mpr
        ⟨e, .ok, event, t, rfl, hpc, rfl, rfl, rfl⟩⟩)]
      rfl
    | fails error written =>
      obtain ⟨_, rfl⟩ := some_pair_inj h
      exact absurd rfl ht'
    | recipient code => cases h
  | commit event t₀ => exact absurd (by rw [(commit_releases h).1]; rfl) ht'
  | _ =>
    rw [hquiet (by simp)]
    unfold handleBadgeUnlocked at h
    grind [Thread.jobsAdded]

/-- The job of a transaction without a row is added by the thread that has its copy. -/
theorem enqueues_owner {s s' : State} {e e' : ℕ} {o : Outcome} {t : CashbackTransaction}
    (hs : BadgeRows s) (ht : (s.threads e').loaded = some t) (hrow : s.world.row t.id = none)
    (he : e' ≠ e) : enqueues t.id ⟨s, .run e o, s'⟩ = false := by
  rw [Bool.eq_false_iff]
  intro h
  obtain ⟨badge, hb⟩ := enqueues_iff.mp h
  obtain ⟨e₁, o₁, event, t₁, hl, hpc, _, hid, _⟩ := enqueued_eq_some.mp hb
  obtain ⟨rfl, rfl⟩ := Label.run.inj hl
  rcases hs.apart e' e t t₁ ht (by rw [hpc]; rfl) hid with heq | hsome
  · exact he heq
  · rw [hrow] at hsome
    cases hsome

/-- The thread that steps: its copy is that of a handler, or has just been drawn. -/
theorem JobHistory.unsent_own {cfg : Config} {tr : List (Move State Label)} {s s' : State} {e : ℕ}
    {o : Outcome} {th' : Thread} (hJ : JobHistory tr s) (hs : BadgeRows s)
    (hadv : advance cfg s.world e (s.threads e) o = some (s'.world, th'))
    {t : CashbackTransaction} (ht : th'.loaded = some t) (hrow : s.world.row t.id = none) :
    tr.countP (enqueues t.id) + (if enqueues t.id ⟨s, .run e o, s'⟩ then 1 else 0) =
      th'.jobsAdded := by
  rcases advance_loaded hadv ht with hrow' | ⟨t₀, ht₀, hid, _, _⟩ | ⟨hid, _, event, hpc, rfl⟩
  · rw [hrow] at hrow'
    cases hrow'
  · have hholds : (s.threads e).Holds s.world e := by
      rcases hs.backed e t₀ ht₀ with hsome | hholds
      · rw [← hid, hrow] at hsome
        cases hsome
      · exact hholds
    have hunsent := hJ.unsent e t₀ ht₀ (by rwa [← hid])
    cases hpc : s.threads e with
    | badge pc =>
      rw [hpc] at hadv ht₀ hunsent
      rw [hid, hunsent]
      exact (handled_jobsAdded hpc hadv ht₀ (by rw [ht]; simp)).symm
    | _ =>
      rw [hpc] at hholds
      exact hholds.elim
  · -- the id is fresh, so no move so far has added a job for it
    have hquiet : ∀ x ∈ tr, ¬ enqueues t.id x = true := by
      intro x hx h
      obtain ⟨badge, hb⟩ := enqueues_iff.mp h
      have hlt := (hJ.known x hx t.id badge hb).1
      rw [hid] at hlt
      exact Nat.lt_irrefl _ hlt
    have hfind : ¬ enqueues t.id ⟨s, .run e o, s'⟩ = true := by
      intro h
      obtain ⟨badge, hb⟩ := enqueues_iff.mp h
      obtain ⟨e', o', event', t', hl, hpc', _⟩ := enqueued_eq_some.mp hb
      obtain ⟨rfl, rfl⟩ := Label.run.inj hl
      rw [hpc] at hpc'
      cases hpc'
    rw [List.countP_eq_zero.mpr hquiet, if_neg hfind]
    rfl

/-- A row that appears is committed by a handler, after it added its one job. -/
theorem JobHistory.inserted {cfg : Config} {tr : List (Move State Label)} {s s' : State} {e : ℕ}
    {o : Outcome} {th' : Thread} (hJ : JobHistory tr s) (hs : BadgeRows s)
    (hadv : advance cfg s.world e (s.threads e) o = some (s'.world, th')) {k : ReadableId}
    (hrow : s.world.row k = none) (hk : (s'.world.row k).isSome) :
    tr.countP (enqueues k) = 1 := by
  rw [← badgeOf_isSome] at hk
  rcases hs.rows hadv with hsame | ⟨event, t, hpc, _, _, hins⟩
  · rw [hsame, badgeOf_isSome, hrow] at hk
    cases hk
  · rw [hins] at hk
    split at hk
    · next heq =>
      subst heq
      have hunsent := hJ.unsent e t (by rw [hpc]; rfl) hrow
      rwa [hpc] at hunsent
    · rw [badgeOf_isSome, hrow] at hk
      cases hk

/-- A known transaction id keeps its badge. -/
theorem JobHistory.known_snoc {tr : List (Move State Label)} {s s' : State} {l : Label}
    (hJ : JobHistory tr s) (hnext : s.world.nextId ≤ s'.world.nextId)
    (hnames : ∀ k badge, s'.Names k badge → s.Names k badge ∨ k = s.world.nextId)
    (hlast : ∀ k badge, enqueued ⟨s, l, s'⟩ = some (k, badge) → s.Names k badge)
    (hs : BadgeRows s) (x : Move State Label) (hx : x ∈ tr ++ [⟨s, l, s'⟩]) (k : ReadableId)
    (badge : String × String) (hb : enqueued x = some (k, badge)) :
    k < s'.world.nextId ∧ ∀ badge', s'.Names k badge' → badge' = badge := by
  have hbefore : k < s.world.nextId ∧ ∀ badge', s.Names k badge' → badge' = badge := by
    rcases List.mem_append.mp hx with hx | hx
    · exact hJ.known x hx k badge hb
    · rw [List.mem_singleton] at hx
      subst hx
      have hname := hlast k badge hb
      exact ⟨hs.fresh k badge hname, fun badge' h => hs.named k badge' badge h hname⟩
  refine ⟨Nat.lt_of_lt_of_le hbefore.1 hnext, fun badge' h => ?_⟩
  rcases hnames k badge' h with hold | heq
  · exact hbefore.2 badge' hold
  · rw [heq] at hbefore
    exact absurd hbefore.1 (Nat.lt_irrefl _)

theorem jobHistory_run {cfg : Config} {tr : List (Move State Label)} {s s' : State} {e : ℕ}
    {o : Outcome} {th' : Thread} (hreach : Reaches cfg tr s) (hJ : JobHistory tr s)
    (hadv : advance cfg s.world e (s.threads e) o = some (s'.world, th'))
    (hth : ∀ e', s'.threads e' = if e' = e then th' else s.threads e') :
    JobHistory (tr ++ [⟨s, .run e o, s'⟩]) s' := by
  have hs := reaches_badgeRows hreach
  have hnone : ∀ {k}, s'.world.row k = none → s.world.row k = none := by
    intro k hk
    cases hrow : s.world.row k with
    | none => rfl
    | some row =>
      have hstays := hs.row_stays hadv (k := k) (by rw [hrow]; rfl)
      rw [hk] at hstays
      cases hstays
  refine ⟨fun k hk => ?_, fun e' t ht hrow => ?_, fun x hx k badge hb => ?_⟩
  · rw [countP_enqueues]
    refine Nat.le_trans ?_ (Nat.le_add_right _ _)
    cases hrow : s.world.row k with
    | some row => exact hJ.sent k (by rw [hrow]; rfl)
    | none => exact Nat.le_of_eq (hJ.inserted hs hadv hrow hk).symm
  · rw [countP_enqueues]
    by_cases he : e' = e
    · subst he
      have hself : s'.threads e' = th' := by rw [hth, if_pos rfl]
      rw [hself] at ht ⊢
      exact hJ.unsent_own hs hadv ht (hnone hrow)
    · rw [hth, if_neg he] at ht ⊢
      rw [enqueues_owner hs ht (hnone hrow) he, hJ.unsent e' t ht (hnone hrow)]
      rfl
  · refine hJ.known_snoc (advance_nextId hadv) (fun k badge h => ?_) (fun k badge h => ?_) hs x hx
      k badge hb
    · exact (hs.names_run hadv hth h).imp_right fun hnew => hnew.1
    · obtain ⟨e', o', event, t, hl, hpc, _, rfl, rfl⟩ := enqueued_eq_some.mp h
      refine Or.inr ⟨e', t, by rw [hpc]; rfl, rfl, ?_⟩
      exact reaches_handled hreach (by rw [hpc]; rfl)

theorem jobHistory_ambient {cfg : Config} {tr : List (Move State Label)} {s s' : State}
    {l : Label} (hs : BadgeRows s) (hJ : JobHistory tr s) (h : step cfg s l = some s')
    (hl : ∀ e o, l ≠ .run e o) : JobHistory (tr ++ [⟨s, l, s'⟩]) s' := by
  obtain ⟨hrows, hnext, _, _⟩ := step_ambient h hl
  have hcount : ∀ k, List.countP (enqueues k) (tr ++ [⟨s, l, s'⟩]) = tr.countP (enqueues k) := by
    intro k
    rw [countP_enqueues, enqueues_ambient hl]
    rfl
  refine ⟨fun k hk => ?_, fun e t ht hrow => ?_, hJ.known_snoc (Nat.le_of_eq hnext.symm)
    (fun k badge hk => Or.inl (names_ambient h hl hk)) (fun k badge hb => ?_) hs⟩
  · rw [hcount]
    rw [World.row, hrows] at hk
    exact hJ.sent k hk
  · have hth := (loaded_ambient h hl ht).1
    rw [hcount, hth]
    rw [hth] at ht
    rw [World.row, hrows] at hrow
    exact hJ.unsent e t ht hrow
  · have hadded : enqueues k ⟨s, l, s'⟩ = true := enqueues_iff.mpr ⟨badge, hb⟩
    rw [enqueues_ambient hl] at hadded
    cases hadded

theorem reaches_jobHistory {cfg : Config} {tr : List (Move State Label)} {s : State}
    (h : Reaches cfg tr s) : JobHistory tr s := by
  refine Run.history JobHistory jobHistory_initial ?_ h
  intro tr s l s' hrun hJ hstep
  rcases step_cases hstep with ⟨e, o, th', rfl, hadv, _, hth⟩ | ⟨_, hl, _⟩
  · exact jobHistory_run hrun hJ hadv hth
  · exact jobHistory_ambient (reaches_badgeRows hrun) hJ hstep hl

/-! ## The result -/

/-- A step that adds no job adds none for a transaction with a row either. -/
theorem oneJob_quiet {cfg : Config} {tr : List (Move State Label)} {s s' : State} {l : Label}
    (hs : BadgeRows s) (hJ : JobHistory tr s) (h : step cfg s l = some s')
    (hquiet : enqueued ⟨s, l, s'⟩ = none)
    (hP : ∀ k, (s.world.row k).isSome → tr.countP (enqueues k) ≤ 1) (k : ReadableId)
    (hk : (s'.world.row k).isSome) : List.countP (enqueues k) (tr ++ [⟨s, l, s'⟩]) ≤ 1 := by
  have hnot : ¬ enqueues k ⟨s, l, s'⟩ = true := by
    intro hk
    obtain ⟨badge, hb⟩ := enqueues_iff.mp hk
    rw [hquiet] at hb
    cases hb
  rw [countP_enqueues, if_neg hnot, Nat.add_zero]
  cases hrow : s.world.row k with
  | some row => exact hP k (by rw [hrow]; rfl)
  | none =>
    rcases step_cases h with ⟨e, o, th', rfl, hadv, _, _⟩ | ⟨hw, _, _⟩
    · exact Nat.le_of_eq (hJ.inserted hs hadv hrow hk)
    · rw [World.row, hw.transactions, ← World.row, hrow] at hk
      cases hk

theorem enqueuesFirst_quiet {s s' : State} {l : Label} (h : enqueued ⟨s, l, s'⟩ = none) :
    enqueuesFirst s l = true := by
  unfold enqueuesFirst
  split
  · next e o =>
    split
    · next event t hpc =>
      cases ho : o.takesEffect with
      | false => rfl
      | true =>
        rw [enqueued_eq_some.mpr ⟨e, o, event, t, rfl, hpc, ho, rfl, rfl⟩] at h
        cases h
    · rfl
  · rfl

/-- A handler that adds a job keeps the bound exactly if its transaction has no row yet. -/
theorem oneJob_added {cfg : Config} {tr : List (Move State Label)} {s s' : State} {l : Label}
    (hs : BadgeRows s) (hJ : JobHistory tr s) (h : step cfg s l = some s') {k₀ : ReadableId}
    {badge : String × String} (hadded : enqueued ⟨s, l, s'⟩ = some (k₀, badge))
    (hP : ∀ k, (s.world.row k).isSome → tr.countP (enqueues k) ≤ 1) :
    (∀ k, (s'.world.row k).isSome → List.countP (enqueues k) (tr ++ [⟨s, l, s'⟩]) ≤ 1) ↔
      enqueuesFirst s l = true := by
  obtain ⟨e, o, event, t, rfl, hpc, ho, rfl, rfl⟩ := enqueued_eq_some.mp hadded
  have hrows : ∀ k, (s'.world.row k).isSome = (s.world.row k).isSome := by
    intro k
    obtain ⟨th', hadv, _, _⟩ := step_run h
    rw [← badgeOf_isSome, ← badgeOf_isSome]
    rcases hs.rows hadv with hsame | ⟨_, _, hpc', _⟩
    · rw [hsame]
    · rw [hpc] at hpc'
      cases hpc'
  have hself : enqueues t.id ⟨s, .run e o, s'⟩ = true := enqueues_iff.mpr ⟨_, hadded⟩
  have hguard : enqueuesFirst s (.run e o) = (s.world.row t.id).isNone := by
    simp only [enqueuesFirst, hpc, ho, Bool.not_true, Bool.false_or]
  rw [hguard, Option.isNone_iff_eq_none]
  constructor
  · intro hall
    by_contra hrow
    have hsome : (s.world.row t.id).isSome := Option.isSome_iff_ne_none.mpr hrow
    have htwo := hall t.id (by rwa [hrows])
    have hone := hJ.sent t.id hsome
    rw [countP_enqueues, if_pos hself] at htwo
    omega
  · intro hrow k hk
    have hne : ¬ enqueues k ⟨s, .run e o, s'⟩ = true := by
      intro hk'
      obtain ⟨badge, hb⟩ := enqueues_iff.mp hk'
      rw [hadded, Option.some.injEq, Prod.mk.injEq] at hb
      rw [hrows, ← hb.1, hrow] at hk
      cases hk
    rw [countP_enqueues, if_neg hne, Nat.add_zero]
    exact hP k (by rwa [← hrows])

/-- A badge gets at most one job whose transaction is committed, all along a run, exactly if every
handler that adds a job finds its transaction without a committed row. -/
theorem one_job_per_badge {cfg : Config} {tr : List (Move State Label)} {s : State}
    (h : Reaches cfg tr s) :
    (∀ tr' s', Reaches cfg tr' s' → tr' <+: tr → OneJobPerBadge tr' s') ↔
      Guarded (fun s l => enqueuesFirst s l = true) tr := by
  refine Run.prefix_iff OneJobPerBadge (fun _ _ => Nat.zero_le 1) ?_ h
  intro tr s l s' hrun hP hstep
  have hs := reaches_badgeRows hrun
  have hJ := reaches_jobHistory hrun
  have hreach : Reaches cfg (tr ++ [⟨s, l, s'⟩]) s' := Run.snoc hrun hstep
  rw [oneJobPerBadge_iff hs hJ] at hP
  rw [oneJobPerBadge_iff (reaches_badgeRows hreach) (reaches_jobHistory hreach)]
  cases hadded : enqueued ⟨s, l, s'⟩ with
  | some r => exact oneJob_added hs hJ hstep hadded hP
  | none =>
    exact ⟨fun _ => enqueuesFirst_quiet hadded, fun _ => oneJob_quiet hs hJ hstep hadded hP⟩

theorem one_job_delivered_once : ∃ tr s, Reaches paystackConfig tr s ∧
    tr.countP (enqueuesFor s.world ("usr_1", "Bronze")) = 1 ∧
    ∀ tr' s', Reaches paystackConfig tr' s' → tr' <+: tr → OneJobPerBadge tr' s' := by
  obtain ⟨tr, s, h, hp⟩ := exists_run_of_trace (step paystackConfig) initial
    (deliver 0 (badgeEvent 0 "Bronze" "0123456789"))
    (fun r => (r.1.all fun x => enqueuesFirst x.source x.label) &&
      decide (r.1.countP (enqueuesFor r.2.world ("usr_1", "Bronze")) = 1)) (by decide +kernel)
  rw [Bool.and_eq_true, decide_eq_true_eq] at hp
  exact ⟨tr, s, h, hp.2, (one_job_per_badge h).mpr (guarded_of_all hp.1)⟩

/-- A redelivery passes the duplicate check, the first delivery commits, and the redelivery adds a
second job for the row it finds. -/
theorem second_job : ¬ ∀ (cfg : Config) (tr : List (Move State Label)) (s : State),
    Reaches cfg tr s → OneJobPerBadge tr s := by
  intro hall
  obtain ⟨tr, s, h, htwo⟩ := exists_run_of_trace (step paystackConfig) initial
    ([.badgeUnlocked (badgeEvent 0 "Bronze" "0123456789"), .run 0 .ok] ++
      deliver 1 (badgeEvent 0 "Bronze" "0123456789") ++ Label.oks 0 5)
    (fun r => decide (r.1.countP (enqueuesFor r.2.world ("usr_1", "Bronze")) = 2))
    (by decide +kernel)
  have hle := hall paystackConfig tr s h "usr_1" "Bronze"
  have heq : tr.countP (enqueuesFor s.world ("usr_1", "Bronze")) = 2 := of_decide_eq_true htwo
  omega

end Bumpa.Cashback
