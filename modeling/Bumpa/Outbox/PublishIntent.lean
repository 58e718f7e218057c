import Bumpa.Outbox.OutboxService

/-! # The intent to publish

A committed row that is not PUBLISHED should be PENDING, FAILED with its attempts used up, or
PUBLISHING under a live publisher (`IntentKept`). Nothing ever looks at a PUBLISHING row again, so
a claim that outlives its publisher is lost: the claim's UPDATE takes effect and the call rejects,
the publisher crashes, or the save of the catch block fails (`keepsClaims`).

`Claims` is what every step keeps: a claimed row is PUBLISHING, or PUBLISHED by a save that took
effect and was rejected, and has one holder. `intent_kept_iff`: the intents are kept all along a
run exactly if none of its steps loses a claim. `intent_lost` is a crash right after the claim.
-/
namespace Bumpa.Outbox
open Bumpa.Events Bumpa.Relational Bumpa.Transition
set_option autoImplicit false

variable {Payload : Type} {options : OutboxModuleOptions}

/-- The row a publisher has claimed and not let go of yet. -/
def Thread.holding : Thread Payload → Option ReadableId
  | .publish event _ | .savePublished event _ | .saveFailed event _ => some event.id
  | _ => none

def World.statusOf (w : World Payload) (id : ReadableId) : Option OutboxStatus :=
  (w.rows.row id).map (·.status)

/-- Every committed row that is not PUBLISHED is PENDING, FAILED for good or claimed. -/
def IntentKept (options : OutboxModuleOptions) (s : State Payload) : Prop :=
  ∀ id row, s.world.rows.row id = some row → row.status ≠ .published →
    row.status = .pending ∨ (row.status = .failed ∧ options.maxAttempts ≤ row.attempts) ∨
      (row.status = .publishing ∧ ∃ e, (s.threads e).holding = some id)

/-- A failing call does not leave the row PUBLISHING and its publisher gone. -/
def Thread.keepsClaim (w : World Payload) : Thread Payload → Outcome → Bool
  | .claim event _, .fails _ written => !written || w.statusOf event.id ≠ some .pending
  | .saveFailed event _, .fails _ written => written || w.statusOf event.id ≠ some .publishing
  | _, _ => true

def keepsClaims (s : State Payload) : Label Payload → Bool
  | .run e o => (s.threads e).keepsClaim s.world o
  | .crash e => (s.threads e).holding.all fun id => s.world.statusOf id ≠ some .publishing
  | _ => true

/-! ## Writes -/

theorem statusOf_eq_some {w : World Payload} {id : ReadableId} {status : OutboxStatus} :
    w.statusOf id = some status ↔ ∃ row, w.rows.row id = some row ∧ row.status = status :=
  Option.map_eq_some_iff

theorem save_row (w : World Payload) (event : OutboxRecord Payload) (id : ReadableId) :
    (w.save event).rows.row id = if id = event.id then
      some { event with lastError :=
        event.lastError.or ((w.rows.row event.id).getD event).lastError }
      else w.rows.row id :=
  Table.put_row _ _ _

theorem save_statusOf (w : World Payload) (event : OutboxRecord Payload) (id : ReadableId) :
    (w.save event).statusOf id = if id = event.id then some event.status else w.statusOf id := by
  rw [World.statusOf, save_row]
  split <;> rfl

theorem claimRow_row {w : World Payload} {k : ReadableId} (h : w.statusOf k = some .pending)
    (id : ReadableId) : (w.claimRow k).rows.row id = if id = k then
      (w.rows.row k).map ({ · with status := .publishing }) else w.rows.row id := by
  obtain ⟨row, hrow, hpending⟩ := statusOf_eq_some.mp h
  have hid : ∀ event : OutboxRecord Payload, { event with status := .publishing }.id = event.id :=
    fun _ => rfl
  refine (Table.updateWhere_row hid id).trans ?_
  split
  · rw [hrow, Option.map_some, Option.map_some, if_pos (by simpa using hpending)]
  · rfl

theorem claimRow_statusOf {w : World Payload} {k : ReadableId} (h : w.statusOf k = some .pending)
    (id : ReadableId) :
    (w.claimRow k).statusOf id = if id = k then some .publishing else w.statusOf id := by
  obtain ⟨row, hrow, -⟩ := statusOf_eq_some.mp h
  rw [World.statusOf, claimRow_row h]
  split
  · rw [hrow]
    rfl
  · rfl

/-- The claim changes no other row than a PENDING one. -/
theorem claimRow_eq {w : World Payload} {k : ReadableId} (h : w.statusOf k ≠ some .pending) :
    w.claimRow k = w := by
  rw [World.claimRow, claimForPublishing, Table.updateWhere]
  split
  · rfl
  · next row hrow =>
    rw [if_neg]
    intro hpending
    exact h (statusOf_eq_some.mpr ⟨row, hrow, by simpa using hpending⟩)

theorem any_pending {w : World Payload} {k : ReadableId} :
    (w.rows.row k).any (·.status = .pending) = true ↔ w.statusOf k = some .pending := by
  rw [Option.any_eq_true, statusOf_eq_some]
  simp only [decide_eq_true_eq]

/-! ## What a step can do -/

theorem next_holding (rest : Rest Payload) : rest.next.holding = none := by
  cases rest with
  | ids rest => cases rest <;> rfl
  | batch rest => cases rest <;> rfl

/-- A copy that is about to be saved has a status other than PUBLISHING. -/
def Thread.Decided (options : OutboxModuleOptions) : Thread Payload → Prop
  | .savePublished event _ => event.status = .published
  | .saveFailed event _ =>
    event.status = .pending ∨ (event.status = .failed ∧ options.maxAttempts ≤ event.attempts)
  | _ => True

theorem next_decided (rest : Rest Payload) : rest.next.Decided options := by
  cases rest with
  | ids rest => cases rest <;> trivial
  | batch rest => cases rest <;> trivial

theorem attemptFailed_decided (event : OutboxRecord Payload) (error : String)
    (rest : Rest Payload) :
    (Thread.saveFailed (event.attemptFailed options.maxAttempts error) rest).Decided options := by
  simp only [Thread.Decided, OutboxRecord.attemptFailed]
  split
  · next h => exact Or.inr ⟨rfl, h⟩
  · exact Or.inl rfl

theorem advance_decided {w w' : World Payload} {th th' : Thread Payload} {o : Outcome}
    (h : advance options w th o = some (w', th')) : th'.Decided options := by
  unfold advance at h
  grind [next_decided, attemptFailed_decided, Thread.Decided, OutboxRecord.published]

/-- An execution goes on with the rows and its claim as they are, claims a row, saves the row it
holds, or lets go of it without a save. -/
def Effect (w w' : World Payload) (th th' : Thread Payload) (keeps : Bool) : Prop :=
  (w'.rows = w.rows ∧ th'.holding = th.holding ∧ keeps = true) ∨
  (∃ k, th.holding = none ∧ w.statusOf k = some .pending ∧ w'.rows = (w.claimRow k).rows ∧
    (th'.holding = some k ∧ keeps = true ∨ th'.holding = none ∧ keeps = false)) ∨
  (∃ event rest, (th = .savePublished event rest ∨ th = .saveFailed event rest) ∧
    w'.rows = (w.save event).rows ∧ keeps = true ∧
    (th'.holding = none ∨ th = .savePublished event rest ∧ th'.holding = some event.id)) ∨
  (∃ k, th.holding = some k ∧ w'.rows = w.rows ∧ th'.holding = none ∧
    (keeps = true ↔ w.statusOf k ≠ some .publishing))

theorem advance_effect {w w' : World Payload} {th th' : Thread Payload} {o : Outcome}
    (h : advance options w th o = some (w', th')) :
    Effect w w' th th' (th.keepsClaim w o) := by
  have hclaim : ∀ k, w.statusOf k ≠ some .pending → (w.claimRow k).rows = w.rows :=
    fun k hk => by rw [claimRow_eq hk]
  cases th with
  | done => cases h
  | findOne id rest =>
    refine Or.inl ?_
    unfold advance at h
    grind [next_holding, Thread.holding, Thread.keepsClaim]
  | find =>
    refine Or.inl ?_
    unfold advance at h
    grind [next_holding, Thread.holding, Thread.keepsClaim]
  | claim event rest =>
    cases o with
    | ok =>
      simp only [advance, any_pending] at h
      split at h
      · next hpending =>
        cases h
        exact Or.inr (Or.inl ⟨event.id, rfl, hpending, rfl, Or.inl ⟨rfl, rfl⟩⟩)
      · cases h
        exact Or.inl ⟨rfl, next_holding rest, rfl⟩
    | fails error written =>
      cases h
      by_cases hlost : written = true ∧ w.statusOf event.id = some .pending
      · obtain ⟨rfl, hpending⟩ := hlost
        refine Or.inr (Or.inl ⟨event.id, rfl, hpending, rfl, Or.inr ⟨rfl, ?_⟩⟩)
        simp [Thread.keepsClaim, hpending]
      · refine Or.inl ⟨?_, rfl, ?_⟩
        · grind
        · simp only [Thread.keepsClaim]
          grind
  | publish event rest =>
    refine Or.inl ?_
    cases o with
    | ok =>
      cases h
      exact ⟨rfl, rfl, rfl⟩
    | fails error written =>
      cases h
      exact ⟨by split <;> rfl, rfl, rfl⟩
  | savePublished event rest =>
    cases o with
    | ok =>
      cases h
      exact Or.inr (Or.inr (Or.inl
        ⟨event, rest, Or.inl rfl, rfl, rfl, Or.inl (next_holding rest)⟩))
    | fails error written =>
      cases h
      cases written with
      | true =>
        exact Or.inr (Or.inr (Or.inl ⟨event, rest, Or.inl rfl, rfl, rfl, Or.inr ⟨rfl, rfl⟩⟩))
      | false => exact Or.inl ⟨rfl, rfl, rfl⟩
  | saveFailed event rest =>
    cases o with
    | ok =>
      cases h
      exact Or.inr (Or.inr (Or.inl
        ⟨event, rest, Or.inr rfl, rfl, rfl, Or.inl (next_holding rest)⟩))
    | fails error written =>
      cases h
      cases written with
      | true => exact Or.inr (Or.inr (Or.inl ⟨event, rest, Or.inr rfl, rfl, rfl, Or.inl rfl⟩))
      | false => exact Or.inr (Or.inr (Or.inr ⟨event.id, rfl, rfl, rfl, by simp [Thread.keepsClaim]⟩))

theorem crash_effect (w : World Payload) (th : Thread Payload) :
    Effect w w th .done (th.holding.all fun id => w.statusOf id ≠ some .publishing) := by
  cases hk : th.holding with
  | none => exact Or.inl ⟨rfl, hk.symm, rfl⟩
  | some k => exact Or.inr (Or.inr (Or.inr ⟨k, hk, rfl, rfl, by simp⟩))

/-! ## What every step keeps -/

/-- A held row is PUBLISHING, or PUBLISHED by a save that was rejected, and has one holder. -/
structure Claims (options : OutboxModuleOptions) (s : State Payload) : Prop where
  beyond : ∀ e, s.nextThread ≤ e → s.threads e = .done
  held : ∀ e k, (s.threads e).holding = some k →
    s.world.statusOf k = some .publishing ∨ s.world.statusOf k = some .published
  unique : ∀ e e' k, (s.threads e).holding = some k → (s.threads e').holding = some k → e = e'
  decided : ∀ e, (s.threads e).Decided options
  exhausted : ∀ k row, s.world.rows.row k = some row → row.status = .failed →
    options.maxAttempts ≤ row.attempts

/-- Every PUBLISHING row has a live publisher. -/
def AllHeld (s : State Payload) : Prop :=
  ∀ k, s.world.statusOf k = some .publishing → ∃ e, (s.threads e).holding = some k

theorem intentKept_iff {s : State Payload} (hc : Claims options s) :
    IntentKept options s ↔ AllHeld s := by
  constructor
  · intro h k hk
    obtain ⟨row, hrow, hstatus⟩ := statusOf_eq_some.mp hk
    have hkept := h k row hrow (by simp [hstatus])
    simpa [hstatus] using hkept
  · intro h k row hrow hne
    cases hstatus : row.status with
    | published => exact absurd hstatus hne
    | pending => exact Or.inl rfl
    | failed => exact Or.inr (Or.inl ⟨rfl, hc.exhausted k row hrow hstatus⟩)
    | publishing =>
      exact Or.inr (Or.inr ⟨rfl, h k (statusOf_eq_some.mpr ⟨row, hrow, hstatus⟩)⟩)

theorem saved_status {event : OutboxRecord Payload} {rest : Rest Payload} {th : Thread Payload}
    (hth : th = .savePublished event rest ∨ th = .saveFailed event rest)
    (hd : th.Decided options) : event.status ≠ .publishing ∧
      (event.status = .failed → options.maxAttempts ≤ event.attempts) := by
  rcases hth with rfl | rfl <;> simp only [Thread.Decided] at hd <;> grind

section Effect
variable {s s' : State Payload} {e : ℕ} {th' : Thread Payload} {keeps : Bool}

theorem statusOf_congr {w w' : World Payload} (h : w'.rows = w.rows) (k : ReadableId) :
    w'.statusOf k = w.statusOf k := by
  rw [World.statusOf, h]
  rfl

theorem holding_saved {event : OutboxRecord Payload} {rest : Rest Payload} {th : Thread Payload}
    (hth : th = .savePublished event rest ∨ th = .saveFailed event rest) :
    th.holding = some event.id := by
  rcases hth with rfl | rfl <;> rfl

/-- Whoever holds a row after the step held it before, or has just claimed it from PENDING. -/
theorem effect_holding (heff : Effect s.world s'.world (s.threads e) th' keeps) {k : ReadableId}
    (hk : th'.holding = some k) :
    (s.threads e).holding = some k ∨
      (s.world.statusOf k = some .pending ∧ s'.world.statusOf k = some .publishing) := by
  rcases heff with ⟨_, hsame, _⟩ | ⟨j, _, hpending, hrows, ⟨hj, _⟩ | ⟨hnone, _⟩⟩ |
    ⟨event, rest, hth, _, _, hnone | ⟨_, hj⟩⟩ | ⟨j, _, _, hnone, _⟩
  · exact Or.inl (hsame ▸ hk)
  · rw [hk, Option.some.injEq] at hj
    subst hj
    exact Or.inr ⟨hpending, by rw [statusOf_congr hrows, claimRow_statusOf hpending, if_pos rfl]⟩
  · cases hnone.symm.trans hk
  · cases hnone.symm.trans hk
  · exact Or.inl (by rw [holding_saved hth, ← hj, hk])
  · cases hnone.symm.trans hk

/-- A row changes its status under its holder, or by a claim from PENDING. -/
theorem effect_statusOf (heff : Effect s.world s'.world (s.threads e) th' keeps) (k : ReadableId) :
    s'.world.statusOf k = s.world.statusOf k ∨ s.world.statusOf k = some .pending ∨
      (s.threads e).holding = some k := by
  rcases heff with ⟨hrows, _⟩ | ⟨j, _, hpending, hrows, _⟩ | ⟨event, rest, hth, hrows, _⟩ |
    ⟨j, _, hrows, _⟩
  · exact Or.inl (statusOf_congr hrows k)
  · rw [statusOf_congr hrows, claimRow_statusOf hpending]
    split
    · next hk => exact Or.inr (Or.inl (hk ▸ hpending))
    · exact Or.inl rfl
  · rw [statusOf_congr hrows, save_statusOf, holding_saved hth]
    split
    · next hk => exact Or.inr (Or.inr (hk ▸ rfl))
    · exact Or.inl rfl
  · exact Or.inl (statusOf_congr hrows k)

/-- A row that is still held has the status it had, or the save as PUBLISHED was rejected. -/
theorem effect_still_held (heff : Effect s.world s'.world (s.threads e) th' keeps)
    {k : ReadableId} (hdecided : (s.threads e).Decided options)
    (hbefore : (s.threads e).holding = some k) (hk : th'.holding = some k) :
    s'.world.statusOf k = s.world.statusOf k ∨ s'.world.statusOf k = some .published := by
  rcases heff with ⟨hrows, _⟩ | ⟨j, hnone, _⟩ | ⟨event, rest, hth, hrows, _, hnone | ⟨hsave, _⟩⟩ |
    ⟨j, _, hrows, _⟩
  · exact Or.inl (statusOf_congr hrows k)
  · cases hnone.symm.trans hbefore
  · cases hnone.symm.trans hk
  · rw [statusOf_congr hrows, save_statusOf]
    rw [holding_saved hth, Option.some.injEq] at hbefore
    rw [hsave, Thread.Decided] at hdecided
    exact Or.inr (by rw [if_pos hbefore.symm, hdecided])
  · exact Or.inl (statusOf_congr hrows k)

theorem effect_exhausted (hc : Claims options s)
    (heff : Effect s.world s'.world (s.threads e) th' keeps) {k : ReadableId}
    {row : OutboxRecord Payload} (hrow : s'.world.rows.row k = some row)
    (hfailed : row.status = .failed) : options.maxAttempts ≤ row.attempts := by
  rcases heff with ⟨hrows, _⟩ | ⟨j, _, hpending, hrows, _⟩ | ⟨event, rest, hth, hrows, _⟩ |
    ⟨j, _, hrows, _⟩
  · exact hc.exhausted k row (hrows ▸ hrow) hfailed
  · rw [hrows, claimRow_row hpending] at hrow
    split at hrow
    · obtain ⟨row', -, rfl⟩ := Option.map_eq_some_iff.mp hrow
      cases hfailed
    · exact hc.exhausted k row hrow hfailed
  · rw [hrows, save_row] at hrow
    split at hrow
    · cases hrow
      exact (saved_status hth (hc.decided e)).2 hfailed
    · exact hc.exhausted k row hrow hfailed
  · exact hc.exhausted k row (hrows ▸ hrow) hfailed

theorem effect_claims (hc : Claims options s)
    (heff : Effect s.world s'.world (s.threads e) th' keeps) (hdecided : th'.Decided options)
    (hdone : s.threads e = .done → th' = .done) (hnext : s'.nextThread = s.nextThread)
    (hthreads : ∀ e', s'.threads e' = if e' = e then th' else s.threads e') :
    Claims options s' where
  beyond := by
    intro e' he'
    have := hc.beyond e'
    grind
  held := by
    intro e' k hk
    rw [hthreads] at hk
    split at hk
    · rcases effect_holding heff hk with hbefore | ⟨-, hpublishing⟩
      · rcases effect_still_held heff (hc.decided e) hbefore hk with hsame | hpublished
        · rw [hsame]
          exact hc.held e k hbefore
        · exact Or.inr hpublished
      · exact Or.inl hpublishing
    · next hne =>
      have hstatus := hc.held e' k hk
      rcases effect_statusOf heff k with hsame | hpending | hother
      · rw [hsame]
        exact hstatus
      · rw [hpending] at hstatus
        rcases hstatus with h | h <;> cases h
      · exact absurd (hc.unique e' e k hk hother) hne
  unique := by
    intro i j k hi hj
    have hbefore := @effect_holding _ s s' e th' keeps heff k
    have hheld := hc.held
    have hunique := hc.unique
    grind
  decided := by
    intro e'
    rw [hthreads]
    split
    · exact hdecided
    · exact hc.decided e'
  exhausted := fun _ _ hrow hfailed => effect_exhausted hc heff hrow hfailed

/-- A PUBLISHING row is without a publisher after the step exactly if the step lost its claim. -/
theorem effect_allHeld (hc : Claims options s) (hall : AllHeld s)
    (heff : Effect s.world s'.world (s.threads e) th' keeps)
    (hthreads : ∀ e', s'.threads e' = if e' = e then th' else s.threads e') :
    AllHeld s' ↔ keeps = true := by
  have hother : ∀ k, s.world.statusOf k = some .publishing → (s.threads e).holding ≠ some k →
      ∃ e', (s'.threads e').holding = some k := by
    intro k hk hne
    obtain ⟨e', he'⟩ := hall k hk
    refine ⟨e', ?_⟩
    rw [hthreads, if_neg (by rintro rfl; exact hne he')]
    exact he'
  have hself : (s'.threads e).holding = th'.holding := by rw [hthreads, if_pos rfl]
  rcases heff with ⟨hrows, hsame, hkeeps⟩ | ⟨j, hnone, hpending, hrows, hnext⟩ |
    ⟨event, rest, hth, hrows, hkeeps, _⟩ | ⟨j, hj, hrows, hnone, hkeeps⟩
  · refine iff_of_true (fun k hk => ?_) hkeeps
    rw [statusOf_congr hrows] at hk
    by_cases hown : (s.threads e).holding = some k
    · exact ⟨e, by rw [hself, hsame, hown]⟩
    · exact hother k hk hown
  · have hstatus : ∀ k, s'.world.statusOf k =
        if k = j then some .publishing else s.world.statusOf k := fun k => by
      rw [statusOf_congr hrows, claimRow_statusOf hpending]
    rcases hnext with ⟨hj, hkeeps⟩ | ⟨hlost, hkeeps⟩
    · refine iff_of_true (fun k hk => ?_) hkeeps
      rw [hstatus] at hk
      split at hk
      · next h => exact ⟨e, by rw [hself, hj, h]⟩
      · exact hother k hk (by rw [hnone]; simp)
    · refine iff_of_false (fun hall' => ?_) (by rw [hkeeps]; simp)
      obtain ⟨e', he'⟩ := hall' j (by rw [hstatus, if_pos rfl])
      rw [hthreads] at he'
      split at he'
      · cases hlost.symm.trans he'
      · have hheld := hc.held e' j he'
        rw [hpending] at hheld
        rcases hheld with h | h <;> cases h
  · refine iff_of_true (fun k hk => ?_) hkeeps
    have hsaved := (saved_status hth (hc.decided e)).1
    rw [statusOf_congr hrows, save_statusOf] at hk
    split at hk
    · exact absurd (Option.some.inj hk) hsaved
    · next hne => exact hother k hk (by rw [holding_saved hth]; grind)
  · rw [hkeeps]
    constructor
    · intro hall' hpublishing
      obtain ⟨e', he'⟩ := hall' j (by rw [statusOf_congr hrows]; exact hpublishing)
      rw [hthreads] at he'
      split at he'
      · cases hnone.symm.trans he'
      · next hne => exact hne (hc.unique e' e j he' hj)
    · intro hne k hk
      rw [statusOf_congr hrows] at hk
      refine hother k hk ?_
      rw [hj]
      rintro ⟨rfl⟩
      exact hne hk

end Effect

/-! ## Runs -/

theorem claims_initial : Claims options (initial : State Payload) where
  beyond := fun _ _ => rfl
  held := fun _ _ h => by cases h
  unique := fun _ _ _ h => by cases h
  decided := fun _ => trivial
  exhausted := fun _ _ h => by cases h

theorem spawn_claims {s : State Payload} {th : Thread Payload} (hc : Claims options s)
    (hnone : th.holding = none) (hdecided : th.Decided options) :
    Claims options (s.spawn th) where
  beyond := by
    intro e he
    have := hc.beyond e
    simp only [State.spawn, Function.update_apply] at he ⊢
    grind
  held := by
    intro e k hk
    have := hc.held e k
    simp only [State.spawn, Function.update_apply] at hk ⊢
    grind
  unique := by
    intro e e' k he he'
    have := hc.unique e e' k
    simp only [State.spawn, Function.update_apply] at he he'
    grind
  decided := by
    intro e
    have := hc.decided e
    simp only [State.spawn, Function.update_apply]
    grind
  exhausted := hc.exhausted

/-- The new thread takes the place of one that is done. -/
theorem spawn_allHeld {s : State Payload} {th : Thread Payload} (hc : Claims options s)
    (hall : AllHeld s) : AllHeld (s.spawn th) := by
  intro k hk
  obtain ⟨e, he⟩ := hall k hk
  refine ⟨e, ?_⟩
  have hbeyond := hc.beyond e
  simp only [State.spawn, Function.update_apply]
  split
  · rw [hbeyond (by omega)] at he
    cases he
  · exact he

theorem commit_claims {s : State Payload} {event : OutboxRecord Payload} (hc : Claims options s)
    (hnew : s.world.rows.row event.id = none) (hpending : event.status = .pending) :
    Claims options { s with world := s.world.save event } where
  beyond := hc.beyond
  held := by
    intro e k hk
    have hheld := hc.held e k hk
    rw [save_statusOf, if_neg]
    · exact hheld
    · rintro rfl
      simp [World.statusOf, hnew] at hheld
  unique := hc.unique
  decided := hc.decided
  exhausted := by
    intro k row hrow hfailed
    rw [save_row] at hrow
    split at hrow
    · cases hrow
      rw [hpending] at hfailed
      cases hfailed
    · exact hc.exhausted k row hrow hfailed

theorem commit_allHeld {s : State Payload} {event : OutboxRecord Payload} (hall : AllHeld s)
    (hpending : event.status = .pending) :
    AllHeld { s with world := s.world.save event } := by
  intro k hk
  rw [save_statusOf, hpending] at hk
  split at hk
  · cases hk
  · exact hall k hk

/-- One step: it keeps the claims, and all PUBLISHING rows held exactly if it loses none. -/
theorem step_claims {s s' : State Payload} {l : Label Payload} (hc : Claims options s)
    (h : step options s l = some s') :
    Claims options s' ∧ (AllHeld s → (AllHeld s' ↔ keepsClaims s l = true)) := by
  cases l with
  | tick ms =>
    cases h
    exact ⟨⟨hc.beyond, hc.held, hc.unique, hc.decided, hc.exhausted⟩,
      fun hall => iff_of_true hall rfl⟩
  | commit id payload =>
    simp only [step] at h
    split at h
    · next hnew =>
      cases h
      exact ⟨commit_claims hc hnew rfl, fun hall => iff_of_true (commit_allHeld hall rfl) rfl⟩
    · cases h
  | publishMany ids =>
    cases h
    exact ⟨spawn_claims hc (next_holding _) (next_decided _),
      fun hall => iff_of_true (spawn_allHeld hc hall) rfl⟩
  | publishPendingBatch =>
    cases h
    exact ⟨spawn_claims hc rfl trivial, fun hall => iff_of_true (spawn_allHeld hc hall) rfl⟩
  | run e o =>
    obtain ⟨th', hadv, hnext, hthreads⟩ := step_run h
    have heff := advance_effect hadv
    refine ⟨effect_claims hc heff (advance_decided hadv) (fun hdone => ?_) hnext hthreads,
      fun hall => effect_allHeld hc hall heff hthreads⟩
    rw [hdone] at hadv
    cases hadv
  | crash e =>
    cases h
    have heff := crash_effect s.world (s.threads e)
    have hthreads : ∀ e', Function.update s.threads e .done e' =
        if e' = e then .done else s.threads e' := fun e' => by rw [Function.update_apply]
    exact ⟨effect_claims hc heff trivial (fun _ => rfl) rfl hthreads,
      fun hall => effect_allHeld hc hall heff hthreads⟩

theorem reaches_claims {tr : List (Move (State Payload) (Label Payload))} {s : State Payload}
    (h : Reaches options tr s) : Claims options s :=
  Run.invariant (Claims options) (fun _ _ _ hc hs => (step_claims hc hs).1) h claims_initial

/-- The intents are kept in every state of a run exactly if none of its steps loses a claim. -/
theorem intent_kept_iff {tr : List (Move (State Payload) (Label Payload))} {s : State Payload}
    (h : Reaches options tr s) :
    (∀ x ∈ tr, IntentKept options x.target) ↔ Guarded (fun s l => keepsClaims s l = true) tr := by
  refine Run.invariant_iff (Claims options) (IntentKept options)
    (fun _ _ _ hc hs => (step_claims hc hs).1) (fun t l u hc hkept hs => ?_) h claims_initial ?_
  · obtain ⟨hc', hstep⟩ := step_claims hc hs
    rw [intentKept_iff hc']
    exact hstep ((intentKept_iff hc).mp hkept)
  · exact fun _ _ hrow => by cases hrow

/-- Publishing goes through the first time; a second publisher finds the row taken. -/
theorem intent_kept_published : ∃ tr s, Reaches ⟨10, 5⟩ tr s ∧
    (s.world : World Unit).statusOf 0 = some .published ∧
    ∀ x ∈ tr, IntentKept ⟨10, 5⟩ x.target := by
  obtain ⟨tr, s, h, hp⟩ := exists_run_of_trace (step ⟨10, 5⟩) (initial : State Unit)
    [.commit 0 (), .publishMany [0], .publishPendingBatch, .run 0 .ok, .run 1 .ok, .run 0 .ok,
      .run 1 .ok, .run 0 .ok, .run 0 .ok]
    (fun r => (r.1.all fun x => keepsClaims x.source x.label) &&
      decide (r.2.world.statusOf 0 = some .published)) (by decide +kernel)
  rw [Bool.and_eq_true, decide_eq_true_eq] at hp
  exact ⟨tr, s, h, hp.2, (intent_kept_iff h).mpr (guarded_of_all hp.1)⟩

/-- The publisher crashes between its claim and the call of the broker. -/
theorem intent_lost : ¬ ∀ (options : OutboxModuleOptions)
    (tr : List (Move (State Unit) (Label Unit))) (s : State Unit),
    Reaches options tr s → IntentKept options s := by
  intro hall
  obtain ⟨tr, s, h, hp⟩ := exists_run_of_trace (step ⟨10, 5⟩) (initial : State Unit)
    [.commit 0 (), .publishMany [0], .run 0 .ok, .run 0 .ok, .crash 0]
    (fun r => decide (r.2.world.statusOf 0 = some .publishing) && r.2.nextThread = 1 &&
      (r.2.threads 0).holding = none) (by decide +kernel)
  simp only [Bool.and_eq_true, decide_eq_true_eq] at hp
  obtain ⟨⟨hstatus, hnext⟩, hnone⟩ := hp
  have hc := reaches_claims h
  obtain ⟨e, he⟩ := (intentKept_iff hc).mp (hall ⟨10, 5⟩ tr s h) 0 hstatus
  cases e with
  | zero => cases hnone.symm.trans he
  | succ e =>
    rw [hc.beyond (e + 1) (by omega)] at he
    cases he

end Bumpa.Outbox
