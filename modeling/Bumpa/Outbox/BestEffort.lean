import Bumpa.Outbox.OutboxService

/-! # Best-effort publishing

`publishMany` runs `publishById` for one id after another and catches nothing itself: what rejects
outside the `try` of `publishRecord`, or in its catch block, ends the loop and rejects the call.

An execution has at most five calls for each id (`runs_le`) and goes on whatever they do
(`advance_isSome`), so that `publishMany` settles. `publishMany_best_effort_iff`: it resolves and
has attempted every id exactly if no call fails but the publish and the save after it
(`failsInside`). What other executions and processes do in between is left open.
-/
namespace Bumpa.Outbox
open Bumpa.Events Bumpa.Relational Bumpa.Transition
set_option autoImplicit false

variable {Payload : Type} {options : OutboxModuleOptions}

/-- The next call is made inside the `try` of `publishRecord`. -/
def Thread.inTry : Thread Payload → Bool
  | .publish _ _ | .savePublished _ _ => true
  | _ => false

def Thread.isDone : Thread Payload → Bool
  | .done => true
  | _ => false

def runs (e : ℕ) (x : Move (State Payload) (Label Payload)) : Bool :=
  match x.label with
  | .run e' _ => e' = e
  | _ => false

/-- The id that execution `e` turns to with this transition. -/
def attempt (e : ℕ) (x : Move (State Payload) (Label Payload)) : Option ReadableId :=
  match x.label, x.source.threads e with
  | .run e' _, .findOne id _ => if e' = e then some id else none
  | _, _ => none

def attempted (e : ℕ) (tr : List (Move (State Payload) (Label Payload))) : List ReadableId :=
  tr.filterMap (attempt e)

/-- A failing call ends execution `e`: its promise rejects. -/
def rejected (e : ℕ) (x : Move (State Payload) (Label Payload)) : Bool :=
  match x.label with
  | .run e' (.fails _ _) => e' = e && (x.target.threads e).isDone
  | _ => false

/-- Of the calls of execution `e`, only a publish or the save after it fails. -/
def failsInside (e : ℕ) (s : State Payload) : Label Payload → Bool
  | .run e' (.fails _ _) => e' ≠ e || (s.threads e).inTry
  | _ => true

/-- The process of execution `e` lives on. -/
def survives (e : ℕ) (_ : State Payload) : Label Payload → Bool
  | .crash e' => e' ≠ e
  | _ => true

/-! ## One call -/

/-- The ids that the loop has not turned to yet. -/
def Rest.waiting : Rest Payload → List ReadableId
  | .ids rest => rest
  | .batch _ => []

def Thread.waiting : Thread Payload → List ReadableId
  | .done | .find => []
  | .findOne id rest => id :: rest
  | .claim _ rest | .publish _ rest | .savePublished _ rest | .saveFailed _ rest => rest.waiting

def Thread.attempt : Thread Payload → Option ReadableId
  | .findOne id _ => some id
  | _ => none

/-- How many calls an execution has left, at most. -/
def Rest.calls : Rest Payload → ℕ
  | .ids rest => 5 * rest.length
  | .batch rest => 4 * rest.length

def Thread.calls (options : OutboxModuleOptions) : Thread Payload → ℕ
  | .done => 0
  | .findOne _ rest => 5 * rest.length + 5
  | .find => 4 * options.batchSize + 1
  | .claim _ rest => rest.calls + 4
  | .publish _ rest => rest.calls + 3
  | .savePublished _ rest => rest.calls + 2
  | .saveFailed _ rest => rest.calls + 1

theorem next_waiting (rest : Rest Payload) : rest.next.waiting = rest.waiting := by
  cases rest with
  | ids rest => cases rest <;> rfl
  | batch rest => cases rest <;> rfl

theorem next_calls (rest : Rest Payload) : rest.next.calls options = rest.calls := by
  cases rest with
  | ids rest => cases rest <;> rfl
  | batch rest => cases rest <;> rfl

theorem pendingBatch_length (options : OutboxModuleOptions) (rows : OutboxTable Payload) :
    (pendingBatch options rows).length ≤ options.batchSize :=
  List.length_take_le _ _

section Advance
variable {w w' : World Payload} {th th' : Thread Payload} {o : Outcome}

theorem advance_isSome (w : World Payload) (h : th ≠ .done) (o : Outcome) :
    (advance options w th o).isSome = true := by
  cases th with
  | done => exact absurd rfl h
  | findOne id rest =>
    cases o with
    | ok =>
      simp only [advance]
      split
      · rfl
      · split <;> rfl
    | fails error written => rfl
  | claim event rest =>
    cases o with
    | ok =>
      simp only [advance]
      split <;> rfl
    | fails error written => rfl
  | _ => cases o <;> rfl

theorem advance_calls (h : advance options w th o = some (w', th')) :
    th'.calls options + 1 ≤ th.calls options := by
  cases th with
  | done => cases h
  | findOne id rest =>
    cases o with
    | ok =>
      simp only [advance] at h
      split at h
      · cases h
        rw [next_calls]
        simp [Thread.calls, Rest.calls]
      · split at h <;> cases h
        · rw [next_calls]
          simp [Thread.calls, Rest.calls]
        · simp [Thread.calls, Rest.calls]
    | fails error written =>
      cases h
      simp [Thread.calls]
  | find =>
    cases o with
    | ok =>
      cases h
      have := pendingBatch_length options w.rows
      rw [next_calls]
      simp only [Thread.calls, Rest.calls]
      omega
    | fails error written =>
      cases h
      simp [Thread.calls]
  | claim event rest =>
    cases o with
    | ok =>
      simp only [advance] at h
      split at h <;> cases h
      · simp [Thread.calls]
      · rw [next_calls]
        simp [Thread.calls]
    | fails error written =>
      cases h
      simp [Thread.calls]
  | publish event rest => cases o <;> cases h <;> simp [Thread.calls]
  | savePublished event rest =>
    cases o <;> cases h
    · rw [next_calls]
      simp [Thread.calls]
    · simp [Thread.calls]
  | saveFailed event rest =>
    cases o <;> cases h
    · rw [next_calls]
      simp [Thread.calls]
    · simp [Thread.calls]

/-- A call that fails outside the `try` ends the execution, a failure inside it does not. -/
theorem advance_fails {error : String} {written : Bool}
    (h : advance options w th (.fails error written) = some (w', th')) :
    th'.isDone = !th.inTry := by
  cases th <;> cases h <;> rfl

/-- An execution whose failing call is in the `try` keeps every id but the one it turns to. -/
theorem advance_waiting (h : advance options w th o = some (w', th'))
    (hinside : o = .ok ∨ th.inTry = true) : th.attempt.toList ++ th'.waiting = th.waiting := by
  cases th with
  | done => cases h
  | findOne id rest =>
    cases o with
    | ok =>
      simp only [advance] at h
      split at h
      · cases h
        rw [next_waiting]
        rfl
      · split at h <;> cases h
        · rw [next_waiting]
          rfl
        · rfl
    | fails error written => rcases hinside with hin | hin <;> cases hin
  | find =>
    cases o with
    | ok =>
      cases h
      rw [next_waiting]
      rfl
    | fails error written => rcases hinside with hin | hin <;> cases hin
  | claim event rest =>
    cases o with
    | ok =>
      simp only [advance] at h
      split at h <;> cases h
      · rfl
      · rw [next_waiting]
        rfl
    | fails error written => rcases hinside with hin | hin <;> cases hin
  | publish event rest => cases o <;> cases h <;> rfl
  | savePublished event rest =>
    cases o <;> cases h
    · rw [next_waiting]
      rfl
    · rfl
  | saveFailed event rest =>
    cases o with
    | ok =>
      cases h
      rw [next_waiting]
      rfl
    | fails error written => rcases hinside with hin | hin <;> cases hin

end Advance

/-! ## One step of the system -/

/-- What a step does to an execution that has started. -/
inductive Moves (options : OutboxModuleOptions) (e : ℕ) (s s' : State Payload) :
    Label Payload → Prop
  | runs (o : Outcome)
      (advances : advance options s.world (s.threads e) o = some (s'.world, s'.threads e)) :
      Moves options e s s' (.run e o)
  | crashes (ends : s'.threads e = .done) : Moves options e s s' (.crash e)
  | rests {l : Label Payload} (elsewhere : ∀ o, l ≠ .run e o) (same : s'.threads e = s.threads e) :
      Moves options e s s' l

section Step
variable {s s' : State Payload} {l : Label Payload} {e : ℕ}

theorem spawn_threads (th : Thread Payload) (he : e < s.nextThread) :
    (s.spawn th).threads e = s.threads e :=
  Function.update_of_ne (Nat.ne_of_lt he) _ _

theorem step_moves (he : e < s.nextThread) (h : step options s l = some s') :
    e < s'.nextThread ∧ Moves options e s s' l := by
  cases l with
  | tick ms =>
    cases h
    exact ⟨he, .rests (fun _ => by simp) rfl⟩
  | commit id payload =>
    simp only [step] at h
    split at h <;> cases h
    exact ⟨he, .rests (fun _ => by simp) rfl⟩
  | publishMany ids =>
    cases h
    exact ⟨Nat.lt_succ_of_lt he, .rests (fun _ => by simp) (spawn_threads _ he)⟩
  | publishPendingBatch =>
    cases h
    exact ⟨Nat.lt_succ_of_lt he, .rests (fun _ => by simp) (spawn_threads _ he)⟩
  | run e' o =>
    obtain ⟨th', hadv, hnext, hthreads⟩ := step_run h
    refine ⟨hnext ▸ he, ?_⟩
    by_cases hsame : e' = e
    · subst hsame
      rw [← (hthreads e').trans (if_pos rfl)] at hadv
      exact .runs o hadv
    · exact .rests (fun o' ho => hsame (Label.run.inj ho).1)
        ((hthreads e).trans (if_neg (Ne.symm hsame)))
  | crash e' =>
    cases h
    refine ⟨he, ?_⟩
    by_cases hsame : e' = e
    · subst hsame
      exact .crashes (Function.update_self _ _ _)
    · exact .rests (fun _ => by simp) (Function.update_of_ne (Ne.symm hsame) _ _)

theorem attempt_rests (h : ∀ o, l ≠ .run e o) : attempt e ⟨s, l, s'⟩ = none := by
  unfold attempt
  split
  · next e' o id rest hl hth =>
    refine if_neg fun he => h o ?_
    rw [← he]
    exact hl
  · rfl

theorem attempt_run (o : Outcome) :
    attempt e ⟨s, .run e o, s'⟩ = (s.threads e).attempt := by
  cases h : s.threads e <;> simp [attempt, Thread.attempt, h]

/-- An execution keeps the ids it has turned to and those that wait. -/
theorem step_waiting {ids : List ReadableId} {tr : List (Move (State Payload) (Label Payload))}
    (he : e < s.nextThread) (hs : attempted e tr ++ (s.threads e).waiting = ids)
    (hcrash : survives e s l = true) (hinside : failsInside e s l = true)
    (h : step options s l = some s') :
    attempted e (tr ++ [⟨s, l, s'⟩]) ++ (s'.threads e).waiting = ids := by
  rw [attempted, filterMap_snoc, List.append_assoc]
  cases (step_moves he h).2 with
  | runs o advances =>
    rw [attempt_run, advance_waiting advances ?_]
    · exact hs
    · cases o with
      | ok => exact Or.inl rfl
      | fails error written =>
        simp only [failsInside, ne_eq, not_true_eq_false, decide_false, Bool.false_or] at hinside
        exact Or.inr hinside
  | crashes ends => exact absurd rfl (of_decide_eq_true hcrash)
  | rests elsewhere same =>
    rw [attempt_rests elsewhere, same]
    exact hs

/-- The promise rejects exactly with the failures outside the `try`. -/
theorem rejected_iff (he : e < s.nextThread) (h : step options s l = some s') :
    rejected e ⟨s, l, s'⟩ = !failsInside e s l := by
  cases l with
  | run e' o =>
    cases o with
    | ok => rfl
    | fails error written =>
      by_cases hsame : e' = e
      · subst hsame
        cases (step_moves he h).2 with
        | runs _ advances => simp [rejected, failsInside, advance_fails advances]
        | rests elsewhere => exact absurd rfl (elsewhere _)
      · simp [rejected, failsInside, hsame]
  | _ => rfl

end Step

/-! ## The result -/

section Run
variable {s₁ s : State Payload} {tr : List (Move (State Payload) (Label Payload))} {e : ℕ}

theorem run_started (he : e < s₁.nextThread) (h : Run (step options) s₁ tr s) :
    e < s.nextThread ∧ ∀ x ∈ tr, e < x.source.nextThread :=
  have hall := h.invariant_all (fun s => e < s.nextThread)
    (fun _ _ _ he hstep => (step_moves he hstep).1) he
  ⟨hall.1, fun x hx => (hall.2 x hx).1⟩

theorem runs_le (he : e < s₁.nextThread) (h : Run (step options) s₁ tr s) :
    tr.countP (runs e) + (s.threads e).calls options ≤ (s₁.threads e).calls options := by
  have hstarted : Guarded (fun s _ => e < s.nextThread) tr := (run_started he h).2
  refine h.countP_add_le (runs e) (fun s => (s.threads e).calls options)
    (fun s l t he hstep => ?_) hstarted
  cases (step_moves he hstep).2 with
  | runs o advances => simpa [runs] using advance_calls advances
  | crashes ends => simp [runs, ends, Thread.calls]
  | rests elsewhere same =>
    have hruns : runs e ⟨s, l, t⟩ = false := by
      cases l with
      | run e' o =>
        refine decide_eq_false fun hsame => elsewhere o ?_
        rw [hsame]
      | _ => rfl
    rw [hruns, same]
    exact Nat.le_refl _

/-- `publishMany` has a bounded number of calls and goes on after each of them. Once it has settled,
it has resolved and attempted every id exactly if no call failed outside the `try`. -/
theorem publishMany_best_effort_iff {s₀ : State Payload} {ids : List ReadableId}
    (hcall : step options s₀ (.publishMany ids) = some s₁) (h : Run (step options) s₁ tr s)
    (hcrash : Guarded (fun s l => survives s₀.nextThread s l = true) tr) :
    tr.countP (runs s₀.nextThread) ≤ 5 * ids.length ∧
    (s.threads s₀.nextThread ≠ .done → ∀ o, ∃ s', step options s (.run s₀.nextThread o) = some s') ∧
    (s.threads s₀.nextThread = .done →
      ((attempted s₀.nextThread tr = ids ∧ ∀ x ∈ tr, rejected s₀.nextThread x = false) ↔
        Guarded (fun s l => failsInside s₀.nextThread s l = true) tr)) := by
  cases hcall
  have hthread : (s₀.spawn (Rest.ids ids).next).threads s₀.nextThread = (Rest.ids ids).next :=
    Function.update_self _ _ _
  have he : s₀.nextThread < (s₀.spawn (Rest.ids ids).next).nextThread := Nat.lt_succ_self _
  have hcalls := runs_le he h
  rw [hthread, next_calls, Rest.calls] at hcalls
  refine ⟨Nat.le_of_add_right_le hcalls, fun hnext o => ?_, fun hdone => ?_⟩
  · obtain ⟨r, hr⟩ := Option.isSome_iff_exists.mp (advance_isSome s.world hnext o)
    exact ⟨_, congrArg (Option.map _) hr⟩
  · have hrejected : (∀ x ∈ tr, rejected s₀.nextThread x = false) ↔
        Guarded (fun s l => failsInside s₀.nextThread s l = true) tr := by
      refine forall₂_congr fun x hx => ?_
      have hx' : x = ⟨x.source, x.label, x.target⟩ := rfl
      rw [hx', rejected_iff ((run_started he h).2 x hx) (h.step_of_mem x hx), Bool.not_eq_false']
    refine ⟨fun hall => hrejected.mp hall.2, fun hinside => ⟨?_, hrejected.mpr hinside⟩⟩
    have hG : Guarded (fun s l => survives s₀.nextThread s l = true ∧
        failsInside s₀.nextThread s l = true) tr := fun x hx => ⟨hcrash x hx, hinside x hx⟩
    have hkept := Run.guarded_history
      (fun tr s => attempted s₀.nextThread tr ++ (s.threads s₀.nextThread).waiting = ids)
      (by rw [hthread, next_waiting]; rfl)
      (fun tr t l u hrun hG hs hstep =>
        step_waiting (run_started he hrun).1 hs hG.1 hG.2 hstep) h hG
    rwa [hdone, Thread.waiting, List.append_nil] at hkept

end Run

/-- Two rows wait for their immediate publish. -/
def twoCommitted : State Unit :=
  { (initial : State Unit) with
    world := ((initial : State Unit).world.save (.create 0 () 0)).save (.create 1 () 0) }

theorem done_of_isDone {th : Thread Payload} (h : th.isDone = true) : th = .done := by
  cases th <;> first | rfl | cases h

/-- The broker rejects the first id, and the second is published. -/
theorem publishMany_best_effort_unreachable : ∃ tr s,
    Run (step ⟨10, 5⟩) (twoCommitted.spawn (Rest.ids [0, 1]).next) tr s ∧
    attempted 0 tr = [0, 1] ∧ ∀ x ∈ tr, rejected 0 x = false := by
  obtain ⟨tr, s, h, hp⟩ := exists_run_of_trace (step ⟨10, 5⟩)
    (twoCommitted.spawn (Rest.ids [0, 1]).next)
    [.run 0 .ok, .run 0 .ok, .run 0 (.fails "unreachable" false), .run 0 .ok, .run 0 .ok,
      .run 0 .ok, .run 0 .ok, .run 0 .ok]
    (fun r => (r.1.all fun x => survives 0 x.source x.label) &&
      (r.1.all fun x => failsInside 0 x.source x.label) && (r.2.threads 0).isDone)
    (by decide +kernel)
  simp only [Bool.and_eq_true] at hp
  obtain ⟨⟨hsurvives, hinside⟩, hdone⟩ := hp
  have hcall : step ⟨10, 5⟩ twoCommitted (.publishMany [0, 1]) =
    some (twoCommitted.spawn (Rest.ids [0, 1]).next) := rfl
  obtain ⟨-, -, hiff⟩ := publishMany_best_effort_iff hcall h (guarded_of_all hsurvives)
  exact ⟨tr, s, h, (hiff (done_of_isDone hdone)).mpr (guarded_of_all hinside)⟩

/-- The look-up of the first id fails, and the second is not attempted. -/
theorem second_not_attempted : ¬ ∀ (options : OutboxModuleOptions) (ids : List ReadableId)
    (s₀ s₁ s : State Unit) (tr : List (Move (State Unit) (Label Unit))),
    step options s₀ (.publishMany ids) = some s₁ → Run (step options) s₁ tr s →
    Guarded (fun s l => survives s₀.nextThread s l = true) tr →
    s.threads s₀.nextThread = .done →
    attempted s₀.nextThread tr = ids ∧ ∀ x ∈ tr, rejected s₀.nextThread x = false := by
  intro hall
  obtain ⟨tr, s, h, hp⟩ := exists_run_of_trace (step ⟨10, 5⟩)
    (twoCommitted.spawn (Rest.ids [0, 1]).next) [.run 0 (.fails "connection lost" false)]
    (fun r => (r.1.all fun x => survives 0 x.source x.label) && (r.2.threads 0).isDone &&
      decide (attempted 0 r.1 = [0])) (by decide +kernel)
  simp only [Bool.and_eq_true, decide_eq_true_eq] at hp
  obtain ⟨⟨hsurvives, hdone⟩, hfirst⟩ := hp
  have hboth := (hall ⟨10, 5⟩ [0, 1] twoCommitted _ s tr rfl h (guarded_of_all hsurvives)
    (done_of_isDone hdone)).1
  have hone : [0] = [0, 1] := hfirst.symm.trans hboth
  cases hone

end Bumpa.Outbox
