import Bumpa.Transition.Lease
import Bumpa.Transition.Run
import Mathlib.Logic.Function.Basic

/-! # `ScheduledOutboxPublisher` (`packages/outbox-sdk`)

Every pod ticks: a `publishPending` acquires the lock, has a batch published while a heartbeat
extends the lock, and releases it. Calls of any number of pods share the key in Redis. A call stops
at its three awaited calls, each of which resolves or rejects; a command that is rejected may have
been executed. A pod's commands are executed in the order in which it has sent them, so a call's
extensions come before its release.

The batch is `OutboxService.publishPendingBatch`; here it only resolves or rejects. Ticks start with
`onModuleInit` and end with `onModuleDestroy`, after which commands are rejected.

`never_wedged_iff`: whenever no call of a pod is in progress its flag is reset and its heartbeats are
stopped, throughout a run, exactly if the run has no lock acquisition or release that is rejected.
-/
namespace Bumpa.Outbox.Scheduled
open Bumpa.Transition
set_option autoImplicit false

/-- `${process.pid}:${Date.now()}`. -/
structure LockValue where
  pid : ℕ
  now : ℕ
  deriving DecidableEq, Repr

/-- What a call of `publishPending` awaits. -/
inductive Pc where
  | acquireLock
  | publishPendingBatch
  | releaseLock
  | done
  deriving DecidableEq, Repr

/-- `extending` counts the `extendLock`s that are sent and not executed. -/
structure Call where
  pod : ℕ
  lockValue : LockValue
  pc : Pc
  heartbeat : Bool
  extending : ℕ
  deriving DecidableEq, Repr

/-- `running` is the flag of each pod; `key` is held by the call that has set it. -/
structure State where
  running : ℕ → Bool
  calls : ℕ → Call
  nextCall : ℕ
  key : Option (Lease LockValue ℕ)
  time : ℕ

inductive Outcome where
  | ok
  | fails (executed : Bool)
  deriving DecidableEq, Repr

def Outcome.executed : Outcome → Bool
  | .ok => true
  | .fails executed => executed

/-- `tick` calls `publishPending`, with the pod's id of the process and clock. -/
inductive Label where
  | tick (pod pid now : ℕ)
  | run (e : ℕ) (outcome : Outcome)
  | heartbeat (e : ℕ)
  | extendLock (e : ℕ) (outcome : Outcome)
  | elapse (ms : ℕ)
  deriving DecidableEq, Repr

namespace State

def setCall (s : State) (e : ℕ) (call : Call) : State :=
  { s with calls := Function.update s.calls e call }

def setRunning (s : State) (pod : ℕ) (running : Bool) : State :=
  { s with running := Function.update s.running pod running }

/-- Redis executes a command, unless it was rejected before. -/
def exec (s : State) (o : Outcome) (key : Option (Lease LockValue ℕ)) : State :=
  if o.executed then { s with key } else s

end State

/-- `running` is left set where an awaited call of the lock rejects. -/
def advance (lockTtlMs : ℕ) (s : State) (e : ℕ) (o : Outcome) : Option State :=
  let call := s.calls e
  match call.pc with
  | .done => none
  | .acquireLock =>
    let s' := s.exec o (Lease.acquire s.key call.lockValue e (s.time + lockTtlMs))
    match o, s.key with
    | .fails _, _ => some (s'.setCall e { call with pc := .done })
    | .ok, some _ => some ((s'.setRunning call.pod false).setCall e { call with pc := .done })
    | .ok, none => some (s'.setCall e { call with pc := .publishPendingBatch, heartbeat := true })
  | .publishPendingBatch =>
    some (s.setCall e { call with pc := .releaseLock, heartbeat := false })
  | .releaseLock =>
    if call.extending = 0 then
      let s' := (s.exec o (Lease.release s.key call.lockValue)).setCall e { call with pc := .done }
      match o with
      | .fails _ => some s'
      | .ok => some (s'.setRunning call.pod false)
    else none

def step (lockTtlMs : ℕ) (s : State) : Label → Option State
  | .tick pod pid now =>
    if s.running pod then some s
    else
      some { (s.setRunning pod true).setCall s.nextCall ⟨pod, ⟨pid, now⟩, .acquireLock, false, 0⟩ with
        nextCall := s.nextCall + 1 }
  | .run e o => advance lockTtlMs s e o
  | .heartbeat e =>
    if (s.calls e).heartbeat then
      some (s.setCall e { s.calls e with extending := (s.calls e).extending + 1 })
    else none
  | .extendLock e o =>
    if (s.calls e).extending = 0 then none
    else
      some ((s.exec o (Lease.extend s.key (s.calls e).lockValue (s.time + lockTtlMs))).setCall e
        { s.calls e with extending := (s.calls e).extending - 1 })
  | .elapse ms =>
    some { s with time := s.time + ms, key := Lease.expire s.key (s.time + ms) }

def initial : State where
  running := fun _ => false
  calls := fun _ => ⟨0, ⟨0, 0⟩, .done, false, 0⟩
  nextCall := 0
  key := none
  time := 0

abbrev Reaches (lockTtlMs : ℕ) (tr : List (Move State Label)) (s : State) : Prop :=
  Run (step lockTtlMs) initial tr s

/-! ## Calls in progress -/

def State.InProgress (s : State) (pod e : ℕ) : Prop :=
  (s.calls e).pod = pod ∧ (s.calls e).pc ≠ .done

/-- A pod without a call in progress can scan again, and has no heartbeat. -/
def NeverWedged (s : State) : Prop :=
  ∀ pod, (∀ e, ¬ s.InProgress pod e) →
    s.running pod = false ∧ ∀ e, (s.calls e).pod = pod → (s.calls e).heartbeat = false

/-- No acquisition or release of the lock is rejected. -/
def lockResolves (s : State) : Label → Bool
  | .run e (.fails _) => (s.calls e).pc ≠ .acquireLock && (s.calls e).pc ≠ .releaseLock
  | _ => true

/-- What every step keeps: a heartbeat and extensions belong to a call that holds the lock, and a pod
has one call in progress, if its flag is set. -/
structure Sound (s : State) : Prop where
  heartbeat : ∀ e, (s.calls e).heartbeat = true → (s.calls e).pc = .publishPendingBatch
  extending : ∀ e, (s.calls e).extending ≠ 0 →
    (s.calls e).pc = .publishPendingBatch ∨ (s.calls e).pc = .releaseLock
  running : ∀ pod e, s.InProgress pod e → s.running pod = true
  one : ∀ pod e e', s.InProgress pod e → s.InProgress pod e' → e = e'
  beyond : ∀ e, s.nextCall ≤ e → (s.calls e).pc = .done

/-! ## What a call changes -/

/-- Call `e` goes on as `call`, and ends if the flag of its pod changes. -/
structure Advances (s s' : State) (e : ℕ) (call : Call) : Prop where
  active : (s.calls e).pc ≠ .done
  pod : call.pod = (s.calls e).pod
  heartbeat : call.heartbeat = true → call.pc = .publishPendingBatch
  extending : call.extending ≠ 0 → call.pc = .publishPendingBatch ∨ call.pc = .releaseLock
  calls : s'.calls = Function.update s.calls e call
  nextCall : s'.nextCall = s.nextCall
  running : ∀ pod, s'.running pod = s.running pod ∨ call.pc = .done ∧ pod = call.pod

section
variable {s s' : State} {e : ℕ} {call : Call} {pod : ℕ}

theorem Advances.call_eq (h : Advances s s' e call) (e' : ℕ) :
    s'.calls e' = if e' = e then call else s.calls e' := by
  rw [h.calls, Function.update_apply]

theorem Advances.inProgress (h : Advances s s' e call) {e' : ℕ} (h' : s'.InProgress pod e') :
    s.InProgress pod e' := by
  rw [State.InProgress, h.call_eq] at h'
  split at h'
  · next heq =>
    subst heq
    exact ⟨h.pod ▸ h'.1, h.active⟩
  · exact h'

theorem Advances.sound (h : Advances s s' e call) (hs : Sound s) : Sound s' where
  heartbeat := by
    intro e' h'
    rw [h.call_eq] at h' ⊢
    split at h'
    · next heq => rw [if_pos heq]; exact h.heartbeat h'
    · next hne => rw [if_neg hne]; exact hs.heartbeat e' h'
  extending := by
    intro e' h'
    rw [h.call_eq] at h' ⊢
    split at h'
    · next heq => rw [if_pos heq]; exact h.extending h'
    · next hne => rw [if_neg hne]; exact hs.extending e' h'
  running := by
    intro pod e' h'
    have hold := h.inProgress h'
    rcases h.running pod with hsame | ⟨hdone, rfl⟩
    · rw [hsame]
      exact hs.running pod e' hold
    · have heq := hs.one call.pod e' e hold ⟨h.pod.symm, h.active⟩
      rw [State.InProgress, h.call_eq, if_pos heq] at h'
      exact absurd hdone h'.2
  one := fun pod e₁ e₂ h₁ h₂ => hs.one pod e₁ e₂ (h.inProgress h₁) (h.inProgress h₂)
  beyond := by
    intro e' he'
    rw [h.nextCall] at he'
    have hne : e' ≠ e := by
      rintro rfl
      exact h.active (hs.beyond e' he')
    rw [h.call_eq, if_neg hne]
    exact hs.beyond e' he'

/-! ## Wedged pods -/

/-- A pod with its flag set has a call in progress. -/
def State.Busy (s : State) : Prop := ∀ pod, s.running pod = true → ∃ e, s.InProgress pod e

theorem neverWedged_iff_busy (hs : Sound s) : NeverWedged s ↔ s.Busy := by
  constructor
  · intro h pod hrunning
    by_contra hnone
    rw [(h pod (not_exists.mp hnone)).1] at hrunning
    cases hrunning
  · intro h pod hnone
    refine ⟨?_, fun e he => ?_⟩
    · by_contra hrunning
      obtain ⟨e, he⟩ := h pod (by simpa using hrunning)
      exact hnone e he
    · by_contra hheartbeat
      have hbatch := hs.heartbeat e (by simpa using hheartbeat)
      exact hnone e ⟨he, by rw [hbatch]; decide⟩

/-- A call that goes on, or resets the flag of its pod. -/
theorem Advances.busy (h : Advances s s' e call) (hs : s.Busy)
    (hflag : call.pc = .done → s'.running call.pod = false) : s'.Busy := by
  intro pod hrunning
  have hbefore : s.running pod = true := by
    rcases h.running pod with hsame | ⟨hdone, rfl⟩
    · rwa [hsame] at hrunning
    · rw [hflag hdone] at hrunning
      cases hrunning
  obtain ⟨e', he'⟩ := hs pod hbefore
  refine ⟨e', ?_⟩
  rw [State.InProgress, h.call_eq]
  split
  · next heq =>
    rw [heq] at he'
    have hpod : call.pod = pod := h.pod.trans he'.1
    refine ⟨hpod, fun hdone => ?_⟩
    rw [← hpod, hflag hdone] at hrunning
    cases hrunning
  · exact he'

/-- A call that ends and leaves the flag of its pod. -/
theorem Advances.wedged (h : Advances s s' e call) (hs : Sound s) (hdone : call.pc = .done)
    (hflag : s'.running call.pod = s.running call.pod) : ¬ s'.Busy := by
  intro hbusy
  have hactive : s.InProgress call.pod e := ⟨h.pod.symm, h.active⟩
  obtain ⟨e', he'⟩ := hbusy call.pod (hflag.trans (hs.running _ e hactive))
  have heq := hs.one call.pod e' e (h.inProgress he') hactive
  rw [State.InProgress, h.call_eq, if_pos heq] at he'
  exact he'.2 hdone

/-! ## Steps -/

@[simp] theorem exec_calls (s : State) (o : Outcome) (key : Option (Lease LockValue ℕ)) :
    (s.exec o key).calls = s.calls := by
  unfold State.exec
  split <;> rfl

@[simp] theorem exec_running (s : State) (o : Outcome) (key : Option (Lease LockValue ℕ)) :
    (s.exec o key).running = s.running := by
  unfold State.exec
  split <;> rfl

@[simp] theorem exec_nextCall (s : State) (o : Outcome) (key : Option (Lease LockValue ℕ)) :
    (s.exec o key).nextCall = s.nextCall := by
  unfold State.exec
  split <;> rfl

theorem exec_setCall_calls (s : State) (o : Outcome) (key : Option (Lease LockValue ℕ)) (e : ℕ)
    (call : Call) : ((s.exec o key).setCall e call).calls = Function.update s.calls e call := by
  rw [State.setCall, exec_calls]

/-- Where the lock resolves, a call that ends resets its pod's flag, and elsewhere it leaves it. -/
def Flags (s s' : State) (call : Call) : Bool → Prop
  | true => call.pc = .done → s'.running call.pod = false
  | false => call.pc = .done ∧ s'.running call.pod = s.running call.pod

/-- A call without a heartbeat ends. -/
theorem ends_advances (hactive : (s.calls e).pc ≠ .done) (hquiet : (s.calls e).heartbeat = false)
    (hnone : (s.calls e).extending = 0)
    (hcalls : s'.calls = Function.update s.calls e { s.calls e with pc := .done })
    (hnext : s'.nextCall = s.nextCall)
    (hrunning : ∀ pod, pod ≠ (s.calls e).pod → s'.running pod = s.running pod) :
    Advances s s' e { s.calls e with pc := .done } where
  active := hactive
  pod := rfl
  heartbeat := fun h => by
    rw [hquiet] at h
    cases h
  extending := fun h => absurd hnone h
  calls := hcalls
  nextCall := hnext
  running := fun pod => by
    by_cases hpod : pod = (s.calls e).pod
    · exact Or.inr ⟨rfl, hpod⟩
    · exact Or.inl (hrunning pod hpod)

theorem lockResolves_fails {executed : Bool}
    (h : (s.calls e).pc = .acquireLock ∨ (s.calls e).pc = .releaseLock) :
    lockResolves s (.run e (.fails executed)) = false := by
  rcases h with hpc | hpc <;> simp [lockResolves, hpc]

/-- Its command is rejected: the flag of its pod stays set. -/
theorem rejected_advances {executed : Bool} (key : Option (Lease LockValue ℕ))
    (hlock : (s.calls e).pc = .acquireLock ∨ (s.calls e).pc = .releaseLock)
    (hquiet : (s.calls e).heartbeat = false) (hnone : (s.calls e).extending = 0)
    (heq : s' = (s.exec (.fails executed) key).setCall e { s.calls e with pc := .done }) :
    ∃ call, Advances s s' e call ∧ Flags s s' call (lockResolves s (.run e (.fails executed))) := by
  have hactive : (s.calls e).pc ≠ .done := by
    rcases hlock with hpc | hpc <;> rw [hpc] <;> decide
  have hsame : s'.running = s.running := by
    rw [heq, State.setCall, exec_running]
  refine ⟨_, ends_advances hactive hquiet hnone ?_ ?_ fun _ _ => by rw [hsame], ?_⟩
  · rw [heq, exec_setCall_calls]
  · rw [heq, State.setCall, exec_nextCall]
  · rw [lockResolves_fails hlock]
    exact ⟨rfl, by rw [hsame]⟩

/-- Its command resolves: the flag of its pod is reset. -/
theorem resolved_advances (key : Option (Lease LockValue ℕ))
    (hlock : (s.calls e).pc = .acquireLock ∨ (s.calls e).pc = .releaseLock)
    (hquiet : (s.calls e).heartbeat = false) (hnone : (s.calls e).extending = 0)
    (heq : s' = ((s.exec .ok key).setCall e { s.calls e with pc := .done }).setRunning
      (s.calls e).pod false) :
    ∃ call, Advances s s' e call ∧ Flags s s' call (lockResolves s (.run e .ok)) := by
  have hactive : (s.calls e).pc ≠ .done := by
    rcases hlock with hpc | hpc <;> rw [hpc] <;> decide
  have hreset : s'.running = Function.update s.running (s.calls e).pod false := by
    rw [heq, State.setRunning, State.setCall, exec_running]
  refine ⟨_, ends_advances hactive hquiet hnone ?_ ?_ fun pod hpod => ?_, fun _ => ?_⟩
  · rw [heq]
    exact exec_setCall_calls s .ok key e _
  · rw [heq]
    exact exec_nextCall s .ok key
  · rw [hreset, Function.update_of_ne hpod]
  · rw [hreset, Function.update_self]

theorem advance_advances {lockTtlMs : ℕ} {o : Outcome} (hs : Sound s)
    (h : advance lockTtlMs s e o = some s') :
    ∃ call, Advances s s' e call ∧ Flags s s' call (lockResolves s (.run e o)) := by
  have hquiet : (s.calls e).pc ≠ .publishPendingBatch → (s.calls e).heartbeat = false := by
    intro hpc
    by_contra hnot
    exact hpc (hs.heartbeat e (by simpa using hnot))
  unfold advance at h
  cases hpc : (s.calls e).pc with
  | done =>
    simp only [hpc] at h
    cases h
  | acquireLock =>
    have hnone : (s.calls e).extending = 0 := by
      by_contra hnot
      rcases hs.extending e hnot with h' | h' <;> rw [hpc] at h' <;> cases h'
    have hheartbeat := hquiet (by rw [hpc]; decide)
    simp only [hpc] at h
    cases o with
    | fails executed =>
      cases h
      exact rejected_advances _ (Or.inl hpc) hheartbeat hnone rfl
    | ok =>
      cases hkey : s.key with
      | some lease =>
        simp only [hkey] at h
        cases h
        exact resolved_advances
          (Lease.acquire (some lease) (s.calls e).lockValue e (s.time + lockTtlMs)) (Or.inl hpc)
          hheartbeat hnone rfl
      | none =>
        simp only [hkey] at h
        cases h
        refine ⟨{ s.calls e with pc := .publishPendingBatch, heartbeat := true },
          ⟨by rw [hpc]; decide, rfl, fun _ => rfl, fun _ => Or.inl rfl, ?_, ?_, fun _ => Or.inl ?_⟩,
          fun h' => ?_⟩
        · rw [exec_setCall_calls]
        · rw [State.setCall, exec_nextCall]
        · rw [State.setCall, exec_running]
        · cases h'
  | publishPendingBatch =>
    simp only [hpc] at h
    cases h
    refine ⟨{ s.calls e with pc := .releaseLock, heartbeat := false },
      ⟨by rw [hpc]; decide, rfl, fun h' => ?_, fun _ => Or.inr rfl, rfl, rfl, fun _ => Or.inl rfl⟩, ?_⟩
    · cases h'
    · have hresolves : lockResolves s (.run e o) = true := by
        cases o <;> simp [lockResolves, hpc]
      rw [hresolves]
      intro h'
      cases h'
  | releaseLock =>
    simp only [hpc] at h
    split at h
    · next hnone =>
      have hheartbeat := hquiet (by rw [hpc]; decide)
      cases o with
      | fails executed =>
        cases h
        exact rejected_advances _ (Or.inr hpc) hheartbeat hnone rfl
      | ok =>
        cases h
        exact resolved_advances _ (Or.inr hpc) hheartbeat hnone rfl
    · cases h

/-- The state after a tick of a pod that is not running. -/
def State.started (s : State) (pod pid now : ℕ) : State :=
  { (s.setRunning pod true).setCall s.nextCall ⟨pod, ⟨pid, now⟩, .acquireLock, false, 0⟩ with
    nextCall := s.nextCall + 1 }

inductive Effect (s s' : State) (l : Label) : Prop
  | rests (calls : s'.calls = s.calls) (running : s'.running = s.running)
      (nextCall : s'.nextCall = s.nextCall) (resolves : lockResolves s l = true)
  | advances (e : ℕ) (call : Call) (advances : Advances s s' e call)
      (flags : Flags s s' call (lockResolves s l))
  | starts (pod pid now : ℕ) (idle : s.running pod = false) (started : s' = s.started pod pid now)
      (resolves : lockResolves s l = true)

/-- A call with another number of extensions on their way. -/
theorem extends_effect {l : Label} (extending : ℕ) (hs : Sound s)
    (hactive : (s.calls e).pc = .publishPendingBatch ∨ (s.calls e).pc = .releaseLock)
    (hcalls : s'.calls = Function.update s.calls e { s.calls e with extending })
    (hnext : s'.nextCall = s.nextCall) (hrunning : s'.running = s.running)
    (hresolves : lockResolves s l = true) : Effect s s' l := by
  have hgoes : (s.calls e).pc ≠ .done := by
    rcases hactive with hpc | hpc <;> rw [hpc] <;> decide
  refine .advances e { s.calls e with extending } ⟨hgoes, rfl, hs.heartbeat e, fun _ => hactive,
    hcalls, hnext, fun _ => Or.inl (by rw [hrunning])⟩ ?_
  rw [hresolves]
  exact fun h => absurd h hgoes

theorem step_effect {lockTtlMs : ℕ} {l : Label} (hs : Sound s)
    (h : step lockTtlMs s l = some s') : Effect s s' l := by
  cases l with
  | tick pod pid now =>
    simp only [step] at h
    split at h
    · cases h
      exact .rests rfl rfl rfl rfl
    · next hidle =>
      cases h
      exact .starts pod pid now (by simpa using hidle) rfl rfl
  | run e o =>
    obtain ⟨call, hadvances, hflags⟩ := advance_advances hs h
    exact .advances e call hadvances hflags
  | heartbeat e =>
    simp only [step] at h
    split at h
    · next hheartbeat =>
      cases h
      exact extends_effect _ hs (Or.inl (hs.heartbeat e hheartbeat)) rfl rfl rfl rfl
    · cases h
  | extendLock e o =>
    simp only [step] at h
    split at h
    · cases h
    · next hsome =>
      cases h
      refine extends_effect ((s.calls e).extending - 1) hs (hs.extending e hsome) ?_ ?_ ?_ rfl
      · simp only [State.setCall, exec_calls]
      · simp only [State.setCall, exec_nextCall]
      · simp only [State.setCall, exec_running]
  | elapse ms =>
    cases h
    exact .rests rfl rfl rfl rfl

theorem started_inProgress {pid now : ℕ} {pod' e' : ℕ}
    (h : (s.started pod pid now).InProgress pod' e') :
    e' = s.nextCall ∧ pod' = pod ∨ e' ≠ s.nextCall ∧ s.InProgress pod' e' := by
  simp only [State.InProgress, State.started, State.setCall, State.setRunning,
    Function.update_apply] at h
  split at h
  · next heq => exact Or.inl ⟨heq, h.1.symm⟩
  · next hne => exact Or.inr ⟨hne, h⟩

theorem started_sound (hs : Sound s) (hidle : s.running pod = false) (pid now : ℕ) :
    Sound (s.started pod pid now) where
  heartbeat := by
    intro e' h'
    simp only [State.started, State.setCall, State.setRunning, Function.update_apply] at h' ⊢
    split at h'
    · cases h'
    · next hne => rw [if_neg hne]; exact hs.heartbeat e' h'
  extending := by
    intro e' h'
    simp only [State.started, State.setCall, State.setRunning, Function.update_apply] at h' ⊢
    split at h'
    · exact absurd rfl h'
    · next hne => rw [if_neg hne]; exact hs.extending e' h'
  running := by
    intro pod' e' h'
    simp only [State.started, State.setCall, State.setRunning, Function.update_apply]
    split
    · rfl
    · next hne =>
      rcases started_inProgress h' with ⟨-, heq⟩ | ⟨-, hold⟩
      · exact absurd heq hne
      · exact hs.running pod' e' hold
  one := by
    have hfree : ∀ e', ¬ s.InProgress pod e' := fun e' h' => by
      rw [hs.running pod e' h'] at hidle
      cases hidle
    intro pod' e₁ e₂ h₁ h₂
    rcases started_inProgress h₁ with ⟨heq₁, hpod₁⟩ | ⟨-, hold₁⟩
    · rcases started_inProgress h₂ with ⟨heq₂, -⟩ | ⟨-, hold₂⟩
      · rw [heq₁, heq₂]
      · exact absurd (hpod₁ ▸ hold₂) (hfree e₂)
    · rcases started_inProgress h₂ with ⟨-, hpod₂⟩ | ⟨-, hold₂⟩
      · exact absurd (hpod₂ ▸ hold₁) (hfree e₁)
      · exact hs.one pod' e₁ e₂ hold₁ hold₂
  beyond := by
    intro e' he'
    have hle : s.nextCall + 1 ≤ e' := he'
    simp only [State.started, State.setCall, State.setRunning, Function.update_apply]
    rw [if_neg (by omega)]
    exact hs.beyond e' (by omega)

theorem started_busy (hs : Sound s) (hb : s.Busy) (pid now : ℕ) : (s.started pod pid now).Busy := by
  intro pod' hrunning
  simp only [State.InProgress, State.started, State.setCall, State.setRunning,
    Function.update_apply] at hrunning ⊢
  split at hrunning
  · next heq => exact ⟨s.nextCall, by simp [heq]⟩
  · obtain ⟨e', he'⟩ := hb pod' hrunning
    have hne : e' ≠ s.nextCall := by
      rintro rfl
      exact he'.2 (hs.beyond _ (Nat.le_refl _))
    refine ⟨e', ?_⟩
    rw [if_neg hne]
    exact he'

theorem step_sound {lockTtlMs : ℕ} {l : Label} (hs : Sound s) (h : step lockTtlMs s l = some s') :
    Sound s' := by
  cases step_effect hs h with
  | rests calls running nextCall resolves =>
    exact ⟨by rw [calls]; exact hs.heartbeat, by rw [calls]; exact hs.extending,
      by unfold State.InProgress; rw [calls, running]; exact hs.running,
      by unfold State.InProgress; rw [calls]; exact hs.one,
      by rw [calls, nextCall]; exact hs.beyond⟩
  | advances e call advances flags => exact advances.sound hs
  | starts pod pid now idle started resolves =>
    rw [started]
    exact started_sound hs idle pid now

/-- A step keeps the pods from being wedged exactly if it does not reject the lock's commands. -/
theorem step_busy {lockTtlMs : ℕ} {l : Label} (hs : Sound s) (hb : s.Busy)
    (h : step lockTtlMs s l = some s') : s'.Busy ↔ lockResolves s l = true := by
  cases step_effect hs h with
  | rests calls running nextCall resolves =>
    refine iff_of_true ?_ resolves
    unfold State.Busy State.InProgress
    rw [calls, running]
    exact hb
  | advances e call advances flags =>
    cases hresolves : lockResolves s l with
    | true =>
      rw [hresolves] at flags
      exact iff_of_true (advances.busy hb flags) rfl
    | false =>
      rw [hresolves] at flags
      exact iff_of_false (advances.wedged hs flags.1 flags.2) Bool.false_ne_true
  | starts pod pid now idle started resolves =>
    rw [started]
    exact iff_of_true (started_busy hs hb pid now) resolves

end

/-! ## Runs -/

theorem initial_sound : Sound initial where
  heartbeat := fun _ h => by cases h
  extending := fun _ h => absurd rfl h
  running := fun _ _ h => absurd rfl h.2
  one := fun _ _ _ h => absurd rfl h.2
  beyond := fun _ _ => rfl

/-- A run never leaves a pod wedged exactly if the lock's acquisitions and releases all resolve. -/
theorem never_wedged_iff {lockTtlMs : ℕ} {tr : List (Move State Label)} {s : State}
    (h : Reaches lockTtlMs tr s) :
    (∀ x ∈ tr, NeverWedged x.target) ↔ Guarded (fun s l => lockResolves s l = true) tr := by
  refine Run.invariant_iff Sound NeverWedged (fun _ _ _ => step_sound) (fun s l s' hs hI hstep => ?_)
    h initial_sound fun pod _ => ⟨rfl, fun _ _ => rfl⟩
  rw [neverWedged_iff_busy (step_sound hs hstep)]
  exact step_busy hs ((neverWedged_iff_busy hs).mp hI) hstep

theorem scanned_once : ∃ tr s, Reaches 5000 tr s ∧ s.running 0 = false ∧
    ∀ x ∈ tr, NeverWedged x.target := by
  obtain ⟨tr, s, h, hp⟩ := exists_run_of_trace (step 5000) initial
    [.tick 0 1 0, .tick 0 1 0, .run 0 .ok, .run 0 (.fails false), .run 0 .ok]
    (fun r => (r.1.all fun x => lockResolves x.source x.label) && !r.2.running 0) (by decide)
  simp only [Bool.and_eq_true, Bool.not_eq_true'] at hp
  exact ⟨tr, s, h, hp.2, (never_wedged_iff h).mpr (guarded_of_all hp.1)⟩

/-- The first acquisition of the lock has been rejected. -/
def wedged : State := (initial.started 0 1 0).setCall 0 ⟨0, ⟨1, 0⟩, .done, false, 0⟩

theorem acquisition_wedges : ¬ ∀ (lockTtlMs : ℕ) (tr : List (Move State Label)) (s : State),
    Reaches lockTtlMs tr s → ∀ x ∈ tr, NeverWedged x.target := by
  intro hall
  have hrun : Reaches 5000 [⟨initial, .tick 0 1 0, initial.started 0 1 0⟩,
      ⟨initial.started 0 1 0, .run 0 (.fails false), wedged⟩] wedged :=
    Run.snoc (Run.single rfl) rfl
  have hnone : ∀ e, ¬ wedged.InProgress 0 e := by
    rintro e ⟨-, hpc⟩
    simp only [wedged, State.setCall, State.started, Function.update_apply] at hpc
    split at hpc
    · exact hpc rfl
    · next hne => exact hpc (by rw [if_neg (show e ≠ initial.nextCall from hne)]; rfl)
  exact Bool.false_ne_true (hall 5000 _ _ hrun _ (.tail _ (.head _)) 0 hnone).1.symm

end Bumpa.Outbox.Scheduled
