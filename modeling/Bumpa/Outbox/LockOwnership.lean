import Bumpa.Outbox.ScheduledPublisher

/-! # Whose lock is extended and released

A call compares the key's value with its own, `pid:Date.now()`, before it extends or releases it.
Another call may have the same value: pods in containers share their process ids, and their clocks
are not one.

`changes_own_lock`: in every run in which no call acquires the lock with the value of another one
that still has its batch or release to come, a call changes the key only while it holds it.
`foreign_lock_released`: a pod releases the lock of another one.
-/
namespace Bumpa.Outbox.Scheduled
open Bumpa.Transition
set_option autoImplicit false

/-- The call whose `extendLock` or `releaseLock` is executed. -/
def State.comparing (s : State) : Label → Option ℕ
  | .extendLock e _ => some e
  | .run e _ => if (s.calls e).pc = .releaseLock then some e else none
  | _ => none

/-- What extends or releases the lock is the call that holds it, or changes nothing. -/
def ChangesOwnLock (x : Move State Label) : Prop :=
  ∀ e, x.source.comparing x.label = some e → x.target.key ≠ x.source.key →
    ∃ lease, x.source.key = some lease ∧ lease.holder = e

def Pc.holds : Pc → Bool
  | .publishPendingBatch | .releaseLock => true
  | _ => false

/-- The values that calls may still extend or release the lock with. -/
def State.live (s : State) (e : ℕ) : Option LockValue :=
  if (s.calls e).pc.holds then some (s.calls e).lockValue else none

/-- The key is not set with the value of another call that may still extend or release it. -/
def acquiresUnshared (s : State) : Label → Bool
  | .run e o =>
    (s.calls e).pc ≠ .acquireLock || s.key.isSome || !o.executed ||
      (List.range s.nextCall).all fun e' => e' = e || s.live e' ≠ some (s.calls e).lockValue
  | _ => true

/-- Only its holder can still extend or release the key by its value. -/
def State.Owned (s : State) : Prop := Lease.HeldByLive s.key s.live

section
variable {s s' : State} {e : ℕ} {call : Call} {o : Outcome} {lockTtlMs : ℕ} {l : Label}

theorem live_other (h : s'.calls = Function.update s.calls e call) {e' : ℕ} (hne : e' ≠ e) :
    s'.live e' = s.live e' := by
  rw [State.live, h, Function.update_of_ne hne]
  rfl

/-- A call that goes on holding no more than it did. -/
theorem live_le (h : s'.calls = Function.update s.calls e call)
    (hholds : call.pc.holds = true → s.live e = some call.lockValue) (e' : ℕ) (v : LockValue)
    (hlive : s'.live e' = some v) : s.live e' = some v := by
  rw [State.live, h, Function.update_apply] at hlive
  split at hlive
  · next heq =>
    split at hlive
    · next hcall => rw [heq, hholds hcall, hlive]
    · cases hlive
  · exact hlive

theorem done_le (h : s'.calls = Function.update s.calls e { s.calls e with pc := .done }) :
    ∀ e' v, s'.live e' = some v → s.live e' = some v :=
  live_le h fun hholds => by cases hholds

theorem exec_owned {live : ℕ → Option LockValue} {key : Option (Lease LockValue ℕ)}
    (h : Lease.HeldByLive s.key live) (hkey : o.executed = true → Lease.HeldByLive key live) :
    Lease.HeldByLive (s.exec o key).key live := by
  unfold State.exec
  split
  · next hexecuted => exact hkey hexecuted
  · exact h

/-- The call acquires the key, or another one has it. -/
theorem acquire_owned (lockTtlMs : ℕ) (hs : Sound s) (h : Lease.HeldByLive s.key s'.live)
    (hcalls : s'.calls = Function.update s.calls e call)
    (hkey : s'.key =
      (s.exec o (Lease.acquire s.key (s.calls e).lockValue e (s.time + lockTtlMs))).key)
    (hpc : (s.calls e).pc = .acquireLock) (hguard : acquiresUnshared s (.run e o) = true) :
    s'.Owned := by
  rw [State.Owned, hkey]
  refine exec_owned h fun hexecuted => h.acquire fun hfree e' hne hlive => ?_
  have hall : ∀ e' < s.nextCall, e' = e ∨ s.live e' ≠ some (s.calls e).lockValue := by
    simpa [acquiresUnshared, hpc, hfree, hexecuted] using hguard
  rw [live_other hcalls hne] at hlive
  rcases Nat.lt_or_ge e' s.nextCall with hlt | hge
  · rcases hall e' hlt with heq | hvalue
    · exact hne heq
    · exact hvalue hlive
  · rw [State.live, hs.beyond e' hge] at hlive
    cases hlive

theorem advance_owned (hs : Sound s) (ho : s.Owned) (hguard : acquiresUnshared s (.run e o) = true)
    (h : advance lockTtlMs s e o = some s') : s'.Owned := by
  unfold advance at h
  cases hpc : (s.calls e).pc with
  | done =>
    simp only [hpc] at h
    cases h
  | acquireLock =>
    simp only [hpc] at h
    cases o with
    | fails executed =>
      cases h
      have hcalls := exec_setCall_calls s (.fails executed)
      exact acquire_owned lockTtlMs hs (ho.mono (done_le (hcalls _ _ _))) (hcalls _ _ _) rfl hpc
        hguard
    | ok =>
      cases hkey : s.key with
      | some lease =>
        simp only [hkey] at h
        cases h
        exact acquire_owned lockTtlMs hs (ho.mono (done_le rfl)) rfl (by rw [hkey]; rfl) hpc hguard
      | none =>
        simp only [hkey] at h
        cases h
        refine acquire_owned lockTtlMs hs (fun lease hlease => ?_) rfl (by rw [hkey]; rfl) hpc hguard
        rw [hkey] at hlease
        cases hlease
  | publishPendingBatch =>
    simp only [hpc] at h
    cases h
    refine ho.mono (live_le rfl fun _ => ?_)
    rw [State.live, hpc]
    rfl
  | releaseLock =>
    simp only [hpc] at h
    split at h
    · cases o with
      | fails executed =>
        cases h
        have hle := ho.mono (done_le (exec_setCall_calls s (.fails executed)
          (Lease.release s.key (s.calls e).lockValue) e _))
        exact exec_owned hle fun _ => hle.release _
      | ok =>
        cases h
        exact (ho.mono (done_le rfl)).release _
    · cases h

theorem step_owned (hs : Sound s) (ho : s.Owned) (hguard : acquiresUnshared s l = true)
    (h : step lockTtlMs s l = some s') : s'.Owned := by
  cases l with
  | tick pod pid now =>
    simp only [step] at h
    split at h
    · cases h
      exact ho
    · cases h
      refine ho.mono (live_le rfl fun hholds => ?_)
      cases hholds
  | run e o => exact advance_owned hs ho hguard h
  | heartbeat e =>
    simp only [step] at h
    split at h
    · cases h
      exact ho.mono (live_le rfl fun hholds => if_pos hholds)
    · cases h
  | extendLock e o =>
    simp only [step] at h
    split at h
    · cases h
    · cases h
      have hcalls := exec_setCall_calls s o (Lease.extend s.key (s.calls e).lockValue
        (s.time + lockTtlMs)) e { s.calls e with extending := (s.calls e).extending - 1 }
      have hle := ho.mono (live_le hcalls fun hholds => if_pos hholds)
      exact exec_owned hle fun _ => hle.extend _ _
  | elapse ms =>
    cases h
    exact ho.expire _

theorem exec_changed {key : Option (Lease LockValue ℕ)} (h : (s.exec o key).key ≠ s.key) :
    key ≠ s.key := by
  unfold State.exec at h
  split at h
  · exact h
  · exact absurd rfl h

/-- A step changes the key for nobody but its holder. -/
theorem step_changesOwn (hs : Sound s) (ho : s.Owned) (h : step lockTtlMs s l = some s') :
    ChangesOwnLock ⟨s, l, s'⟩ := by
  intro e hcomparing hchanged
  cases l with
  | extendLock e' o =>
    obtain rfl := Option.some.inj hcomparing
    simp only [step] at h
    split at h
    · cases h
    · next hsome =>
      have hlive : s.live e' = some (s.calls e').lockValue := by
        rw [State.live]
        rcases hs.extending e' hsome with hpc | hpc <;> rw [hpc] <;> rfl
      cases h
      exact Lease.changed_extend ho hlive (exec_changed hchanged)
  | run e' o =>
    simp only [State.comparing] at hcomparing
    split at hcomparing
    · next hpc =>
      obtain rfl := Option.some.inj hcomparing
      have hlive : s.live e' = some (s.calls e').lockValue := by
        rw [State.live, hpc]
        rfl
      simp only [step, advance, hpc] at h
      split at h
      · refine Lease.changed_release ho hlive ?_
        cases o with
        | fails executed =>
          cases h
          exact exec_changed hchanged
        | ok =>
          cases h
          exact hchanged
      · cases h
    · cases hcomparing
  | _ => cases hcomparing

theorem initial_owned : initial.Owned := fun _ h => by cases h

end

/-- In a run in which no call acquires the lock with the value of another one that still has its
batch or release to come, a call changes the key only while it holds it. -/
theorem changes_own_lock {lockTtlMs : ℕ} {tr : List (Move State Label)} {s : State}
    (h : Reaches lockTtlMs tr s) (hguard : Guarded (fun s l => acquiresUnshared s l = true) tr) :
    ∀ x ∈ tr, ChangesOwnLock x := by
  have hall := Run.guarded_invariant (fun s => Sound s ∧ s.Owned)
    (fun s l s' hg hs hstep => ⟨step_sound hs.1 hstep, step_owned hs.1 hs.2 hg hstep⟩) h hguard
    ⟨initial_sound, initial_owned⟩
  intro x hx
  obtain ⟨hsound, howned⟩ := (hall.2 x hx).1
  exact step_changesOwn hsound howned (h.step_of_mem x hx)

/-! ## Schedules -/

/-- The lock of pod 0 expires during its batch, and pod 1 acquires it. -/
def expired (pid now : ℕ) : List Label :=
  [.tick 0 1 0, .run 0 .ok, .elapse 5000, .tick 1 pid now, .run 1 .ok, .run 0 .ok, .run 0 .ok]

theorem changes_own_lock_expired : ∃ tr s, Reaches 5000 tr s ∧ s.key = some ⟨⟨1, 1⟩, 10000, 1⟩ ∧
    ∀ x ∈ tr, ChangesOwnLock x := by
  obtain ⟨tr, s, h, hp⟩ := exists_run_of_trace (step 5000) initial (expired 1 1)
    (fun r => (r.1.all fun x => acquiresUnshared x.source x.label) &&
      decide (r.2.key = some ⟨⟨1, 1⟩, 10000, 1⟩)) (by decide)
  simp only [Bool.and_eq_true, decide_eq_true_eq] at hp
  exact ⟨tr, s, h, hp.2, changes_own_lock h (guarded_of_all hp.1)⟩

/-- The processes have one id, and the clock of pod 1 is slow. Pod 0 releases the lock of pod 1. -/
theorem foreign_lock_released : ¬ ∀ (lockTtlMs : ℕ) (tr : List (Move State Label)) (s : State),
    Reaches lockTtlMs tr s → ∀ x ∈ tr, ChangesOwnLock x := by
  intro hall
  obtain ⟨tr, s, h, hp⟩ := exists_run_of_trace (step 5000) initial (expired 1 0)
    (fun r => r.1.any fun x => decide (x.source.comparing x.label = some 0) &&
      decide (x.source.key = some ⟨⟨1, 0⟩, 10000, 1⟩) && decide (x.target.key = none)) (by decide)
  obtain ⟨x, hx, hp⟩ := List.any_eq_true.mp hp
  simp only [Bool.and_eq_true, decide_eq_true_eq] at hp
  obtain ⟨⟨hcomparing, hsource⟩, htarget⟩ := hp
  have hchanged : x.target.key ≠ x.source.key := by
    rw [hsource, htarget]
    exact Option.some_ne_none _ |>.symm
  obtain ⟨lease, hlease, hholder⟩ := hall 5000 tr s h x hx 0 hcomparing hchanged
  rw [hsource] at hlease
  obtain rfl := Option.some.inj hlease
  cases hholder

end Bumpa.Outbox.Scheduled
