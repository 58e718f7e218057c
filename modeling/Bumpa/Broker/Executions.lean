import Bumpa.Broker.OwnChannel

/-! # Which executions a step touches

An execution that runs changes its own point, a `subscribe`, a delivery, the timer and the end of
the module start a new one, and nothing else changes any (`step_threads`).
-/
namespace Bumpa.Broker
open Bumpa.Transition
set_option autoImplicit false

variable {Payload : Type} {s s' : State Payload}

inductive StepThreads (s s' : State Payload) : Label Payload → Prop
  | runs (e : ℕ) (o : Outcome) (next : s'.nextThread = s.nextThread)
      (others : ∀ e', e' ≠ e → s'.threads e' = s.threads e') : StepThreads s s' (.run e o)
  | spawns {l : Label Payload} (th : Thread Payload) (idle : ∀ e o, l ≠ .run e o)
      (next : s'.nextThread = s.nextThread + 1)
      (threads : s'.threads = Function.update s.threads s.nextThread th) : StepThreads s s' l
  | rests {l : Label Payload} (idle : ∀ e o, l ≠ .run e o) (next : s'.nextThread = s.nextThread)
      (threads : s'.threads = s.threads) : StepThreads s s' l

/-- The executions of two states are the same. -/
def SameThreads (s s' : State Payload) : Prop :=
  s'.nextThread = s.nextThread ∧ s'.threads = s.threads

theorem scheduleReconnect_threads (s : State Payload) : SameThreads s s.scheduleReconnect := by
  unfold State.scheduleReconnect
  split <;> exact ⟨rfl, rfl⟩

theorem handleConnectionIssue_threads (s : State Payload) :
    SameThreads s s.handleConnectionIssue := by
  unfold State.handleConnectionIssue
  split
  · exact ⟨rfl, rfl⟩
  · exact scheduleReconnect_threads { s with channel := none, connection := none }

theorem channelLost_threads (s : State Payload) (c : ℕ) : SameThreads s (s.channelLost c) := by
  unfold State.channelLost
  split
  · exact handleConnectionIssue_threads (s.setChannel c (s.channels c).lost)
  · exact ⟨rfl, rfl⟩

theorem connectionLost_threads (s : State Payload) (n : ℕ) :
    SameThreads s (s.connectionLost n) := by
  unfold State.connectionLost
  dsimp only
  split
  · obtain ⟨hnext, hthreads⟩ := handleConnectionIssue_threads
      { s with
        connections := Function.update s.connections n { s.connections n with isOpen := false }
        channels := fun c =>
          if (s.channels c).connection = n then (s.channels c).lost else s.channels c }
    exact ⟨hnext, hthreads⟩
  · exact ⟨rfl, rfl⟩

theorem settle_threads (s : State Payload) (kind : SettlementKind) (d : Delivery Payload) :
    SameThreads s (s.settle kind d) := by
  unfold State.settle
  split <;> exact ⟨rfl, rfl⟩

theorem handlerSettled_threads (s : State Payload) (d : Delivery Payload) (o : Outcome) :
    SameThreads s (s.handlerSettled d o) := by
  cases o with
  | ok => exact settle_threads s .ack d
  | fails =>
    simp only [State.handlerSettled]
    split
    · exact settle_threads s .nack d
    · split
      · next s' hs' =>
        obtain ⟨_, -, rfl⟩ := Option.map_eq_some_iff.mp hs'
        exact settle_threads _ .ack d
      · exact settle_threads s .nack d

/-- After a reconnect the end of a setup touches only its own execution as well. -/
theorem setupEnded_threads (s : State Payload) (e : ℕ) (origin : SetupOrigin) :
    SameThreads (s.setThread e .done) (s.setupEnded e origin) := by
  cases origin with
  | moduleInit => exact ⟨rfl, rfl⟩
  | reconnectTimer =>
    simp only [State.setupEnded]
    split
    · exact scheduleReconnect_threads { s.setThread e .done with reconnecting := false }
    · exact ⟨rfl, rfl⟩

/-- Only execution `e` has changed. -/
def Touches (e : ℕ) (s s' : State Payload) : Prop :=
  s'.nextThread = s.nextThread ∧ ∀ e', e' ≠ e → s'.threads e' = s.threads e'

theorem touches_setThread (s : State Payload) (e : ℕ) (th : Thread Payload) :
    Touches e s (s.setThread e th) :=
  ⟨rfl, fun _ hne => Function.update_of_ne hne _ _⟩

theorem Touches.trans {e : ℕ} {s'' : State Payload} (h : Touches e s s')
    (h' : SameThreads s' s'') : Touches e s s'' :=
  ⟨h'.1.trans h.1, fun e' hne => (congrFun h'.2 e').trans (h.2 e' hne)⟩

theorem bindNext_touches (s : State Payload) (e : ℕ) (origin : SetupOrigin) (next : ℕ) :
    Touches e s (s.bindNext e origin next) := by
  unfold State.bindNext
  split
  · obtain ⟨hnext, hthreads⟩ := setupEnded_threads { s with reconnectAttempt := 0 } e origin
    obtain ⟨hnext', hothers⟩ := touches_setThread s e .done
    exact ⟨hnext.trans hnext', fun e' hne => (congrFun hthreads e').trans (hothers e' hne)⟩
  · split
    · exact touches_setThread _ _ _
    · exact (touches_setThread s e .done).trans (setupEnded_threads s e origin)

theorem advanceSetup_touches {e : ℕ} {origin : SetupOrigin} {pc : SetupPc} {o : Outcome}
    (h : s.advanceSetup e origin pc o = some s') : Touches e s s' := by
  cases o with
  | fails =>
    simp only [State.advanceSetup, Option.some.injEq] at h
    rw [← h]
    exact (touches_setThread s e .done).trans (setupEnded_threads s e origin)
  | ok =>
    cases pc with
    | connect =>
      cases h
      exact ⟨rfl, (touches_setThread s e _).2⟩
    | createConfirmChannel n =>
      simp only [State.advanceSetup] at h
      split at h <;> cases h
      exact ⟨rfl, (touches_setThread s e _).2⟩
    | assertEvents n c =>
      simp only [State.advanceSetup] at h
      split at h <;> cases h
      exact touches_setThread s e _
    | assertDeadLetter n c =>
      simp only [State.advanceSetup] at h
      split at h <;> cases h
      exact bindNext_touches _ e origin 0
    | bind c call calls next =>
      simp only [State.advanceSetup] at h
      split at h
      · cases calls with
        | nil =>
          cases h
          exact bindNext_touches _ e origin next
        | cons call' calls' =>
          cases h
          exact ⟨rfl, (touches_setThread s e _).2⟩
      · cases h

theorem advance_touches {e : ℕ} {o : Outcome} (h : advance s e o = some s') :
    Touches e s s' := by
  unfold advance at h
  split at h
  · cases h
  · exact advanceSetup_touches h
  · split at h
    · cases h
      exact touches_setThread s e .done
    · split at h <;> cases h
      exact ⟨rfl, (touches_setThread s e _).2⟩
  · cases h
    exact (touches_setThread s e .done).trans (handlerSettled_threads _ _ _)
  · dsimp only at h
    split at h <;> cases h
    · exact touches_setThread s e .done
    · exact (touches_setThread s e .done).trans (connectionLost_threads _ _)

theorem step_threads {l : Label Payload} (h : step s l = some s') : StepThreads s s' l := by
  have hrests : ∀ {l : Label Payload}, (∀ e o, l ≠ .run e o) → SameThreads s s' →
      StepThreads s s' l := fun hidle hsame => .rests hidle hsame.1 hsame.2
  cases l with
  | subscribe subscription =>
    simp only [step] at h
    split at h <;> cases h
    · exact .spawns _ (fun _ _ => by simp) rfl rfl
    · exact hrests (fun _ _ => by simp) ⟨rfl, rfl⟩
  | timer =>
    simp only [step] at h
    split at h
    · split at h <;> cases h
      · exact hrests (fun _ _ => by simp) ⟨rfl, rfl⟩
      · exact .spawns _ (fun _ _ => by simp) rfl rfl
    · cases h
  | onModuleDestroy =>
    simp only [step] at h
    split at h <;> cases h
    · exact .spawns .destroy (fun _ _ => by simp) rfl rfl
    · next c _ =>
      obtain ⟨hnext, hthreads⟩ :=
        channelLost_threads { s with shuttingDown := true, reconnectTimer := none } c
      refine .spawns .destroy (fun _ _ => by simp) (congrArg (· + 1) hnext) ?_
      simp only [State.spawn, State.setThread, hnext, hthreads]
  | deliver c consumer message =>
    obtain ⟨d, -, -, -, -, rfl⟩ := deliver_cases h
    cases hcontent : d.message.content with
    | malformed raw =>
      refine hrests (fun _ _ => by simp) ?_
      simp only [State.handleMessage, hcontent]
      exact settle_threads (s.numbered d) .nack d
    | json event =>
      simp only [State.handleMessage, hcontent]
      exact .spawns (.handle d) (fun _ _ => by simp) rfl rfl
  | cancelled c consumer =>
    cases h
    exact hrests (fun _ _ => by simp) ⟨rfl, rfl⟩
  | channelLost c =>
    cases h
    exact hrests (fun _ _ => by simp) (channelLost_threads s c)
  | connectionLost n =>
    cases h
    exact hrests (fun _ _ => by simp) (connectionLost_threads s n)
  | channelEvent c =>
    cases h
    refine hrests (fun _ _ => by simp) ?_
    split
    · exact handleConnectionIssue_threads s
    · exact ⟨rfl, rfl⟩
  | connectionEvent n =>
    cases h
    refine hrests (fun _ _ => by simp) ?_
    split
    · exact handleConnectionIssue_threads s
    · exact ⟨rfl, rfl⟩
  | run e o =>
    obtain ⟨hnext, hothers⟩ := advance_touches h
    exact .runs e o hnext hothers

/-- An execution that has not started is done, whatever happened. -/
theorem step_beyond {l : Label Payload} (h : step s l = some s')
    (hs : ∀ e, s.nextThread ≤ e → s.threads e = .done) :
    ∀ e, s'.nextThread ≤ e → s'.threads e = .done := by
  intro e he
  cases step_threads h with
  | runs e' o next others =>
    rw [next] at he
    by_cases hsame : e = e'
    · subst hsame
      simp only [step, advance, hs e he] at h
      cases h
    · rw [others e hsame]
      exact hs e he
  | spawns th idle next threads =>
    rw [next] at he
    rw [threads, Function.update_of_ne (by omega)]
    exact hs e (by omega)
  | rests idle next threads =>
    rw [next] at he
    rw [threads]
    exact hs e he

theorem initial_beyond (e : ℕ) (he : (initial : State Payload).nextThread ≤ e) :
    (initial : State Payload).threads e = .done := by
  have hne : e ≠ 0 := Nat.ne_of_gt he
  simp only [initial, Function.update_of_ne hne]

end Bumpa.Broker
