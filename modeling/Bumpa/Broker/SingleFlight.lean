import Bumpa.Broker.ReconnectTurns

/-! # Single-flight reconnects

After the start, and as long as the module does not end, at most one timer or attempt to reconnect
is outstanding, one is whenever there is no channel, and each attempt since the last successful
setup waits twice as long as the one before, up to the cap. One thing breaks the count: `onModuleInit`
resets it when its setup succeeds, even while a timer is pending.

`single_flight`: so it is in every run in which `onModuleInit` does not succeed while a timer is
pending. `backoff_restarts`: a run in which it does.
-/
namespace Bumpa.Broker
open Bumpa.Transition
set_option autoImplicit false

variable {Payload : Type}

/-! ## The property -/

namespace State

/-- A timer (`none`) or an attempt is outstanding. -/
def Outstanding (s : State Payload) : Option ℕ → Prop
  | none => s.reconnectTimer.isSome = true
  | some e => e ∈ s.attempts

/-- The attempts made since the last fully successful setup, after a step. -/
def madeAfter (s : State Payload) (l : Label Payload) (n : ℕ) : ℕ :=
  if (s.completes l).isSome then 0 else if l.isTimer then n + 1 else n

/-- `onModuleInit` does not succeed while a timer is pending. -/
def keepsCount (s : State Payload) (l : Label Payload) : Bool :=
  s.completes l ≠ some .moduleInit || s.reconnectTimer.isNone

end State

def made (tr : List (Move (State Payload) (Label Payload))) : ℕ :=
  tr.foldl (fun n x => x.source.madeAfter x.label n) 0

/-- `onModuleInit` has succeeded. -/
def booted (tr : List (Move (State Payload) (Label Payload))) : Bool :=
  tr.any fun x => x.source.completes x.label = some .moduleInit

/-- After `n` attempts; a timer is for the next one. -/
structure SingleFlight (n : ℕ) (s : State Payload) : Prop where
  one : ∀ a b, s.Outstanding a → s.Outstanding b → a = b
  pending : s.channel = none → ∃ a, s.Outstanding a
  delay : ∀ delayMs, s.reconnectTimer = some delayMs →
    delayMs = min (initialReconnectDelayMs * 2 ^ n) maxReconnectDelayMs

/-! ## What is outstanding -/

inductive Flight where
  | idle
  | waiting
  | attempt (e : ℕ)
  deriving DecidableEq, Repr

namespace Flight

def attempts : Flight → Set ℕ
  | .attempt e => {e}
  | _ => ∅

def outstanding : Flight → Option (Option ℕ)
  | .idle => none
  | .waiting => some none
  | .attempt e => some (some e)

def reconnect (up : Bool) (n : ℕ) : Flight → Reconnect
  | .idle => ⟨up, false, n, none⟩
  | .waiting => ⟨up, true, n + 1,
      some (min (initialReconnectDelayMs * 2 ^ n) maxReconnectDelayMs)⟩
  | .attempt _ => ⟨up, true, n, none⟩

def issued : Flight → Flight
  | .idle => .waiting
  | f => f

theorem issue_reconnect (up : Bool) (n : ℕ) (f : Flight) :
    (f.reconnect up n).issue = f.issued.reconnect false n := by
  cases f <;> rfl

theorem issued_attempts (f : Flight) : f.issued.attempts = f.attempts := by
  cases f <;> rfl

end Flight

structure Flies (s : State Payload) (f : Flight) (n : ℕ) : Prop where
  view : s.reconnect = f.reconnect s.reconnect.up n
  attempts : s.attempts = f.attempts

section
variable {s s' : State Payload} {l : Label Payload} {f : Flight} {n : ℕ}

theorem Flies.timer (h : Flies s f n) :
    s.reconnectTimer = (f.reconnect s.reconnect.up n).timer :=
  congrArg Reconnect.timer h.view

theorem Flies.waiting (h : Flies s f n) (hpending : s.reconnectTimer.isSome = true) :
    f = .waiting := by
  rw [h.timer] at hpending
  cases f with
  | waiting => rfl
  | _ => cases hpending

theorem Flies.attempt (h : Flies s f n) {e : ℕ} (he : e ∈ s.attempts) : f = .attempt e := by
  rw [h.attempts] at he
  cases f with
  | attempt e' => rw [Set.mem_singleton_iff.mp he]
  | _ => exact absurd he (Set.notMem_empty e)

theorem ended_flies {e : ℕ} {origin : SetupOrigin} {connects : Bool} (hs : Flies s f n)
    (hsetup : (s.threads e).isSetup origin = true)
    (hview : s'.reconnect = Reconnect.ended
      { s.reconnect with
        up := s.reconnect.up || connects
        attempt := if (s.completes l).isSome then 0 else s.reconnect.attempt } origin)
    (hattempts : s'.attempts = s.attempts \ {e}) (htimer : l.isTimer = false)
    (hreset : s.completes l = some .moduleInit → s.reconnectTimer = none)
    (hcompletes : ∀ origin', s.completes l = some origin' → origin' = origin) :
    ∃ f', Flies s' f' (s.madeAfter l n) := by
  rw [hs.view] at hview
  rw [State.madeAfter, htimer, if_neg Bool.false_ne_true]
  generalize ((f.reconnect s.reconnect.up n).up || connects) = up at hview
  cases origin with
  | moduleInit =>
    have hnot : e ∉ s.attempts := by
      intro he
      cases hth : s.threads e with
      | setup origin pc =>
        simp only [State.attempts, Set.mem_ofPred_eq, hth, Thread.isSetup, decide_eq_true_eq]
          at he hsetup
        rw [hsetup] at he
        cases he
      | _ => simp [hth, Thread.isSetup] at hsetup
    rw [Set.sdiff_singleton_eq_self hnot] at hattempts
    refine ⟨f, ?_, hattempts.trans hs.attempts⟩
    cases hresets : s.completes l with
    | none =>
      rw [hview, hresets]
      cases f <;> rfl
    | some origin' =>
      rw [hresets, hcompletes origin' hresets] at hreset
      rw [hs.timer] at hreset
      rw [hview, hresets]
      cases f with
      | waiting => cases hreset rfl
      | _ => rfl
  | reconnectTimer =>
    obtain rfl := hs.attempt hsetup
    have hnone : s'.attempts = ∅ := by
      rw [hattempts, hs.attempts]
      exact Set.sdiff_self
    cases up with
    | true =>
      refine ⟨.idle, ?_, hnone⟩
      rw [hview]
      rfl
    | false =>
      refine ⟨.waiting, ?_, hnone⟩
      rw [hview]
      rfl

/-- What a step makes of it, if it keeps the count. -/
theorem Turn.flies (h : Turn s s' l) (hs : Flies s f n)
    (hreset : s.completes l = some .moduleInit → s.reconnectTimer = none) :
    ∃ f', Flies s' f' (s.madeAfter l n) := by
  cases h with
  | aside view attempts binds timer completes =>
    rw [State.madeAfter, completes, timer]
    exact ⟨f, view.trans (by rw [view]; exact hs.view), attempts.trans hs.attempts⟩
  | issue view attempts binds timer completes =>
    rw [State.madeAfter, completes, timer]
    have hissue := view.trans (congrArg Reconnect.issue hs.view)
    rw [Flight.issue_reconnect] at hissue
    refine ⟨f.issued, hissue.trans ?_, ?_⟩
    · rw [hissue]
      cases f <;> rfl
    · rw [attempts, hs.attempts, Flight.issued_attempts]
  | fires view attempts binds timer completes pending =>
    rw [State.madeAfter, completes, timer]
    obtain rfl := hs.waiting pending
    refine ⟨.attempt s.nextThread, ?_, ?_⟩
    · rw [view, hs.view]
      rfl
    · rw [attempts, hs.attempts]
      exact insert_empty_eq _
  | connects view attempts timer completes =>
    rw [State.madeAfter, completes, timer]
    refine ⟨f, ?_, attempts.trans hs.attempts⟩
    rw [view, hs.view]
    cases f <;> rfl
  | ends connects view attempts binds timer setup completes =>
    exact ended_flies hs setup view attempts timer hreset fun origin' h => (completes origin' h).1

/-! ## Whether there is a channel -/

def State.Up (s : State Payload) : Prop :=
  s.reconnect.up = true ∨ s.reconnect.reconnecting = true

theorem schedule_reconnecting (r : Reconnect) : r.schedule.reconnecting = true := by
  unfold Reconnect.schedule
  split
  · next h => exact h
  · rfl

/-- Once a setup has stored a channel, a channel is missing only during a reconnect. -/
theorem Turn.up (h : Turn s s' l) {started : Prop} (hs : started ∨ s.Binds → s.Up) :
    (started ∨ s.completes l = some .moduleInit) ∨ s'.Binds → s'.Up := by
  have hkept : s.completes l = none → (s'.Binds → s.Binds) →
      (started ∨ s.completes l = some .moduleInit) ∨ s'.Binds → s.Up := by
    rintro hnone hbinds ((hstarted | hnow) | h')
    · exact hs (Or.inl hstarted)
    · rw [hnone] at hnow
      cases hnow
    · exact hs (Or.inr (hbinds h'))
  cases h with
  | aside view attempts binds timer completes =>
    rw [State.Up, view]
    exact hkept completes binds
  | issue view attempts binds timer completes =>
    rw [State.Up, view]
    exact fun _ => Or.inr (schedule_reconnecting _)
  | fires view attempts binds timer completes pending =>
    rw [State.Up, view]
    exact hkept completes binds
  | connects view attempts timer completes =>
    rw [State.Up, view]
    exact fun _ => Or.inl rfl
  | @ends e origin connects view attempts binds timer setup completes =>
    rw [State.Up, view]
    cases origin with
    | moduleInit =>
      intro h'
      have hup : connects = true ∨ s.Up := by
        rcases h' with (hstarted | hnow) | hbinds
        · exact Or.inr (hs (Or.inl hstarted))
        · exact (completes _ hnow).2.imp_right fun hbinds => hs (Or.inr hbinds)
        · exact Or.inr (hs (Or.inr (binds hbinds)))
      rcases hup with rfl | hup | hreconnecting
      · exact Or.inl (Bool.or_true _)
      · exact Or.inl (by simp only [Reconnect.ended, hup, Bool.true_or])
      · exact Or.inr hreconnecting
    | reconnectTimer =>
      intro _
      unfold Reconnect.ended
      dsimp only
      split
      · next hup => exact Or.inl hup
      · exact Or.inr (schedule_reconnecting _)

end

/-! ## Runs -/

section
variable {tr : List (Move (State Payload) (Label Payload))} {s : State Payload}

theorem made_snoc (tr : List (Move (State Payload) (Label Payload)))
    (x : Move (State Payload) (Label Payload)) :
    made (tr ++ [x]) = x.source.madeAfter x.label (made tr) := by
  rw [made, List.foldl_append]
  rfl

theorem booted_snoc (tr : List (Move (State Payload) (Label Payload)))
    (x : Move (State Payload) (Label Payload)) : booted (tr ++ [x]) = true ↔
      booted tr = true ∨ x.source.completes x.label = some .moduleInit := by
  rw [booted, List.any_append, Bool.or_eq_true, List.any_cons, List.any_nil, Bool.or_false,
    decide_eq_true_eq]
  rfl

/-- What a run keeps until the module ends. -/
structure Keeping (tr : List (Move (State Payload) (Label Payload))) (s : State Payload) :
    Prop where
  beyond : ∀ e, s.nextThread ≤ e → s.threads e = .done
  flies : s.shuttingDown = false → ∃ f, Flies s f (made tr)
  up : s.shuttingDown = false → booted tr = true ∨ s.Binds → s.Up

theorem initial_attempts : (initial : State Payload).attempts = ∅ := by
  refine Set.eq_empty_of_forall_notMem fun e he => ?_
  simp only [State.attempts, initial, Set.mem_ofPred_eq, Function.update_apply] at he
  split at he <;> cases he

theorem initial_keeping : Keeping [] (initial : State Payload) where
  beyond := initial_beyond
  flies := fun _ => ⟨.idle, rfl, initial_attempts⟩
  up := by
    rintro _ (hbooted | ⟨e, he⟩)
    · cases hbooted
    · simp only [initial, Function.update_apply] at he
      split at he <;> cases he

theorem keeping (h : Reaches tr s) (hguard : Guarded (fun s l => s.keepsCount l = true) tr) :
    Keeping tr s := by
  refine Run.guarded_history Keeping initial_keeping (fun tr s l s' _ hguard hs h => ?_) h hguard
  have hbefore : s'.shuttingDown = false → s.shuttingDown = false := by
    intro hup
    by_contra hdown
    rw [step_shuttingDown h (Or.inl (by simpa using hdown))] at hup
    cases hup
  refine ⟨step_beyond h hs.beyond, fun hup => ?_, fun hup => ?_⟩
  · obtain ⟨f, hf⟩ := hs.flies (hbefore hup)
    rw [made_snoc]
    refine (step_turn hs.beyond h hup).flies hf fun hboot => ?_
    simpa [State.keepsCount, hboot] using hguard
  · rw [booted_snoc]
    exact (step_turn hs.beyond h hup).up (hs.up (hbefore hup))

theorem Flies.outstanding {f : Flight} {n : ℕ} (h : Flies s f n) :
    (∀ a b, s.Outstanding a → s.Outstanding b → a = b) ∧
      (s.reconnecting = true → ∃ a, s.Outstanding a) := by
  have hfound : ∀ a, s.Outstanding a → f.outstanding = some a := by
    intro a ha
    cases a with
    | none => rw [h.waiting ha, Flight.outstanding]
    | some e => rw [h.attempt ha, Flight.outstanding]
  refine ⟨fun a b ha hb => Option.some.inj ((hfound a ha).symm.trans (hfound b hb)), fun hs => ?_⟩
  have hreconnecting : s.reconnecting = (f.reconnect s.reconnect.up n).reconnecting :=
    congrArg Reconnect.reconnecting h.view
  cases f with
  | idle =>
    rw [hs] at hreconnecting
    cases hreconnecting
  | waiting =>
    refine ⟨none, ?_⟩
    rw [State.Outstanding, h.timer]
    rfl
  | attempt e =>
    refine ⟨some e, ?_⟩
    rw [State.Outstanding, h.attempts]
    exact Set.mem_singleton e

/-- Reconnecting is single-flight, not forgotten, and backs off, in every run in which
`onModuleInit` does not succeed while a timer is pending. -/
theorem single_flight (h : Reaches tr s)
    (hguard : Guarded (fun s l => s.keepsCount l = true) tr) (hbooted : booted tr = true)
    (hup : s.shuttingDown = false) : SingleFlight (made tr) s := by
  have hkeeping := keeping h hguard
  obtain ⟨f, hf⟩ := hkeeping.flies hup
  obtain ⟨hone, hpending⟩ := hf.outstanding
  refine ⟨hone, fun hdown => hpending ?_, fun delayMs hdelay => ?_⟩
  · refine (hkeeping.up hup (Or.inl hbooted)).resolve_left ?_
    simp [State.reconnect, hdown]
  · rw [hf.timer] at hdelay
    cases f with
    | waiting => exact (Option.some.inj hdelay).symm
    | _ => cases hdelay

end

/-! ## Schedules -/

/-- The channel is lost after the start, and the first attempt fails. -/
def attemptFails : List (Label Unit) :=
  List.replicate 4 (.run 0 .ok) ++ [.channelLost 0, .timer, .run 1 .fails]

theorem single_flight_backs_off : ∃ tr s, Reaches tr s ∧
    (s : State Unit).reconnectTimer = some 2000 ∧ SingleFlight 1 s := by
  obtain ⟨tr, s, h, hp⟩ := exists_run_of_trace step (initial : State Unit) attemptFails
    (fun r => (r.1.all fun x => x.source.keepsCount x.label) && (booted r.1 && !r.2.shuttingDown) &&
      decide (r.2.reconnectTimer = some 2000 ∧ made r.1 = 1)) (by decide +kernel)
  simp only [Bool.and_eq_true, Bool.not_eq_true', decide_eq_true_eq] at hp
  obtain ⟨⟨hguard, hbooted, hup⟩, hdelay, hmade⟩ := hp
  have hsingle := single_flight h (guarded_of_all hguard) hbooted hup
  rw [hmade] at hsingle
  exact ⟨tr, s, h, hdelay, hsingle⟩

/-- The channel's loss comes while `onModuleInit` binds a subscription that was made before. Its
setup succeeds all the same, and the second attempt waits no longer than the first. -/
def bootOverLoss : List (Label Unit) :=
  .subscribe ⟨"q", "PurchaseCompleted"⟩ :: List.replicate 10 (.run 0 .ok) ++
    [.channelEvent 0, .run 0 .ok, .timer, .run 1 .fails]

theorem backoff_restarts : ¬ ∀ (tr : List (Move (State Unit) (Label Unit))) (s : State Unit),
    Reaches tr s → booted tr = true → s.shuttingDown = false → SingleFlight (made tr) s := by
  intro hall
  obtain ⟨tr, s, h, hp⟩ := exists_run_of_trace step (initial : State Unit) bootOverLoss
    (fun r => booted r.1 && !r.2.shuttingDown &&
      decide (r.2.reconnectTimer = some 1000 ∧ made r.1 = 1)) (by decide +kernel)
  simp only [Bool.and_eq_true, Bool.not_eq_true', decide_eq_true_eq] at hp
  obtain ⟨⟨hbooted, hup⟩, hdelay, hmade⟩ := hp
  have hwrong := (hall tr s h hbooted hup).delay 1000 hdelay
  rw [hmade] at hwrong
  exact absurd hwrong (by decide)

end Bumpa.Broker
