import Bumpa.Broker.LiveConsumers

/-! # What a step does to the reconnect

Whether there is a channel, the flag, the attempt count and the timer are seen together, with the
setups that the timer has started. Until the module ends, a step leaves them alone, is a connection
issue, fires the timer, stores a new channel or ends a setup, and nothing else (`step_turn`).
-/
namespace Bumpa.Broker
open Bumpa.Transition
set_option autoImplicit false

variable {Payload : Type}

structure Reconnect where
  up : Bool
  reconnecting : Bool
  attempt : ℕ
  timer : Option ℕ
  deriving DecidableEq, Repr

namespace Reconnect

def schedule (r : Reconnect) : Reconnect :=
  if r.reconnecting then r
  else
    { r with
      reconnecting := true
      timer := some (min (initialReconnectDelayMs * 2 ^ r.attempt) maxReconnectDelayMs)
      attempt := r.attempt + 1 }

def issue (r : Reconnect) : Reconnect := schedule { r with up := false }

/-- A setup of this origin has ended. -/
def ended (r : Reconnect) : SetupOrigin → Reconnect
  | .moduleInit => r
  | .reconnectTimer =>
    if r.up then { r with reconnecting := false } else schedule { r with reconnecting := false }

end Reconnect

def Thread.binds : Thread Payload → Bool
  | .setup _ (.bind _ _ _ _) => true
  | _ => false

def Label.isTimer : Label Payload → Bool
  | .timer => true
  | _ => false

namespace State

def reconnect (s : State Payload) : Reconnect :=
  ⟨s.channel.isSome, s.reconnecting, s.reconnectAttempt, s.reconnectTimer⟩

/-- The setups that the timer has started. -/
def attempts (s : State Payload) : Set ℕ :=
  {e | (s.threads e).isSetup .reconnectTimer = true}

/-- Some setup is binding the subscriptions. -/
def Binds (s : State Payload) : Prop := ∃ e, (s.threads e).binds = true

/-- The origin of the setup that is fully successful with this step. -/
def completes (s : State Payload) : Label Payload → Option SetupOrigin
  | .run e .ok =>
    match s.threads e with
    | .setup origin (.assertDeadLetter _ _) =>
      if s.subscriptions.length ≤ 0 then some origin else none
    | .setup origin (.bind _ _ [] next) =>
      if s.subscriptions.length ≤ next then some origin else none
    | _ => none
  | _ => none

end State

inductive Turn (s s' : State Payload) (l : Label Payload) : Prop
  | aside (view : s'.reconnect = s.reconnect) (attempts : s'.attempts = s.attempts)
      (binds : s'.Binds → s.Binds) (timer : l.isTimer = false) (completes : s.completes l = none)
  | issue (view : s'.reconnect = s.reconnect.issue) (attempts : s'.attempts = s.attempts)
      (binds : s'.Binds → s.Binds) (timer : l.isTimer = false) (completes : s.completes l = none)
  | fires (view : s'.reconnect = { s.reconnect with timer := none })
      (attempts : s'.attempts = insert s.nextThread s.attempts) (binds : s'.Binds → s.Binds)
      (timer : l.isTimer = true) (completes : s.completes l = none)
      (pending : s.reconnectTimer.isSome = true)
  | connects (view : s'.reconnect = { s.reconnect with up := true })
      (attempts : s'.attempts = s.attempts) (timer : l.isTimer = false)
      (completes : s.completes l = none)
  | ends {e : ℕ} {origin : SetupOrigin} (connects : Bool)
      (view : s'.reconnect = Reconnect.ended
        { s.reconnect with
          up := s.reconnect.up || connects
          attempt := if (s.completes l).isSome then 0 else s.reconnect.attempt } origin)
      (attempts : s'.attempts = s.attempts \ {e}) (binds : s'.Binds → s.Binds)
      (timer : l.isTimer = false) (setup : (s.threads e).isSetup origin = true)
      (completes : ∀ origin', s.completes l = some origin' →
        origin' = origin ∧ (connects = true ∨ s.Binds))

/-! ## Executions -/

section
variable {s s' : State Payload} {e : ℕ} {th : Thread Payload}

theorem SameThreads.attempts (h : SameThreads s s') : s'.attempts = s.attempts := by
  rw [State.attempts, State.attempts, h.2]

theorem SameThreads.binds (h : SameThreads s s') : s'.Binds → s.Binds := by
  rw [State.Binds, State.Binds, h.2]
  exact id

theorem setThread_attempts
    (h : th.isSetup .reconnectTimer = (s.threads e).isSetup .reconnectTimer) :
    (s.setThread e th).attempts = s.attempts := by
  ext e'
  simp only [State.attempts, State.setThread, Function.update_apply, Set.mem_ofPred_eq]
  split
  · next heq => rw [h, heq]
  · rfl

theorem done_attempts : (s.setThread e .done).attempts = s.attempts \ {e} := by
  ext e'
  simp only [State.attempts, State.setThread, Function.update_apply, Set.mem_ofPred_eq, Set.mem_sdiff,
    Set.mem_singleton_iff]
  split
  · next heq => simp [heq, Thread.isSetup]
  · next hne => simp [hne]

theorem setThread_binds (h : th.binds = true → s.Binds) : (s.setThread e th).Binds → s.Binds := by
  rintro ⟨e', he'⟩
  simp only [State.setThread, Function.update_apply] at he'
  split at he'
  · exact h he'
  · exact ⟨e', he'⟩

theorem setupEnded_attempts (origin : SetupOrigin) :
    (s.setupEnded e origin).attempts = s.attempts \ {e} :=
  (setupEnded_threads s e origin).attempts.trans done_attempts

theorem setupEnded_binds (origin : SetupOrigin) : (s.setupEnded e origin).Binds → s.Binds :=
  fun h => setThread_binds (fun hdone => by cases hdone) ((setupEnded_threads s e origin).binds h)

/-! ## Views -/

theorem scheduleReconnect_view (h : s.shuttingDown = false) :
    s.scheduleReconnect.reconnect = s.reconnect.schedule := by
  cases hreconnecting : s.reconnecting with
  | false => simp [State.scheduleReconnect, Reconnect.schedule, State.reconnect, h, hreconnecting]
  | true =>
    rw [scheduleReconnect_again hreconnecting, Reconnect.schedule, State.reconnect, hreconnecting,
      if_pos rfl]

theorem handleConnectionIssue_view (h : s.shuttingDown = false) :
    s.handleConnectionIssue.reconnect = s.reconnect.issue := by
  rw [handleConnectionIssue_up h]
  exact scheduleReconnect_view h

/-- `.finally` of a reconnect, before it looks whether there is a channel. -/
def State.finished (s : State Payload) (e : ℕ) : State Payload :=
  { s.setThread e .done with reconnecting := false }

theorem setupEnded_finished (s : State Payload) (e : ℕ) : s.setupEnded e .reconnectTimer =
    if s.channel.isNone && !s.shuttingDown then (s.finished e).scheduleReconnect
    else s.finished e := rfl

theorem setupEnded_view (h : s.shuttingDown = false) (origin : SetupOrigin) :
    (s.setupEnded e origin).reconnect = s.reconnect.ended origin := by
  cases origin with
  | moduleInit => rfl
  | reconnectTimer =>
    rw [setupEnded_finished, h, Bool.not_false, Bool.and_true]
    cases hchannel : s.channel with
    | none =>
      have hfinished : (s.finished e).shuttingDown = false := h
      rw [Option.isNone_none, if_pos rfl, scheduleReconnect_view hfinished]
      simp [Reconnect.ended, State.reconnect, State.finished, State.setThread, hchannel]
    | some c => simp [Reconnect.ended, State.reconnect, State.finished, State.setThread, hchannel]

theorem settle_view (kind : SettlementKind) (d : Delivery Payload) :
    (s.settle kind d).reconnect = s.reconnect := by
  unfold State.settle
  split <;> rfl

end

/-! ## Steps -/

section
variable {s s' : State Payload} {l : Label Payload}

/-- Whether the objects that are lost have listeners. -/
theorem lost_turn {t : State Payload} {heard : Bool} (h : s.shuttingDown = false)
    (hsame : t.reconnect = s.reconnect) (hdown : t.shuttingDown = s.shuttingDown)
    (hattempts : t.attempts = s.attempts) (hbinds : t.Binds → s.Binds)
    (htimer : l.isTimer = false) (hcompletes : s.completes l = none) :
    Turn s (if heard then t.handleConnectionIssue else t) l := by
  cases heard with
  | false => exact .aside hsame hattempts hbinds htimer hcompletes
  | true =>
    have hissue := handleConnectionIssue_threads t
    refine .issue ?_ (hissue.attempts.trans hattempts) (fun h => hbinds (hissue.binds h)) htimer
      hcompletes
    exact (handleConnectionIssue_view (hdown.trans h)).trans (by rw [hsame])

/-- The loop over the subscriptions goes on. -/
theorem bindNext_cases (s : State Payload) (e : ℕ) (origin : SetupOrigin) (next : ℕ) :
    (s.subscriptions.length ≤ next ∧
      s.bindNext e origin next = { s with reconnectAttempt := 0 }.setupEnded e origin) ∨
    (next < s.subscriptions.length ∧ ∃ c call calls, s.channel = some c ∧
      s.bindNext e origin next = s.setThread e (.setup origin (.bind c call calls (next + 1)))) ∨
    (next < s.subscriptions.length ∧ s.channel = none ∧
      s.bindNext e origin next = s.setupEnded e origin) := by
  unfold State.bindNext
  cases hnext : s.subscriptions[next]? with
  | none => exact Or.inl ⟨List.getElem?_eq_none_iff.mp hnext, rfl⟩
  | some subscription =>
    have hlt := (List.getElem?_eq_some_iff.mp hnext).1
    refine Or.inr ?_
    cases hchannel : s.channel with
    | none => exact Or.inr ⟨hlt, rfl, rfl⟩
    | some c => exact Or.inl ⟨hlt, c, _, _, rfl, rfl⟩

section Setup
variable {e : ℕ} {origin : SetupOrigin} {pc : SetupPc}

theorem goesOn_turn {t : State Payload} {pc' : SetupPc} (he : s.threads e = .setup origin pc)
    (hsame : t.reconnect = s.reconnect) (hthreads : SameThreads s t)
    (hbinds : (Thread.setup origin pc' : Thread Payload).binds = true → s.Binds)
    (htimer : l.isTimer = false) (hcompletes : s.completes l = none) :
    Turn s (t.setThread e (.setup origin pc')) l := by
  have hsetup : (Thread.setup origin pc' : Thread Payload).isSetup .reconnectTimer =
      (t.threads e).isSetup .reconnectTimer := by
    rw [hthreads.2, he]
    rfl
  have hkept : (Thread.setup origin pc' : Thread Payload).binds = true → t.Binds := fun hth => by
    obtain ⟨e', he'⟩ := hbinds hth
    exact ⟨e', by rwa [hthreads.2]⟩
  exact .aside hsame ((setThread_attempts hsetup).trans hthreads.attempts)
    (fun h => hthreads.binds (setThread_binds hkept h)) htimer hcompletes

/-- The loop over the subscriptions, from a state with this channel. -/
theorem bindNext_turn {t : State Payload} {next : ℕ} (connects : Bool) (hup : s.shuttingDown = false)
    (he : s.threads e = .setup origin pc)
    (hview : t.reconnect = { s.reconnect with up := s.reconnect.up || connects })
    (hdown : t.shuttingDown = s.shuttingDown) (hsubscriptions : t.subscriptions = s.subscriptions)
    (hthreads : SameThreads s t) (hbinds : connects = true ∨ s.Binds)
    (hconnected : connects = true → t.channel.isSome = true) (htimer : l.isTimer = false)
    (hcompletes : s.completes l = if s.subscriptions.length ≤ next then some origin else none) :
    Turn s (t.bindNext e origin next) l := by
  have hsetup : (s.threads e).isSetup origin = true := by
    rw [he]
    exact decide_eq_true rfl
  rcases bindNext_cases t e origin next with ⟨hle, heq⟩ | ⟨hlt, c, call, calls, _, heq⟩ |
    ⟨hlt, hnone, heq⟩
  · rw [hsubscriptions] at hle
    rw [if_pos hle] at hcompletes
    rw [heq]
    have hreset : SameThreads s { t with reconnectAttempt := 0 } := hthreads
    have hended : { t with reconnectAttempt := 0 }.shuttingDown = false := hdown.trans hup
    refine .ends connects ?_ ?_ ?_ htimer hsetup fun origin' horigin => ?_
    · rw [setupEnded_view hended, hcompletes]
      refine congrArg (Reconnect.ended · origin) ?_
      exact congrArg (fun r : Reconnect => { r with attempt := 0 }) hview
    · rw [setupEnded_attempts, hreset.attempts]
    · exact fun h => hreset.binds (setupEnded_binds origin h)
    · rw [hcompletes, Option.some.injEq] at horigin
      exact ⟨horigin.symm, hbinds⟩
  · rw [hsubscriptions] at hlt
    rw [if_neg (Nat.not_le.mpr hlt)] at hcompletes
    rw [heq]
    cases connects with
    | true =>
      have hth : (Thread.setup origin (.bind c call calls (next + 1)) : Thread Payload).isSetup
          .reconnectTimer = (t.threads e).isSetup .reconnectTimer := by
        rw [hthreads.2, he]
        rfl
      refine .connects ?_ ((setThread_attempts hth).trans hthreads.attempts) htimer hcompletes
      exact hview.trans (by rw [Bool.or_true])
    | false =>
      refine goesOn_turn he (hview.trans ?_) hthreads (fun _ => ?_) htimer hcompletes
      · rw [Bool.or_false]
      · exact hbinds.resolve_left Bool.false_ne_true
  · rw [hsubscriptions] at hlt
    rw [if_neg (Nat.not_le.mpr hlt)] at hcompletes
    rw [heq]
    cases connects with
    | true =>
      have hsome := hconnected rfl
      rw [hnone] at hsome
      cases hsome
    | false =>
      refine .ends false ?_ ?_ ?_ htimer hsetup fun origin' horigin => ?_
      · rw [setupEnded_view (hdown.trans hup), hview, hcompletes]
        rfl
      · rw [setupEnded_attempts, hthreads.attempts]
      · exact fun h => hthreads.binds (setupEnded_binds origin h)
      · rw [hcompletes] at horigin
        cases horigin

theorem setup_turn {o : Outcome} (hup : s.shuttingDown = false)
    (he : s.threads e = .setup origin pc) (h : s.advanceSetup e origin pc o = some s') :
    Turn s s' (.run e o) := by
  have hsetup : (s.threads e).isSetup origin = true := by
    rw [he]
    exact decide_eq_true rfl
  cases o with
  | fails =>
    cases h
    refine .ends false ?_ (setupEnded_attempts origin) (setupEnded_binds origin) rfl hsetup
      fun _ hcompletes => by cases hcompletes
    exact (setupEnded_view hup origin).trans (by rw [Bool.or_false]; rfl)
  | ok =>
    cases pc with
    | connect =>
      cases h
      exact goesOn_turn he rfl ⟨rfl, rfl⟩ (fun hbinds => by cases hbinds) rfl
        (by simp only [State.completes, he])
    | createConfirmChannel n =>
      simp only [State.advanceSetup] at h
      split at h <;> cases h
      exact goesOn_turn he rfl ⟨rfl, rfl⟩ (fun hbinds => by cases hbinds) rfl
        (by simp only [State.completes, he])
    | assertEvents n c =>
      simp only [State.advanceSetup] at h
      split at h <;> cases h
      exact goesOn_turn he rfl ⟨rfl, rfl⟩ (fun hbinds => by cases hbinds) rfl
        (by simp only [State.completes, he])
    | assertDeadLetter n c =>
      simp only [State.advanceSetup] at h
      split at h <;> cases h
      refine bindNext_turn true hup he ?_ rfl rfl ⟨rfl, rfl⟩ (Or.inl rfl) (fun _ => rfl) rfl
        (by simp only [State.completes, he])
      simp [State.reconnect]
    | bind c call calls next =>
      have hbinds : s.Binds := ⟨e, by rw [he]; rfl⟩
      simp only [State.advanceSetup] at h
      split at h
      · cases calls with
        | nil =>
          cases h
          refine bindNext_turn false hup he ?_ rfl rfl ⟨rfl, rfl⟩ (Or.inr hbinds)
            (fun hfalse => by cases hfalse) rfl (by simp only [State.completes, he])
          simp [State.reconnect, State.setChannel]
        | cons call' calls' =>
          cases h
          exact goesOn_turn he rfl ⟨rfl, rfl⟩ (fun _ => hbinds) rfl
            (by simp only [State.completes, he])
      · cases h

end Setup

theorem completes_run {e : ℕ} (h : ∀ origin, (s.threads e).isSetup origin = false) (o : Outcome) :
    s.completes (.run e o) = none := by
  cases o with
  | fails => rfl
  | ok =>
    cases he : s.threads e with
    | setup origin pc =>
      have hsetup := h origin
      simp [he, Thread.isSetup] at hsetup
    | _ => simp only [State.completes, he]

/-- An execution that is no setup goes on as none. -/
theorem otherwise_turn {t : State Payload} {e : ℕ} {th : Thread Payload} {o : Outcome}
    (hbefore : ∀ origin, (s.threads e).isSetup origin = false)
    (hth : th.isSetup .reconnectTimer = false) (hbinds : th.binds = false)
    (hsame : t.reconnect = s.reconnect) (hthreads : SameThreads (s.setThread e th) t) :
    Turn s t (.run e o) := by
  have hattempts := setThread_attempts (hth.trans (hbefore .reconnectTimer).symm)
  have hnone : th.binds = true → s.Binds := fun h => by
    rw [hbinds] at h
    cases h
  exact .aside hsame (hthreads.attempts.trans hattempts)
    (fun h => setThread_binds hnone (hthreads.binds h)) rfl (completes_run hbefore o)

theorem advance_turn {e : ℕ} {o : Outcome} (hup : s.shuttingDown = false)
    (h : advance s e o = some s') : Turn s s' (.run e o) := by
  cases he : s.threads e with
  | done =>
    simp only [advance, he] at h
    cases h
  | setup origin pc =>
    simp only [advance, he] at h
    exact setup_turn hup he h
  | subscribe c call calls =>
    have hbefore : ∀ origin, (s.threads e).isSetup origin = false := fun _ => by rw [he]; rfl
    simp only [advance, he] at h
    cases o with
    | fails =>
      cases h
      exact otherwise_turn hbefore rfl rfl rfl ⟨rfl, rfl⟩
    | ok =>
      simp only at h
      split at h
      · cases h
        cases calls with
        | nil => exact otherwise_turn hbefore rfl rfl rfl ⟨rfl, rfl⟩
        | cons call' calls' => exact otherwise_turn hbefore rfl rfl rfl ⟨rfl, rfl⟩
      · cases h
  | handle d =>
    have hbefore : ∀ origin, (s.threads e).isSetup origin = false := fun _ => by rw [he]; rfl
    simp only [advance, he] at h
    cases h
    refine otherwise_turn hbefore rfl rfl ?_ (handlerSettled_threads (s.setThread e .done) d o)
    obtain ⟨kind, retries, heq⟩ := handlerSettled_cases (s.setThread e .done) d o
    rw [heq]
    exact settle_view kind d
  | destroy =>
    have hbefore : ∀ origin, (s.threads e).isSetup origin = false := fun _ => by rw [he]; rfl
    simp only [advance, he] at h
    have hdone : (s.setThread e .done).attempts = s.attempts :=
      setThread_attempts (hbefore .reconnectTimer).symm
    cases hn : s.connection with
    | none =>
      rw [State.setThread, hn] at h
      cases h
      exact otherwise_turn hbefore rfl rfl rfl ⟨rfl, rfl⟩
    | some n =>
      rw [State.setThread, hn] at h
      cases h
      exact lost_turn hup rfl rfl hdone (setThread_binds fun hbinds => by cases hbinds) rfl
        (completes_run hbefore o)

/-! ## Spawning -/

theorem spawn_attempts {th : Thread Payload} (hidle : s.threads s.nextThread = .done)
    (hth : th.isSetup .reconnectTimer = false) : (s.spawn th).attempts = s.attempts := by
  have hsame : th.isSetup .reconnectTimer = (s.threads s.nextThread).isSetup .reconnectTimer := by
    rw [hth, hidle]
    rfl
  exact setThread_attempts hsame

theorem spawn_binds {th : Thread Payload} (hth : th.binds = false) :
    (s.spawn th).Binds → s.Binds :=
  setThread_binds (e := s.nextThread) fun h => by
    rw [hth] at h
    cases h

theorem timer_turn (hup : s.shuttingDown = false) (h : step s .timer = some s') :
    Turn s s' .timer := by
  simp only [step] at h
  split at h
  · next hpending =>
    rw [if_neg (by rw [hup]; simp)] at h
    cases h
    refine .fires rfl ?_ (spawn_binds rfl) rfl rfl hpending
    ext e
    simp only [State.attempts, State.spawn, State.setThread, Function.update_apply,
      Set.mem_ofPred_eq, Set.mem_insert_iff]
    split
    · next heq => simp [heq, Thread.isSetup]
    · next hne => simp [hne]
  · cases h

/-- What a step does to the reconnect, as long as the module does not end. -/
theorem step_turn (hbeyond : ∀ e, s.nextThread ≤ e → s.threads e = .done)
    (h : step s l = some s') (hup : s'.shuttingDown = false) : Turn s s' l := by
  have hidle := hbeyond s.nextThread (Nat.le_refl _)
  have hs : s.shuttingDown = false := by
    by_contra hdown
    rw [step_shuttingDown h (Or.inl (by simpa using hdown))] at hup
    cases hup
  cases l with
  | onModuleDestroy =>
    rw [step_shuttingDown h (Or.inr rfl)] at hup
    cases hup
  | subscribe subscription =>
    rcases step_subscribe h with ⟨-, rfl⟩ | ⟨c, call, calls, -, -, rfl⟩
    · exact .aside rfl rfl id rfl rfl
    · exact .aside rfl (spawn_attempts (s := s.registered subscription) hidle rfl)
        (spawn_binds (s := s.registered subscription) rfl) rfl rfl
  | timer => exact timer_turn hs h
  | deliver c consumer message =>
    obtain ⟨d, -, -, -, -, rfl⟩ := deliver_cases h
    cases hcontent : d.message.content with
    | malformed raw =>
      simp only [State.handleMessage, hcontent]
      have hsame := settle_threads (s.numbered d) .nack d
      exact .aside (settle_view .nack d) hsame.attempts hsame.binds rfl rfl
    | json event =>
      simp only [State.handleMessage, hcontent]
      exact .aside rfl (spawn_attempts (s := s.numbered d) hidle rfl)
        (spawn_binds (s := s.numbered d) rfl) rfl rfl
  | cancelled c consumer =>
    cases h
    exact .aside rfl rfl id rfl rfl
  | channelLost c =>
    cases h
    exact lost_turn hs rfl rfl rfl id rfl rfl
  | connectionLost n =>
    cases h
    exact lost_turn hs rfl rfl rfl id rfl rfl
  | channelEvent c =>
    cases h
    exact lost_turn hs rfl rfl rfl id rfl rfl
  | connectionEvent n =>
    cases h
    exact lost_turn hs rfl rfl rfl id rfl rfl
  | run e o => exact advance_turn hs h

end

end Bumpa.Broker
