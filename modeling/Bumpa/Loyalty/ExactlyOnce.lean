import Bumpa.Loyalty.Isolation
import Mathlib.Algebra.BigOperators.Group.Finset.Basic
import Mathlib.Algebra.Ring.Nat

/-! # What a purchase event counts for

Transactions of one user run one after another (`Isolated`), so every commit adds its event to the
stats that the commit before it left (`Serial`): no increment is lost, and none is held back
either.

The `processed_events` check is made before the lock is taken, and the marker is saved over one
that is already there. `stats_exact_iff`: the stats count each committed event once exactly if no
delivery commits an event that another one has committed since the check. `purchase_counted_twice`
is two deliveries of one event that overlap.
-/
namespace Bumpa.Loyalty
open Bumpa.Events Bumpa.Relational Bumpa.Transition
set_option autoImplicit false

def Database.purchaseCount (db : Database) (userId : String) : ℕ :=
  ((db.stats.row userId).map (·.purchaseCount)).getD 0

def Database.totalSpendKobo (db : Database) (userId : String) : ℕ :=
  ((db.stats.row userId).map (·.totalSpendKobo)).getD 0

/-- The distinct committed events of a user. -/
def committedFor (cfg : Config) (s : State) (userId : String) : Finset ReadableId :=
  s.world.commits.toFinset.filter fun eventId => (cfg.payload eventId).userId = userId

/-- Every user's stats are the number and the sum of the user's distinct committed events. -/
def StatsExact (cfg : Config) (s : State) : Prop :=
  ∀ userId, s.world.db.purchaseCount userId = (committedFor cfg s userId).card ∧
    s.world.db.totalSpendKobo userId =
      ∑ eventId ∈ committedFor cfg s userId, (cfg.payload eventId).amountKobo

/-- No delivery commits an event that is committed already. -/
def commitsOnce (s : State) : Label → Bool
  | .run e o =>
    match s.threads e with
    | .transaction event _ .commit => !(o.takesEffect && event.eventId ∈ s.world.commits)
    | _ => true
  | _ => true

/-! ## Commits -/

theorem view_purchaseCount {db : Database} {event : PurchaseCompletedEvent} {tx : Tx}
    (h : tx.stats = some (countPurchase db event.payload)) (userId : String) :
    (tx.view db).purchaseCount userId =
      db.purchaseCount userId + if event.payload.userId = userId then 1 else 0 := by
  rw [Database.purchaseCount, view_stats_row h]
  by_cases hu : event.payload.userId = userId
  · subst hu
    rw [if_pos rfl, if_pos rfl]
    simp only [Database.purchaseCount, countPurchase, Option.map_some, Option.getD_some]
    cases db.stats.row event.payload.userId <;> rfl
  · rw [if_neg (Ne.symm hu), if_neg hu]
    rfl

theorem view_totalSpendKobo {db : Database} {event : PurchaseCompletedEvent} {tx : Tx}
    (h : tx.stats = some (countPurchase db event.payload)) (userId : String) :
    (tx.view db).totalSpendKobo userId = db.totalSpendKobo userId +
      if event.payload.userId = userId then event.payload.amountKobo else 0 := by
  rw [Database.totalSpendKobo, view_stats_row h]
  by_cases hu : event.payload.userId = userId
  · subst hu
    rw [if_pos rfl, if_pos rfl]
    simp only [Database.totalSpendKobo, countPurchase, Option.map_some, Option.getD_some]
    cases db.stats.row event.payload.userId <;> rfl
  · rw [if_neg (Ne.symm hu), if_neg hu]
    rfl

/-- The committed events of a user, each as often as it was committed. -/
def commitsFor (cfg : Config) (s : State) (userId : String) : List ReadableId :=
  s.world.commits.filter fun eventId => (cfg.payload eventId).userId = userId

/-- What every step keeps: transactions of one user run one after another, and the stats count
every commit. -/
structure Serial (cfg : Config) (s : State) : Prop where
  beyond : ∀ e, s.nextThread ≤ e → s.threads e = .done
  own : ∀ e event, (s.threads e).event = some event → event = cfg.event event.eventId
  locks : ∀ e, (s.threads e).Locks
  exclusive : ∀ e e' k, (s.threads e).lockedRow = some k → (s.threads e').lockedRow = some k → e = e'
  counts : ∀ e, (s.threads e).Counts s.world.db
  purchaseCount : ∀ userId, s.world.db.purchaseCount userId = (commitsFor cfg s userId).length
  totalSpendKobo : ∀ userId, s.world.db.totalSpendKobo userId =
    ((commitsFor cfg s userId).map fun eventId => (cfg.payload eventId).amountKobo).sum

theorem Serial.isolated {cfg : Config} {s : State} (hs : Serial cfg s) : Isolated cfg s :=
  ⟨hs.beyond, hs.own, hs.locks, hs.exclusive, hs.counts⟩

theorem commitsFor_commit {cfg : Config} {s s' : State} {event : PurchaseCompletedEvent}
    (hcommits : s'.world.commits = s.world.commits ++ [event.eventId])
    (hown : event = cfg.event event.eventId) (userId : String) :
    commitsFor cfg s' userId = commitsFor cfg s userId ++
      if event.payload.userId = userId then [event.eventId] else [] := by
  have huser : (cfg.payload event.eventId).userId = event.payload.userId := by
    conv_rhs => rw [hown]
    rfl
  rw [commitsFor, commitsFor, hcommits, List.filter_append]
  by_cases hu : event.payload.userId = userId <;> simp [huser, hu]

/-! ## Runs -/

/-- One step: it keeps the executions serial, and commits one more event if it commits. -/
theorem step_serial {cfg : Config} {s s' : State} {l : Label} (hcfg : cfg.OwnSnapshots)
    (hs : Serial cfg s) (h : step cfg s l = some s') :
    Serial cfg s' ∧
      ((s'.world.commits = s.world.commits ∧ commitsOnce s l = true) ∨
        ∃ eventId, s'.world.commits = s.world.commits ++ [eventId] ∧
          (commitsOnce s l = true ↔ eventId ∉ s.world.commits)) := by
  obtain ⟨hiso, hcommit | ⟨hdb, hcommits, hquiet⟩⟩ := step_isolated hcfg hs.isolated h
  · obtain ⟨e, event, tx, o, rfl, hth, heffect, hw⟩ := hcommit
    have hown := hs.own e event (by rw [hth]; rfl)
    have hstats : tx.stats = some (countPurchase s.world.db event.payload) := by
      have hc := hs.counts e
      rw [hth] at hc
      exact hc.1
    have hdb : s'.world.db = tx.view s.world.db := by rw [hw]; rfl
    have hcommits : s'.world.commits = s.world.commits ++ [event.eventId] := by rw [hw]; rfl
    refine ⟨⟨hiso.beyond, hiso.own, hiso.locks, hiso.exclusive, hiso.counts, fun userId => ?_,
      fun userId => ?_⟩, Or.inr ⟨event.eventId, hcommits, ?_⟩⟩
    · rw [hdb, view_purchaseCount hstats, hs.purchaseCount, commitsFor_commit hcommits hown]
      split <;> simp
    · rw [hdb, view_totalSpendKobo hstats, hs.totalSpendKobo, commitsFor_commit hcommits hown]
      have hamount : (cfg.payload event.eventId).amountKobo = event.payload.amountKobo := by
        conv_rhs => rw [hown]
        rfl
      split <;> simp [hamount]
    · simp [commitsOnce, hth, heffect]
  · have hsame : ∀ userId, commitsFor cfg s' userId = commitsFor cfg s userId := fun userId => by
      rw [commitsFor, commitsFor, hcommits]
    refine ⟨⟨hiso.beyond, hiso.own, hiso.locks, hiso.exclusive, hiso.counts, fun userId => ?_,
      fun userId => ?_⟩, Or.inl ⟨hcommits, ?_⟩⟩
    · rw [hdb, hsame]
      exact hs.purchaseCount userId
    · rw [hdb, hsame]
      exact hs.totalSpendKobo userId
    · cases l with
      | run e o =>
        simp only [commitsOnce]
        split
        · next event tx hth => simp [hquiet e event tx o rfl hth]
        · rfl
      | _ => rfl

theorem initial_serial (cfg : Config) : Serial cfg initial where
  beyond := fun _ _ => rfl
  own := fun _ _ h => by cases h
  locks := fun _ => trivial
  exclusive := fun _ _ _ h => by cases h
  counts := fun _ => trivial
  purchaseCount := fun _ => rfl
  totalSpendKobo := fun _ => rfl

theorem reaches_serial {cfg : Config} {tr : List (Move State Label)} {s : State}
    (hcfg : cfg.OwnSnapshots) (h : Reaches cfg tr s) : Serial cfg s :=
  Run.invariant (Serial cfg) (fun _ _ _ hs hstep => (step_serial hcfg hs hstep).1) h
    (initial_serial cfg)

/-- An event is committed twice exactly where a step commits one that was committed before. -/
theorem commits_nodup_iff {cfg : Config} {tr : List (Move State Label)} {s : State}
    (hcfg : cfg.OwnSnapshots) (h : Reaches cfg tr s) :
    s.world.commits.Nodup ↔ Guarded (fun s l => commitsOnce s l = true) tr := by
  induction h with
  | nil => exact iff_of_true List.nodup_nil (fun _ hx => by cases hx)
  | snoc prev last ih =>
    rw [guarded_snoc, ← ih]
    rcases (step_serial hcfg (reaches_serial hcfg prev) last).2 with
      ⟨hcommits, honce⟩ | ⟨eventId, hcommits, honce⟩
    · rw [hcommits]
      exact (and_iff_left honce).symm
    · rw [hcommits, honce, ← List.concat_eq_append, List.nodup_concat]
      exact And.comm

/-! ## Distinct events -/

theorem committedFor_eq (cfg : Config) (s : State) (userId : String) :
    committedFor cfg s userId = (commitsFor cfg s userId).toFinset := by
  rw [committedFor, commitsFor, List.toFinset_filter]
  simp only [decide_eq_true_eq]

/-- A user's count is that of distinct events for all users only if no event occurs twice. -/
theorem nodup_of_card {cfg : Config} {s : State}
    (h : ∀ userId, (commitsFor cfg s userId).length = (committedFor cfg s userId).card) :
    s.world.commits.Nodup := by
  rw [List.nodup_iff_count_le_one]
  intro eventId
  have huser := h (cfg.payload eventId).userId
  rw [committedFor_eq] at huser
  have hnodup : (commitsFor cfg s (cfg.payload eventId).userId).Nodup :=
    Multiset.toFinset_card_eq_card_iff_nodup.mp huser.symm
  have hcount := List.nodup_iff_count_le_one.mp hnodup eventId
  rwa [commitsFor, List.count_filter (by simp)] at hcount

/-- The stats count each committed event exactly once if and only if no delivery commits an event
that another one has committed since its check. -/
theorem stats_exact_iff {cfg : Config} {tr : List (Move State Label)} {s : State}
    (hcfg : cfg.OwnSnapshots) (h : Reaches cfg tr s) :
    StatsExact cfg s ↔ Guarded (fun s l => commitsOnce s l = true) tr := by
  have hs := reaches_serial hcfg h
  rw [← commits_nodup_iff hcfg h]
  constructor
  · intro hexact
    exact nodup_of_card fun userId => (hs.purchaseCount userId).symm.trans (hexact userId).1
  · intro hnodup userId
    have hfor : (commitsFor cfg s userId).Nodup := hnodup.filter _
    rw [hs.purchaseCount, hs.totalSpendKobo, committedFor_eq, List.sum_toFinset _ hfor,
      List.toFinset_card_of_nodup hfor]
    exact ⟨rfl, rfl⟩

/-! ## Schedules -/

/-- Every purchase is of 5000 kobo by one user; one achievement, and a badge that requires it. -/
def firstPurchaseConfig : Config where
  payload := fun eventId => ⟨"usr", eventId, 5000, ⟨"usr", "user@example.com", "Amina", none, none⟩⟩
  correlationId := id
  achievements := [⟨"ach_first_purchase", "First Purchase", "purchases", 1, .count 1 "GTE", true⟩]
  badges := [⟨"bdg_bronze", "Bronze", 1, 1, ["ach_first_purchase"], 30000, "NGN", true⟩]

theorem firstPurchase_ownSnapshots : firstPurchaseConfig.OwnSnapshots := fun _ => rfl

def Label.oks (e n : ℕ) : List Label := List.replicate n (.run e .ok)

/-- The first purchase unlocks both and is delivered again; the second one fails once. -/
theorem stats_exact_sequential : ∃ tr s, Reaches firstPurchaseConfig tr s ∧
    s.world.db.purchaseCount "usr" = 2 ∧ s.world.handedOver.length = 2 ∧
    StatsExact firstPurchaseConfig s := by
  obtain ⟨tr, s, h, hp⟩ := exists_run_of_trace (step firstPurchaseConfig) initial
    (.deliver 0 :: Label.oks 0 18 ++ .deliver 0 :: Label.oks 1 1 ++
      .deliver 1 :: Label.oks 2 4 ++ [.run 2 (.fails false)] ++ .deliver 1 :: Label.oks 3 14)
    (fun r => (r.1.all fun x => commitsOnce x.source x.label) &&
      decide (r.2.world.db.purchaseCount "usr" = 2 ∧ r.2.world.handedOver.length = 2))
    (by decide +kernel)
  rw [Bool.and_eq_true, decide_eq_true_eq] at hp
  exact ⟨tr, s, h, hp.2.1, hp.2.2,
    (stats_exact_iff firstPurchase_ownSnapshots h).mpr (guarded_of_all hp.1)⟩

/-- Two deliveries of one event pass the check before either commits. -/
theorem purchase_counted_twice : ¬ ∀ (cfg : Config) (tr : List (Move State Label)) (s : State),
    cfg.OwnSnapshots → Reaches cfg tr s → (∀ e, s.threads e = .done) → StatsExact cfg s := by
  intro hall
  obtain ⟨tr, s, h, hp⟩ := exists_run_of_trace (step firstPurchaseConfig) initial
    (.deliver 0 :: .deliver 0 :: Label.oks 0 1 ++ Label.oks 1 1 ++ Label.oks 0 17 ++
      Label.oks 1 13)
    (fun r => decide (r.2.world.db.purchaseCount "usr" = 2 ∧ r.2.world.commits = [0, 0] ∧
      r.2.nextThread = 2) && (match r.2.threads 0, r.2.threads 1 with
        | .done, .done => true
        | _, _ => false)) (by decide +kernel)
  simp only [Bool.and_eq_true, decide_eq_true_eq] at hp
  obtain ⟨⟨hcount, hcommits, hnext⟩, hthreads⟩ := hp
  have hs := reaches_serial firstPurchase_ownSnapshots h
  have hdone : ∀ e, s.threads e = .done := by
    intro e
    match e with
    | 0 => revert hthreads; split <;> simp_all
    | 1 => revert hthreads; split <;> simp_all
    | e + 2 => exact hs.beyond (e + 2) (by omega)
  have hexact := (hall _ tr s firstPurchase_ownSnapshots h hdone "usr").1
  rw [hcount, committedFor, hcommits] at hexact
  exact absurd hexact (by decide)

end Bumpa.Loyalty
