import Bumpa.Loyalty.LoyaltyService
import Bumpa.Transition.Threads

/-! # Transactions of one user run one after another

The upsert of the projection is the first statement of a transaction and keeps its row locked, so
transactions of one user exclude one another, provided that the snapshot in an event is its own
user's, as the purchase service builds it. What a transaction has read of its user is therefore
still what is committed (`Isolated`), at every statement and from any database on.

`statement_frame`, `statement_locks` and `statement_counts` say what a statement does; `Quiet` and
`advance_cases` put them together for an execution, `step_cases` for the system.
-/
namespace Bumpa.Loyalty
open Bumpa.Events Bumpa.Relational Bumpa.Transition
set_option autoImplicit false

/-- The statement that was issued took effect. -/
def Outcome.takesEffect : Outcome → Bool
  | .ok => true
  | .fails written => written

/-- The snapshot in every event is its own user's. -/
def Config.OwnSnapshots (cfg : Config) : Prop :=
  ∀ eventId, (cfg.payload eventId).user.id = (cfg.payload eventId).userId

/-! ## Statements -/

/-- The projection's row is locked from the first statement on. -/
def Thread.Locks : Thread → Prop
  | .transaction _ tx .upsert => tx.projection = none
  | .transaction event tx _ => tx.projection.map (·.id) = some event.payload.user.id
  | _ => True

/-- The columns of the committed stats take this purchase. -/
def Database.Countable (db : Database) (payload : PurchaseCompletedPayload) : Prop :=
  UserStats.outOfRange (db.stats.row payload.userId) (countPurchase db payload) = false

instance (db : Database) (payload : PurchaseCompletedPayload) : Decidable (db.Countable payload) :=
  inferInstanceAs (Decidable (_ = _))

/-- The transaction's stats are the committed ones with this purchase, and fit once written. -/
def Thread.Counts (db : Database) : Thread → Prop
  | .transaction _ tx .upsert | .transaction _ tx .findStats => tx.stats = none
  | .transaction event tx (.selectStats stats) =>
    tx.stats = none ∧ stats = countPurchase db event.payload
  | .transaction event tx (.writeStats stats selected) =>
    tx.stats = none ∧ stats = countPurchase db event.payload ∧
      selected = db.stats.row event.payload.userId
  | .transaction event tx _ =>
    tx.stats = some (countPurchase db event.payload) ∧ db.Countable event.payload
  | _ => True

/-- The purchase event of an execution that has not committed. -/
def Thread.event : Thread → Option PurchaseCompletedEvent
  | .alreadyProcessed event | .transaction event _ _ => some event
  | _ => none

theorem view_stats {tx : Tx} {db : Database} (h : tx.stats = none) :
    (tx.view db).stats = db.stats := by
  rw [Tx.view, h]
  rfl

theorem countPurchase_congr {db db' : Database} {payload : PurchaseCompletedPayload}
    (h : db'.stats.row payload.userId = db.stats.row payload.userId) :
    countPurchase db' payload = countPurchase db payload := by
  rw [countPurchase, h]
  rfl

theorem countable_congr {db db' : Database} {payload : PurchaseCompletedPayload}
    (h : db'.stats.row payload.userId = db.stats.row payload.userId) :
    db'.Countable payload ↔ db.Countable payload := by
  rw [Database.Countable, Database.Countable, countPurchase_congr h, h]

theorem countPurchase_userId (db : Database) (payload : PurchaseCompletedPayload) :
    (countPurchase db payload).userId = payload.userId := by
  simp only [countPurchase]
  cases hrow : db.stats.row payload.userId with
  | none => rfl
  | some row => exact db.stats.key_eq hrow

/-- The UPDATE of a purchase that was counted on the row as it still is writes that count. -/
theorem updated_counted {db : Database} {payload : PurchaseCompletedPayload} {row : UserStats}
    (h : db.stats.row payload.userId = some row) :
    row.updated row (countPurchase db payload) = countPurchase db payload := by
  simp only [UserStats.updated, countPurchase, h, Option.getD_some]
  congr 1
  · simp
  · split <;> simp_all

theorem counted_ne (db : Database) (payload : PurchaseCompletedPayload) :
    db.stats.row payload.userId ≠ some (countPurchase db payload) := by
  intro h
  have hcount : (countPurchase db payload).purchaseCount =
      (countPurchase db payload).purchaseCount + 1 := by
    conv_lhs => rw [countPurchase, h]
    rfl
  omega

/-- The statements after the stats have been written. -/
def Pc.Counted : Pc → Prop
  | .upsert | .findStats | .selectStats _ | .writeStats _ _ => False
  | _ => True

theorem unlockNext_counted (loop : UnlockLoop) : (unlockNext loop).Counted := by
  unfold unlockNext
  split <;> trivial

theorem badgeNext_counted (badges : List BadgeConfig) : (badgeNext badges).Counted := by
  cases badges <;> trivial

theorem counted_locks {event : PurchaseCompletedEvent} {tx : Tx} {pc : Pc} (h : pc.Counted) :
    (Thread.transaction event tx pc).Locks ↔
      tx.projection.map (·.id) = some event.payload.user.id := by
  cases pc <;> first | exact h.elim | exact Iff.rfl

theorem counted_counts {event : PurchaseCompletedEvent} {tx : Tx} {pc : Pc} {db : Database}
    (h : pc.Counted) : (Thread.transaction event tx pc).Counts db ↔
      tx.stats = some (countPurchase db event.payload) ∧ db.Countable event.payload := by
  cases pc <;> first | exact h.elim | exact Iff.rfl

/-- A statement commits; or it leaves what is committed, and the execution is over or goes on with
the row locked that it had or, after the upsert, that no other one has. -/
theorem statement_frame {cfg : Config} {w w' : World} {others : List Tx}
    {event : PurchaseCompletedEvent} {tx : Tx} {pc : Pc} {th' : Thread}
    (h : statement cfg w others event tx pc = some (w', th')) :
    (pc = .commit ∧ w' = w.commit event tx ∧ th'.tx = none ∧ th'.event = none) ∨
    (pc ≠ .commit ∧ w'.db = w.db ∧ w'.commits = w.commits ∧
      (th' = .done ∨ ∃ tx' pc', th' = .transaction event tx' pc' ∧
        (tx'.projection = tx.projection ∨
          ∀ tx'' ∈ others, tx''.projection.map (·.id) ≠ tx'.projection.map (·.id)))) := by
  cases pc with
  | commit =>
    cases h
    exact Or.inl ⟨rfl, rfl, rfl, rfl⟩
  | upsert =>
    refine Or.inr ⟨by simp, ?_⟩
    simp only [statement] at h
    split at h <;> cases h
    next hfree =>
    refine ⟨rfl, rfl, Or.inr ⟨_, _, rfl, Or.inr fun tx'' hmem => ?_⟩⟩
    have hne := List.all_eq_true.mp hfree tx'' hmem
    cases hp : tx''.projection with
    | none => simp
    | some row => simpa [hp] using hne
  | _ =>
    refine Or.inr ⟨by simp, ?_⟩
    simp only [statement] at h
    grind

theorem statement_locks {cfg : Config} {w w' : World} {others : List Tx}
    {event : PurchaseCompletedEvent} {tx : Tx} {pc : Pc} {th' : Thread}
    (h : statement cfg w others event tx pc = some (w', th'))
    (hl : (Thread.transaction event tx pc).Locks) : th'.Locks := by
  cases pc with
  | upsert =>
    simp only [statement] at h
    split at h <;> cases h
    rfl
  | _ =>
    simp only [statement] at h
    simp only [Thread.Locks] at hl
    grind [Thread.Locks, counted_locks, unlockNext_counted, badgeNext_counted]

theorem statement_counts {cfg : Config} {w w' : World} {others : List Tx}
    {event : PurchaseCompletedEvent} {tx : Tx} {pc : Pc} {th' : Thread}
    (h : statement cfg w others event tx pc = some (w', th')) (hpc : pc ≠ .commit)
    (hc : (Thread.transaction event tx pc).Counts w.db) : th'.Counts w.db := by
  cases pc with
  | writeStats stats selected =>
    obtain ⟨hnone, rfl, rfl⟩ := hc
    have hne := counted_ne w.db event.payload
    simp only [statement, view_stats hnone, countPurchase_userId, hne, if_false] at h
    split at h
    · cases h
      trivial
    · next hrange =>
      have hcountable : w.db.Countable event.payload := Bool.eq_false_iff.mpr hrange
      split at h
      · split at h
        · cases h
          exact ⟨rfl, hcountable⟩
        · cases h
          trivial
        · next hrow hnone' =>
          rw [hrow] at hnone'
          cases hnone'
        · next old row hold hrow =>
          rw [hold] at hrow
          cases hrow
          cases h
          exact ⟨congrArg some (updated_counted hold), hcountable⟩
      · cases h
  | commit => exact absurd rfl hpc
  | _ =>
    simp only [statement] at h
    simp only [Thread.Counts] at hc
    grind [Thread.Counts, counted_counts, unlockNext_counted, badgeNext_counted, view_stats,
      countPurchase_userId, countPurchase]

/-! ## One step of an execution -/

/-- The projection an execution keeps locked. -/
def Thread.lockedRow (th : Thread) : Option String :=
  (th.tx.bind (·.projection)).map (·.id)

/-- A step that commits nothing, and takes no lock that another execution has. -/
structure Quiet (w w' : World) (others : List Tx) (th th' : Thread) (o : Outcome) : Prop where
  db : w'.db = w.db
  commits : w'.commits = w.commits
  commit : ∀ event tx, th = .transaction event tx .commit → o.takesEffect = false
  event : th'.event = none ∨ th'.event = th.event
  lockedRow : ∀ k, th'.lockedRow = some k → th.lockedRow = some k ∨
    ∀ tx ∈ others, tx.projection.map (·.id) ≠ some k
  locks : th.Locks → th'.Locks
  counts : th.Counts w.db → th'.Counts w.db

/-- The execution ends, and a transaction it had is rolled back. -/
theorem Quiet.ended {w : World} {others : List Tx} {th : Thread} {o : Outcome}
    (h : ∀ event tx, th = .transaction event tx .commit → o.takesEffect = false) :
    Quiet w w others th .done o :=
  ⟨rfl, rfl, h, Or.inl rfl, fun _ hk => (by cases hk), fun _ => trivial, fun _ => trivial⟩

theorem statement_quiet {cfg : Config} {w w' : World} {others : List Tx}
    {event : PurchaseCompletedEvent} {tx : Tx} {pc : Pc} {th' : Thread} (o : Outcome)
    (h : statement cfg w others event tx pc = some (w', th')) (hpc : pc ≠ .commit) :
    Quiet w w' others (.transaction event tx pc) th' o := by
  rcases statement_frame h with ⟨hcommit, _⟩ | ⟨_, hdb, hcommits, hnext⟩
  · exact absurd hcommit hpc
  · refine ⟨hdb, hcommits, ?_, ?_, ?_, statement_locks h, statement_counts h hpc⟩
    · rintro _ _ ⟨⟩
      exact absurd rfl hpc
    · rcases hnext with rfl | ⟨tx', pc', rfl, _⟩
      · exact Or.inl rfl
      · exact Or.inr rfl
    · intro k hk
      rcases hnext with rfl | ⟨tx', pc', rfl, hsame | hfree⟩
      · cases hk
      · refine Or.inl ?_
        rw [← hk]
        exact congrArg (Option.map (·.id)) hsame.symm
      · refine Or.inr fun tx'' hmem heq => hfree tx'' hmem ?_
        rw [heq]
        exact hk.symm

/-- A statement that fails ends the execution, and is the COMMIT if it took effect. -/
theorem advance_fails {cfg : Config} {w w' : World} {others : List Tx}
    {event : PurchaseCompletedEvent} {tx : Tx} {pc : Pc} {th' : Thread} {written : Bool}
    (h : advance cfg w others (.transaction event tx pc) (.fails written) = some (w', th')) :
    th' = .done ∧ ((pc = .commit ∧ written = true ∧ w' = w.commit event tx) ∨
      ((pc = .commit → written = false) ∧ w' = w)) := by
  cases pc <;> cases written <;> cases h <;> simp

theorem advance_cases {cfg : Config} {w w' : World} {others : List Tx} {th th' : Thread}
    {o : Outcome} (h : advance cfg w others th o = some (w', th')) :
    (∃ event tx, th = .transaction event tx .commit ∧ o.takesEffect = true ∧
      w' = w.commit event tx ∧ th'.tx = none ∧ th'.event = none) ∨
    Quiet w w' others th th' o := by
  cases th with
  | done => cases h
  | alreadyProcessed event =>
    refine Or.inr ?_
    cases o with
    | ok =>
      simp only [advance] at h
      split at h <;> cases h
      · exact Quiet.ended (by simp)
      · exact ⟨rfl, rfl, by simp, Or.inr rfl, fun _ hk => (by cases hk), fun _ => rfl,
          fun _ => rfl⟩
    | fails written =>
      cases h
      exact Quiet.ended (by simp)
  | publish ids =>
    refine Or.inr ?_
    cases o with
    | ok =>
      cases h
      exact ⟨rfl, rfl, by simp, Or.inl rfl, fun _ hk => (by cases hk), fun _ => trivial,
        fun _ => trivial⟩
    | fails written =>
      cases h
      exact Quiet.ended (by simp)
  | transaction event tx pc =>
    cases o with
    | ok =>
      by_cases hpc : pc = .commit
      · subst hpc
        cases h
        exact Or.inl ⟨event, tx, rfl, rfl, rfl, rfl, rfl⟩
      · exact Or.inr (statement_quiet _ h hpc)
    | fails written =>
      obtain ⟨rfl, ⟨rfl, rfl, rfl⟩ | ⟨hwritten, rfl⟩⟩ := advance_fails h
      · exact Or.inl ⟨event, tx, rfl, rfl, rfl, rfl, rfl⟩
      · refine Or.inr (Quiet.ended ?_)
        rintro _ _ ⟨⟩
        exact hwritten rfl

/-! ## Commits -/

theorem view_stats_row {db : Database} {event : PurchaseCompletedEvent} {tx : Tx}
    (h : tx.stats = some (countPurchase db event.payload)) (userId : String) :
    (tx.view db).stats.row userId = if userId = event.payload.userId then
      some (countPurchase db event.payload) else db.stats.row userId := by
  rw [Tx.view, h]
  exact (Table.put_row _ _ _).trans (by rw [countPurchase_userId])

theorem mem_others {s : State} {e e' : ℕ} {tx : Tx} (hbeyond : ∀ e, s.nextThread ≤ e →
    s.threads e = .done) (hne : e' ≠ e) (htx : (s.threads e').tx = some tx) :
    tx ∈ s.others e := by
  refine List.mem_filterMap.mpr ⟨e', List.mem_range.mpr ?_, by rw [if_neg hne, htx]⟩
  refine Nat.lt_of_not_le fun hle => ?_
  rw [hbeyond e' hle] at htx
  cases htx

theorem lockedRow_eq {event : PurchaseCompletedEvent} {tx : Tx} {pc : Pc}
    (hl : (Thread.transaction event tx pc).Locks) (hpc : pc ≠ .upsert) :
    (Thread.transaction event tx pc).lockedRow = some event.payload.user.id := by
  cases pc <;> first | exact absurd rfl hpc | exact hl

/-- A commit that leaves the row of its stats does not change what a transaction has counted. -/
theorem counts_congr {db db' : Database} {event : PurchaseCompletedEvent} {tx : Tx} {pc : Pc}
    (hc : (Thread.transaction event tx pc).Counts db)
    (h : pc ≠ .upsert →
      db'.stats.row event.payload.userId = db.stats.row event.payload.userId) :
    (Thread.transaction event tx pc).Counts db' := by
  by_cases hpc : pc = .upsert
  · subst hpc
    exact hc
  · have hrow := h hpc
    have hcount := countPurchase_congr hrow
    have hcountable := countable_congr hrow
    cases pc <;> simp only [Thread.Counts, hcount, hcountable, hrow] at hc ⊢ <;> exact hc


/-! ## The system -/

/-- Transactions that exclude one another have read what is committed. -/
structure Isolated (cfg : Config) (s : State) : Prop where
  beyond : ∀ e, s.nextThread ≤ e → s.threads e = .done
  own : ∀ e event, (s.threads e).event = some event → event = cfg.event event.eventId
  locks : ∀ e, (s.threads e).Locks
  exclusive : ∀ e e' k, (s.threads e).lockedRow = some k → (s.threads e').lockedRow = some k → e = e'
  counts : ∀ e, (s.threads e).Counts s.world.db

/-- A step is one of an execution, or it ends one or begins one and leaves the world. -/
theorem step_cases {cfg : Config} {s s' : State} {l : Label} (h : step cfg s l = some s') :
    ∃ e th', (∀ e', s'.threads e' = if e' = e then th' else s.threads e') ∧
      ((∃ o, l = .run e o ∧ s'.nextThread = s.nextThread ∧
          advance cfg s.world (s.others e) (s.threads e) o = some (s'.world, th')) ∨
        (s'.world = s.world ∧ (∀ e o, l ≠ .run e o) ∧
          (th' = .done ∧ s'.nextThread = s.nextThread ∨
            e = s.nextThread ∧ s'.nextThread = s.nextThread + 1 ∧
              ∃ eventId, th' = .alreadyProcessed (cfg.event eventId)))) := by
  cases l with
  | deliver eventId =>
    cases h
    refine ⟨s.nextThread, .alreadyProcessed (cfg.event eventId), fun e' => ?_,
      Or.inr ⟨rfl, by simp, Or.inr ⟨rfl, rfl, eventId, rfl⟩⟩⟩
    exact Function.update_apply _ _ _ _
  | crash e =>
    cases h
    refine ⟨e, .done, fun e' => ?_, Or.inr ⟨rfl, by simp, Or.inl ⟨rfl, rfl⟩⟩⟩
    exact Function.update_apply _ _ _ _
  | run e o =>
    obtain ⟨th', hadv, hnext, hthreads⟩ := step_run h
    exact ⟨e, th', hthreads, Or.inl ⟨o, rfl, hnext, hadv⟩⟩

/-- Executions that have not begun stay so. -/
theorem step_beyond {cfg : Config} {s s' : State} {l : Label}
    (hbeyond : ∀ e, s.nextThread ≤ e → s.threads e = .done) (h : step cfg s l = some s') :
    ∀ e, s'.nextThread ≤ e → s'.threads e = .done := by
  intro e' he'
  obtain ⟨e, th', hthreads, hcase⟩ := step_cases h
  rw [hthreads]
  rcases hcase with ⟨o, _, hnext, hadv⟩ | ⟨_, _, ⟨rfl, hnext⟩ | ⟨rfl, hnext, _⟩⟩
  · rw [if_neg]
    · exact hbeyond e' (hnext ▸ he')
    · rintro rfl
      rw [hbeyond e' (hnext ▸ he')] at hadv
      cases hadv
  · split
    · rfl
    · exact hbeyond e' (hnext ▸ he')
  · rw [if_neg (by omega)]
    exact hbeyond e' (by omega)

section Isolation
variable {cfg : Config} {s s' : State} {e : ℕ} {th' : Thread}

/-- Every other transaction that holds a lock is one of another user. -/
theorem Isolated.other_user (hcfg : cfg.OwnSnapshots) (hs : Isolated cfg s)
    {event event' : PurchaseCompletedEvent} {tx tx' : Tx} {pc pc' : Pc} {e' : ℕ}
    (hth : s.threads e = .transaction event tx pc) (hpc : pc ≠ .upsert) (hne : e' ≠ e)
    (hth' : s.threads e' = .transaction event' tx' pc') (hpc' : pc' ≠ .upsert) :
    event'.payload.userId ≠ event.payload.userId := by
  intro huser
  have hown := hs.own e event (by rw [hth]; rfl)
  have hown' := hs.own e' event' (by rw [hth']; rfl)
  have hl := hs.locks e
  have hl' := hs.locks e'
  rw [hth] at hl
  rw [hth'] at hl'
  have hlock := lockedRow_eq hl hpc
  have hlock' := lockedRow_eq hl' hpc'
  refine hne (hs.exclusive e' e event.payload.user.id ?_ (hth ▸ hlock))
  rw [hth', hlock']
  have hid := hcfg event.eventId
  have hid' := hcfg event'.eventId
  rw [hown, hown'] at huser ⊢
  simp only [Config.event, createDomainEvent] at huser ⊢
  rw [hid, hid', huser]

/-- One execution goes on without a commit. -/
theorem thread_isolated (hs : Isolated cfg s)
    (hbeyond : ∀ e', s'.nextThread ≤ e' → s'.threads e' = .done)
    (hown : ∀ event, th'.event = some event → event = cfg.event event.eventId)
    (hdb : s'.world.db = s.world.db)
    (hlocked : ∀ k, th'.lockedRow = some k → (s.threads e).lockedRow = some k ∨
      ∀ tx ∈ s.others e, tx.projection.map (·.id) ≠ some k)
    (hlocks : th'.Locks) (hcounts : th'.Counts s.world.db)
    (hthreads : ∀ e', s'.threads e' = if e' = e then th' else s.threads e') :
    Isolated cfg s' := by
  -- a lock that this step takes is not held by anyone else
  have hfree : ∀ k, th'.lockedRow = some k → (s.threads e).lockedRow = some k ∨
      ∀ e', e' ≠ e → (s.threads e').lockedRow ≠ some k := by
    intro k hk
    rcases hlocked k hk with hsame | hnone
    · exact Or.inl hsame
    · refine Or.inr fun e' hne hk' => ?_
      cases htx : (s.threads e').tx with
      | none => simp [Thread.lockedRow, htx] at hk'
      | some tx =>
        refine hnone tx (mem_others hs.beyond hne htx) ?_
        simpa [Thread.lockedRow, htx] using hk'
  refine ⟨hbeyond, fun e' event' he' => ?_, fun e' => ?_, ?_, fun e' => ?_⟩
  · rw [hthreads] at he'
    split at he'
    · exact hown event' he'
    · exact hs.own e' event' he'
  · rw [hthreads]
    split
    · exact hlocks
    · exact hs.locks e'
  · exact owner_unique hthreads hs.exclusive hfree
  · rw [hthreads, hdb]
    split
    · exact hcounts
    · exact hs.counts e'

/-- A transaction that commits leaves what the others have counted. -/
theorem commit_isolated (hcfg : cfg.OwnSnapshots) (hs : Isolated cfg s)
    {event : PurchaseCompletedEvent} {tx : Tx}
    (hbeyond : ∀ e', s'.nextThread ≤ e' → s'.threads e' = .done)
    (hth : s.threads e = .transaction event tx .commit)
    (hw : s'.world = s.world.commit event tx) (htx : th'.tx = none) (hevent : th'.event = none)
    (hthreads : ∀ e', s'.threads e' = if e' = e then th' else s.threads e') :
    Isolated cfg s' := by
  have hstats : tx.stats = some (countPurchase s.world.db event.payload) := by
    have hc := hs.counts e
    rw [hth] at hc
    exact hc.1
  have hdb : s'.world.db = tx.view s.world.db := by rw [hw]; rfl
  have hplain : th'.Locks ∧ th'.Counts s'.world.db ∧ th'.lockedRow = none := by
    cases th' with
    | transaction _ _ _ => cases htx
    | _ => exact ⟨trivial, trivial, rfl⟩
  refine ⟨hbeyond, fun e' event' he' => ?_, fun e' => ?_, ?_, fun e' => ?_⟩
  · rw [hthreads] at he'
    split at he'
    · cases hevent.symm.trans he'
    · exact hs.own e' event' he'
  · rw [hthreads]
    split
    · exact hplain.1
    · exact hs.locks e'
  · exact owner_unique hthreads hs.exclusive fun k hk => by cases hplain.2.2.symm.trans hk
  · rw [hthreads]
    split
    · exact hplain.2.1
    · next hne =>
      have hc := hs.counts e'
      cases hth' : s.threads e' with
      | transaction event' tx' pc' =>
        rw [hth'] at hc
        refine counts_congr hc fun hpc' => ?_
        rw [hdb, view_stats_row hstats, if_neg (hs.other_user hcfg hth (by simp) hne hth' hpc')]
      | _ => trivial

/-- One step, in the terms of `Quiet`: a commit, or nothing that is committed changes. -/
theorem step_isolated {l : Label} (hcfg : cfg.OwnSnapshots) (hs : Isolated cfg s)
    (h : step cfg s l = some s') :
    Isolated cfg s' ∧
      ((∃ e event tx o, l = .run e o ∧ s.threads e = .transaction event tx .commit ∧
          o.takesEffect = true ∧ s'.world = s.world.commit event tx) ∨
        (s'.world.db = s.world.db ∧ s'.world.commits = s.world.commits ∧
          ∀ e event tx o, l = .run e o → s.threads e = .transaction event tx .commit →
            o.takesEffect = false)) := by
  have hbeyond := step_beyond hs.beyond h
  obtain ⟨e, th', hthreads, ⟨o, rfl, hnext, hadv⟩ | ⟨hw, hnot, hth'⟩⟩ := step_cases h
  · rcases advance_cases hadv with ⟨event, tx, hth, heffect, hw, htx, hevent⟩ | hquiet
    · exact ⟨commit_isolated hcfg hs hbeyond hth hw htx hevent hthreads,
        Or.inl ⟨e, event, tx, o, rfl, hth, heffect, hw⟩⟩
    · refine ⟨thread_isolated hs hbeyond (fun event he => ?_) hquiet.db hquiet.lockedRow
        (hquiet.locks (hs.locks e)) (hquiet.counts (hs.counts e)) hthreads,
        Or.inr ⟨hquiet.db, hquiet.commits, ?_⟩⟩
      · rcases hquiet.event with hnone | hsame
        · cases hnone.symm.trans he
        · exact hs.own e event (hsame ▸ he)
      · rintro _ event tx _ ⟨⟩ hth
        exact hquiet.commit event tx hth
  · have hidle : th'.lockedRow = none ∧ th'.Locks ∧ th'.Counts s.world.db ∧
        ∀ event, th'.event = some event → event = cfg.event event.eventId := by
      rcases hth' with ⟨rfl, _⟩ | ⟨_, _, eventId, rfl⟩
      · exact ⟨rfl, trivial, trivial, fun _ he => by cases he⟩
      · exact ⟨rfl, trivial, trivial, fun _ he => by cases he; rfl⟩
    obtain ⟨hlocked, hlocks, hcounts, hown⟩ := hidle
    refine ⟨thread_isolated hs hbeyond hown (by rw [hw]) (fun k hk => ?_) hlocks hcounts hthreads,
      Or.inr ⟨by rw [hw], by rw [hw], fun e event tx o hl => absurd hl (hnot e o)⟩⟩
    cases hlocked.symm.trans hk

end Isolation

/-- The system on a database, with no delivery open. -/
def State.start (db : Database) (nextId : ℕ) : State := ⟨⟨db, nextId, [], []⟩, fun _ => .done, 0⟩

theorem start_isolated (cfg : Config) (db : Database) (nextId : ℕ) :
    Isolated cfg (.start db nextId) where
  beyond := fun _ _ => rfl
  own := fun _ _ h => by cases h
  locks := fun _ => trivial
  exclusive := fun _ _ _ h => by cases h
  counts := fun _ => trivial

end Bumpa.Loyalty
