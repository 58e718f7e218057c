import Bumpa.Loyalty.PurchaseOrder

/-! # Concurrent purchases serialize

Transactions of one user exclude one another (`Isolated`), and those of other users write other
rows (`Tx.Wrote.other`). So whatever else commits in between, a transaction writes what its event
writes on the database it commits to (`Thread.Follows`), and the committed database is the fold of
`purchaseTx` over the commits, up to fresh ids (`Serialized`). What the columns of the stats took
then, they take again in that order.

`purchases_serialize`: for distinct events this is what deliveries in the order of the commits
leave, each after the end of the one before.
-/
namespace Bumpa.Loyalty
open Bumpa.Events Bumpa.Relational Bumpa.Transition
set_option autoImplicit false

/-- The transactions of these events, one after another. -/
def commitAll (cfg : Config) (db : Database) (eventIds : List ReadableId) : Database :=
  eventIds.foldl (fun db eventId => (purchaseTx cfg db (cfg.event eventId)).view db) db

theorem commitAll_snoc (cfg : Config) (db : Database) (eventIds : List ReadableId)
    (eventId : ReadableId) : commitAll cfg db (eventIds ++ [eventId]) =
      (purchaseTx cfg (commitAll cfg db eventIds) (cfg.event eventId)).view
        (commitAll cfg db eventIds) := by
  rw [commitAll, List.foldl_append]
  rfl

/-- The stats take each of these purchases when its turn comes. -/
def AllCountable (cfg : Config) (db : Database) (eventIds : List ReadableId) : Prop :=
  ∀ before eventId, before ++ [eventId] <+: eventIds →
    (commitAll cfg db before).Countable (cfg.payload eventId)

theorem AllCountable.snoc {cfg : Config} {db : Database} {eventIds : List ReadableId}
    {eventId : ReadableId} (h : AllCountable cfg db eventIds)
    (hlast : (commitAll cfg db eventIds).Countable (cfg.payload eventId)) :
    AllCountable cfg db (eventIds ++ [eventId]) := by
  intro before eventId' hle
  rcases List.prefix_concat_iff.mp hle with heq | hearlier
  · obtain ⟨rfl, hsame⟩ := List.append_inj' heq rfl
    obtain rfl := List.singleton_injective hsame
    exact hlast
  · exact h before eventId' hearlier

/-! ## Commits of other users -/

/-- Two databases that agree on what the transaction of an event reads. -/
structure Database.AgreesOn (event : PurchaseCompletedEvent) (db db' : Database) : Prop where
  projection : db'.projections.row event.payload.user.id =
    db.projections.row event.payload.user.id
  user : db.SameFor event.payload.userId db'
  marked : event.eventId ∈ db'.processed ↔ event.eventId ∈ db.processed

section Commit
variable {cfg : Config} {db db' : Database} {event event' : PurchaseCompletedEvent} {tx tx' : Tx}
  {pc : Pc}

theorem follows_congr (h : db.AgreesOn event db') (hf : pc.Follows cfg db event tx) :
    pc.Follows cfg db' event tx := by
  have hprojection : upsertProjection db' event.payload.user =
      upsertProjection db event.payload.user := by
    simp only [upsertProjection, h.projection]
  have hstats : countPurchase db' event.payload = countPurchase db event.payload :=
    countPurchase_congr h.user.stats
  have hachievements : newAchievements cfg db' event = newAchievements cfg db event := by
    rw [newAchievements, newAchievements, hstats, h.user.achievements]
  have hids : achievementIdsAfter cfg db' event = achievementIdsAfter cfg db event := by
    rw [achievementIdsAfter, achievementIdsAfter, hachievements, h.user.achievements]
  have hbadges : newBadges cfg db' event = newBadges cfg db event := by
    rw [newBadges, newBadges, hids, h.user.badges]
  have hmarker : marker db' event = marker db event := by
    simp only [marker, h.marked]
  have hwrote : ∀ saved announced savedBadges announcedBadges,
      tx.Wrote db' event saved announced savedBadges announcedBadges ↔
        tx.Wrote db event saved announced savedBadges announcedBadges := fun _ _ _ _ =>
    ⟨fun hw => ⟨hprojection ▸ hw.projection, hw.achievements, hw.badges, hw.outbox⟩,
      fun hw => ⟨hprojection ▸ hw.projection, hw.achievements, hw.badges, hw.outbox⟩⟩
  cases pc <;> simp only [Pc.Follows, hwrote, hstats, hachievements, hids, hbadges, hmarker,
    h.marked] at hf ⊢ <;> exact hf

/-- A commit for another user changes nothing that the transaction of an event reads. -/
theorem view_agreesOn (hwrote : ∃ saved announced savedBadges announcedBadges,
      tx.Wrote db event saved announced savedBadges announcedBadges)
    (hstats : tx.stats = some (countPurchase db event.payload))
    (hprocessed : tx.processed = none ∨ tx.processed = some event.eventId)
    (hid : event'.payload.user.id ≠ event.payload.user.id)
    (huser : event'.payload.userId ≠ event.payload.userId)
    (hevent : event'.eventId ≠ event.eventId) : db.AgreesOn event' (tx.view db) := by
  obtain ⟨_, _, _, _, hwrote⟩ := hwrote
  obtain ⟨hachievements, hbadges⟩ := hwrote.other huser
  refine ⟨?_, ⟨?_, hachievements, hbadges⟩, ?_⟩
  · rw [Tx.view, hwrote.projection]
    exact Table.put_row_of_ne _ _ hid
  · rw [view_stats_row hstats, if_neg huser]
  · rw [Tx.view, List.mem_append, Option.mem_toList]
    rcases hprocessed with hnone | hsome
    · simp [hnone]
    · simp [hsome, hevent.symm]

end Commit

/-! ## One step of an execution -/

section Advance
variable {cfg : Config} {w w' : World} {others : List Tx} {th th' : Thread} {o : Outcome}

theorem advance_follows (hkeyed : cfg.Keyed) (h : advance cfg w others th o = some (w', th'))
    (hcounts : th.Counts w.db) (hf : th.Follows cfg w.db) : th'.Follows cfg w.db := by
  cases th with
  | done => cases h
  | alreadyProcessed event =>
    cases o with
    | ok =>
      simp only [advance] at h
      split at h <;> cases h
      · trivial
      · exact rfl
    | fails written =>
      cases h
      trivial
  | publish ids => cases o <;> cases h <;> trivial
  | transaction event tx pc =>
    cases o with
    | ok =>
      by_cases hpc : pc = .commit
      · subst hpc
        cases h
        trivial
      · exact statement_follows hkeyed h hpc hcounts hf
    | fails written =>
      rw [(advance_fails h).1]
      trivial

/-- A transaction goes on, or begins after its check. -/
theorem advance_transaction {event : PurchaseCompletedEvent} {tx : Tx} {pc : Pc}
    (h : advance cfg w others th o = some (w', .transaction event tx pc)) :
    (∃ tx' pc', th = .transaction event tx' pc') ∨
      th = .alreadyProcessed event ∧ event.eventId ∉ w.db.processed := by
  cases th with
  | done => cases h
  | alreadyProcessed event' =>
    cases o with
    | ok =>
      simp only [advance] at h
      split at h <;> cases h
      next hnew => exact Or.inr ⟨rfl, hnew⟩
    | fails written => cases h
  | publish ids => cases o <;> cases h
  | transaction event' tx' pc' =>
    cases o with
    | ok =>
      rcases statement_frame h with ⟨_, _, htx, _⟩ | ⟨_, _, _, hdone | ⟨tx'', pc'', heq, _⟩⟩
      · cases htx
      · cases hdone
      · cases heq
        exact Or.inl ⟨tx', pc', rfl⟩
    | fails written => cases (advance_fails h).1

end Advance

/-! ## Runs -/

/-- What every step keeps, from a database with no delivery open. -/
structure Serialized (cfg : Config) (db : Database) (s : State) : Prop where
  isolated : Isolated cfg s
  follows : ∀ e, (s.threads e).Follows cfg s.world.db
  fresh : ∀ e event tx pc, s.threads e = .transaction event tx pc → event.eventId ∉ db.processed
  kept : db.processed ⊆ s.world.db.processed
  new : ∀ eventId ∈ s.world.commits, eventId ∉ db.processed
  counted : AllCountable cfg db s.world.commits
  committed : s.world.db.SameUpToIds (commitAll cfg db s.world.commits)

section Step
variable {cfg : Config} {db : Database} {s s' : State} {e : ℕ} {th' : Thread}

theorem commit_serialized (hcfg : cfg.OwnSnapshots) (hs : Serialized cfg db s)
    (hiso : Isolated cfg s') {event : PurchaseCompletedEvent} {tx : Tx}
    (hth : s.threads e = .transaction event tx .commit)
    (hw : s'.world = s.world.commit event tx) (htx : th'.tx = none)
    (hthreads : ∀ e', s'.threads e' = if e' = e then th' else s.threads e') :
    Serialized cfg db s' := by
  have hown := hs.isolated.own e event (by rw [hth]; rfl)
  have hcounts := hs.isolated.counts e
  have hfollows := hs.follows e
  rw [hth] at hcounts hfollows
  have hmade := follows_commit hcounts hfollows
  have hdb : s'.world.db = tx.view s.world.db := by rw [hw]; rfl
  have hcommits : s'.world.commits = s.world.commits ++ [event.eventId] := by rw [hw]; rfl
  have hplain : ∀ event' tx' pc', th' ≠ .transaction event' tx' pc' := by
    rintro event' tx' pc' rfl
    cases htx
  refine ⟨hiso, fun e' => ?_, fun e' event' tx' pc' hth' => ?_, fun eventId hmem => ?_,
    fun eventId hmem => ?_, ?_, ?_⟩
  · rw [hthreads, hdb]
    split
    · cases th' with
      | transaction _ _ _ => cases htx
      | _ => trivial
    · next hne =>
      have hf := hs.follows e'
      cases hth' : s.threads e' with
      | transaction event' tx' pc' =>
        rw [hth'] at hf
        by_cases hpc' : pc' = .upsert
        · subst hpc'
          exact hf
        · have huser := hs.isolated.other_user hcfg hth (by simp) hne hth' hpc'
          have hown' := hs.isolated.own e' event' (by rw [hth']; rfl)
          have hid : event'.payload.user.id ≠ event.payload.user.id := by
            rw [hown, hown'] at huser ⊢
            exact fun heq => huser ((hcfg _).symm.trans (heq.trans (hcfg _)))
          have hevent : event'.eventId ≠ event.eventId := fun heq => huser (by
            rw [hown, hown', heq])
          refine follows_congr (view_agreesOn ⟨_, _, _, _, hfollows.2⟩ hcounts.1 ?_ hid huser hevent) hf
          rw [hfollows.1, marker]
          split
          · exact Or.inl rfl
          · exact Or.inr rfl
      | _ => trivial
  · rw [hthreads] at hth'
    split at hth'
    · exact absurd hth' (hplain _ _ _)
    · exact hs.fresh e' event' tx' pc' hth'
  · rw [hdb]
    exact List.mem_append_left _ (hs.kept hmem)
  · rw [hcommits] at hmem
    rcases List.mem_append.mp hmem with hold | hlast
    · exact hs.new eventId hold
    · rw [List.mem_singleton.mp hlast]
      exact hs.fresh e event tx .commit hth
  · have hpayload : cfg.payload event.eventId = event.payload := by
      conv_rhs => rw [hown]
      rfl
    rw [hcommits]
    refine hs.counted.snoc ((countable_congr ?_).mp (hpayload ▸ hcounts.2))
    exact congrFun hs.committed.stats _
  · rw [hdb, hcommits, commitAll, List.foldl_append]
    refine view_sameUpToIds hs.committed ?_
    rw [hmade, purchaseTx_congr hs.committed event, purchaseTx_anonymous, ← hown]
    rfl

/-- One execution goes on, ends or begins, and nothing is committed. -/
theorem thread_serialized (hs : Serialized cfg db s) (hiso : Isolated cfg s')
    (hdb : s'.world.db = s.world.db) (hcommits : s'.world.commits = s.world.commits)
    (hfollows : th'.Follows cfg s.world.db)
    (hfresh : ∀ event tx pc, th' = .transaction event tx pc → event.eventId ∉ db.processed)
    (hthreads : ∀ e', s'.threads e' = if e' = e then th' else s.threads e') :
    Serialized cfg db s' := by
  refine ⟨hiso, fun e' => ?_, fun e' event tx pc he' => ?_, ?_, ?_, ?_, ?_⟩
  · rw [hthreads, hdb]
    split
    · exact hfollows
    · exact hs.follows e'
  · rw [hthreads] at he'
    split at he'
    · exact hfresh event tx pc he'
    · exact hs.fresh e' event tx pc he'
  · rw [hdb]
    exact hs.kept
  · rw [hcommits]
    exact hs.new
  · rw [hcommits]
    exact hs.counted
  · rw [hdb, hcommits]
    exact hs.committed

theorem step_serialized {l : Label} (hkeyed : cfg.Keyed) (hcfg : cfg.OwnSnapshots)
    (hs : Serialized cfg db s) (h : step cfg s l = some s') : Serialized cfg db s' := by
  have hiso := (step_isolated hcfg hs.isolated h).1
  obtain ⟨e, th', hthreads, ⟨o, _, _, hadv⟩ | ⟨hw, _, hth'⟩⟩ := step_cases h
  · rcases advance_cases hadv with ⟨event, tx, hth, _, hw, htx, _⟩ | hquiet
    · exact commit_serialized hcfg hs hiso hth hw htx hthreads
    · refine thread_serialized hs hiso hquiet.db hquiet.commits
        (advance_follows hkeyed hadv (hs.isolated.counts e) (hs.follows e))
        (fun event tx pc heq => ?_) hthreads
      rw [heq] at hadv
      rcases advance_transaction hadv with ⟨tx', pc', hth⟩ | ⟨_, hnew⟩
      · exact hs.fresh e event tx' pc' hth
      · exact fun hmem => hnew (hs.kept hmem)
  · have hidle : th'.Follows cfg s.world.db ∧
        ∀ event tx pc, th' ≠ .transaction event tx pc := by
      rcases hth' with ⟨rfl, _⟩ | ⟨_, _, eventId, rfl⟩
      · exact ⟨trivial, by simp⟩
      · exact ⟨trivial, by simp⟩
    exact thread_serialized hs hiso (by rw [hw]) (by rw [hw]) hidle.1
      (fun event tx pc heq => absurd heq (hidle.2 event tx pc)) hthreads

theorem start_serialized (cfg : Config) (db : Database) (nextId : ℕ) :
    Serialized cfg db (.start db nextId) where
  isolated := start_isolated cfg db nextId
  follows := fun _ => trivial
  fresh := fun _ _ _ _ h => by cases h
  kept := fun _ h => h
  new := fun _ h => absurd h List.not_mem_nil
  counted := fun _ _ h => absurd (List.prefix_nil.mp h) (List.append_ne_nil_of_right_ne_nil _ (by simp))
  committed := .refl db

end Step

/-! ## The result -/

section Commits
variable {cfg : Config} {db : Database} {userId : String} {eventId : ReadableId}

theorem view_other (cfg : Config) (db : Database) (hne : (cfg.payload eventId).userId ≠ userId) :
    db.SameFor userId ((purchaseTx cfg db (cfg.event eventId)).view db) := by
  have hother := (purchaseTx_wrote cfg db (cfg.event eventId)).other hne.symm
  exact ⟨(view_stats_row rfl userId).trans (if_neg hne.symm), hother.1, hother.2⟩

/-- The events of a user. -/
def ofUser (cfg : Config) (userId : String) (eventIds : List ReadableId) : List ReadableId :=
  eventIds.filter fun eventId => (cfg.payload eventId).userId = userId

/-- Of a list of commits, a user gains the own ones. -/
theorem commitAll_gains (hkeyed : cfg.Keyed) (db : Database) (userId : String)
    (eventIds : List ReadableId) :
    Gains cfg userId (ofUser cfg userId eventIds) db (commitAll cfg db eventIds) := by
  induction eventIds using List.reverseRecOn with
  | nil => exact (if_pos rfl).mpr ⟨rfl, rfl, rfl⟩
  | append_singleton eventIds eventId ih =>
    have hsplit : ofUser cfg userId (eventIds ++ [eventId]) =
        ofUser cfg userId eventIds ++ ofUser cfg userId [eventId] := List.filter_append ..
    rw [hsplit, commitAll_snoc]
    by_cases huser : (cfg.payload eventId).userId = userId
    · have hlast : ofUser cfg userId [eventId] = [eventId] :=
        List.filter_cons_of_pos (by simp [huser])
      rw [hlast]
      exact ih.snoc (purchaseTx_accrues hkeyed _ huser)
    · have hskip : ofUser cfg userId [eventId] = [] := List.filter_cons_of_neg (by simp [huser])
      rw [hskip, List.append_nil]
      exact ih.same (view_other cfg _ huser)

/-- Distinct events that are not processed yet are all handled, if each fits when its turn comes. -/
theorem foldl_purchase_eq {eventIds : List ReadableId} (hdistinct : eventIds.Nodup)
    (hnew : ∀ eventId ∈ eventIds, eventId ∉ db.processed) (hall : AllCountable cfg db eventIds) :
    eventIds.foldl (purchase cfg) db = commitAll cfg db eventIds := by
  induction eventIds using List.reverseRecOn with
  | nil => rfl
  | append_singleton eventIds eventId ih =>
    obtain ⟨hdistinct', -, hdisjoint⟩ := List.nodup_append'.mp hdistinct
    have hearlier := ih hdistinct' (fun eventId' hmem => hnew eventId' (List.mem_append_left _ hmem))
      fun before eventId' hle => hall before eventId' (hle.trans (List.prefix_append _ _))
    have hunseen : eventId ∉ (commitAll cfg db eventIds).processed := by
      rw [← hearlier]
      intro hmem
      rcases foldl_purchase_processed hmem with hold | hagain
      · exact hnew eventId (List.mem_append_right _ List.mem_cons_self) hold
      · exact hdisjoint hagain List.mem_cons_self
    rw [List.foldl_append, hearlier, commitAll_snoc]
    exact purchase_counted hunseen (hall eventIds eventId (List.prefix_refl _))

end Commits

/-- Whatever the interleaving of deliveries whose commits are of distinct events, what is committed
is, up to fresh ids, what the same events leave one after another in the order of the commits. Every
commit is counted, and every badge a user with a commit has earned is there. -/
theorem purchases_serialize {cfg : Config} (hkeyed : cfg.Keyed) (hcfg : cfg.OwnSnapshots)
    (db : Database) (nextId : ℕ) {tr : List (Move State Label)} {s : State}
    (h : Run (step cfg) (.start db nextId) tr s) (hdistinct : s.world.commits.Nodup) :
    ∃ w, Processes cfg (State.start db nextId).world s.world.commits w ∧
      s.world.db.SameUpToIds w.db ∧
      ∀ userId, s.world.db.purchaseCount userId =
          db.purchaseCount userId + (commitsFor cfg s userId).length ∧
        s.world.db.totalSpendKobo userId = db.totalSpendKobo userId +
          ((commitsFor cfg s userId).map fun eventId => (cfg.payload eventId).amountKobo).sum ∧
        (commitsFor cfg s userId ≠ [] → ∀ badge ∈ cfg.activeBadges,
          s.world.db.hasEarned userId badge → badge.id ∈ s.world.db.badgeIds userId) := by
  have hs : Serialized cfg db s := Run.invariant (Serialized cfg db)
    (fun _ _ _ hs hstep => step_serialized hkeyed hcfg hs hstep) h (start_serialized cfg db nextId)
  obtain ⟨w, hrun, hsame⟩ := processes_purchases hkeyed (State.start db nextId).world
    s.world.commits
  have hdb : s.world.db.SameUpToIds (s.world.commits.foldl (purchase cfg) db) := by
    rw [foldl_purchase_eq hdistinct hs.new hs.counted]
    exact hs.committed
  refine ⟨w, hrun, hdb.trans hsame.symm, fun userId => ?_⟩
  have hgains : Gains cfg userId (commitsFor cfg s userId) db s.world.db :=
    (commitAll_gains hkeyed db userId s.world.commits).same (hs.committed.sameFor userId)
  refine ⟨hgains.counters.1, hgains.counters.2, fun hsome badge hmem hearned => ?_⟩
  rw [Gains, if_neg hsome] at hgains
  exact (hgains.badges badge.id).mpr (Or.inr ⟨badge, hmem, rfl, hearned⟩)

/-- The second delivery takes the lock first, and the first one waits for it. -/
theorem purchases_serialize_waiting : ∃ tr s w,
    Run (step firstPurchaseConfig) (.start initial.world.db 0) tr s ∧
      s.world.commits = [1, 0] ∧
      Processes firstPurchaseConfig (State.start initial.world.db 0).world [1, 0] w ∧
      s.world.db.SameUpToIds w.db := by
  obtain ⟨tr, s, h, hp⟩ := exists_run_of_trace (step firstPurchaseConfig)
    (.start initial.world.db 0) (.deliver 0 :: .deliver 1 :: Label.oks 0 1 ++ Label.oks 1 18 ++
      Label.oks 0 13) (fun r => decide (r.2.world.commits = [1, 0])) (by decide +kernel)
  have hcommits := of_decide_eq_true hp
  obtain ⟨w, hrun, hsame, _⟩ := purchases_serialize ⟨by decide, by decide⟩
    firstPurchase_ownSnapshots initial.world.db 0 h (by rw [hcommits]; decide)
  rw [hcommits] at hrun
  exact ⟨tr, s, w, h, hcommits, hrun, hsame⟩

end Bumpa.Loyalty
