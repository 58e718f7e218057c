import Bumpa.Loyalty.ExactlyOnce

/-! # Unlock rows and unlock events

An unlock is saved as a row and announced by an outbox row, in two statements of one transaction.
Which config an outbox row was built from is not in its payload, so it is read off the moves
(`announcements`): the statement that draws the outbox id is about one unlock.

`Announced` is what every step keeps: the unlocks that are committed and those of every open
transaction are distinct, since an insert waits for a transaction that has inserted the same key and
is refused where it is committed; and what is announced are the unlocks, except for the one that an
execution has saved last (`Thread.unannounced`). No assumption on the events is needed here.

`unlocks_announced`: what is committed has one row for an unlock at most, and as many events.
-/
namespace Bumpa.Loyalty
open Bumpa.Events Bumpa.Relational Bumpa.Transition
set_option autoImplicit false

/-- What a row says, and what an event announces. -/
inductive Unlock where
  | achievement (userId achievementId : String)
  | badge (userId badgeId : String)
  deriving DecidableEq, Repr

def UserAchievement.unlock (row : UserAchievement) : Unlock :=
  .achievement row.userId row.achievementId

def UserBadge.unlock (row : UserBadge) : Unlock := .badge row.userId row.badgeId

def Database.unlocks (db : Database) : List Unlock :=
  db.achievements.map (·.unlock) ++ db.badges.map (·.unlock)

def Tx.unlocks (tx : Tx) : List Unlock :=
  tx.achievements.map (·.unlock) ++ tx.badges.map (·.unlock)

def Thread.unlocks (th : Thread) : List Unlock := th.tx.elim [] Tx.unlocks

def Thread.outbox (th : Thread) : List OutboxEvent := th.tx.elim [] Tx.outbox

/-- The unlock whose row is saved, and whose event is not. -/
def Thread.unannounced : Thread → Option Unlock
  | .transaction event _ (.saveAchievementEvent _ config) =>
    some (.achievement event.payload.userId config.id)
  | .transaction event _ (.saveBadgeEvent badge _) => some (.badge event.payload.userId badge.id)
  | _ => none

/-- The outbox id that a move draws, and the unlock it builds the event of. -/
def announcement (x : Move State Label) : Option (ReadableId × Unlock) :=
  match x.label with
  | .run e .ok => (x.source.threads e).unannounced.map fun u => (x.source.world.nextId, u)
  | _ => none

def announcements (tr : List (Move State Label)) : List (ReadableId × Unlock) :=
  tr.filterMap announcement

def UnlockEvent.announces : UnlockEvent → Unlock → Bool
  | .achievement _, .achievement _ _ => true
  | .badge _, .badge _ _ => true
  | _, _ => false

/-- The unlock that an outbox row was built from, if it is an event of this kind. -/
def OutboxEvent.unlock (drawn : List (ReadableId × Unlock)) (row : OutboxEvent) : Option Unlock :=
  (drawn.lookup row.id).filter row.payload.announces

/-! ## One step of an execution -/

/-- What a step of an execution does to unlocks and events. -/
inductive Effect (w w' : World) (others : List Tx) (th th' : Thread) (o : Outcome) : Prop
  | commits (event : PurchaseCompletedEvent) (tx : Tx) (source : th = .transaction event tx .commit)
      (world : w' = w.commit event tx) (plain : th'.tx = none)
  | ends (db : w'.db = w.db) (ids : w'.nextId = w.nextId)
      (silent : o = .ok → th.unannounced = none) (plain : th'.tx = none)
  | goesOn (db : w'.db = w.db) (ids : w'.nextId = w.nextId) (before : th.unannounced = none)
      (after : th'.unannounced = none) (unlocks : th'.unlocks = th.unlocks)
      (outbox : th'.outbox = th.outbox)
  | saves (u : Unlock) (db : w'.db = w.db) (ids : w.nextId ≤ w'.nextId)
      (before : th.unannounced = none) (after : th'.unannounced = some u)
      (unlocks : th'.unlocks.Perm (u :: th.unlocks)) (outbox : th'.outbox = th.outbox)
      (new : u ∉ w.db.unlocks ++ th.unlocks) (free : ∀ tx ∈ others, u ∉ tx.unlocks)
  | announces (u : Unlock) (row : OutboxEvent) (db : w'.db = w.db) (ids : w'.nextId = w.nextId + 1)
      (succeeds : o = .ok) (before : th.unannounced = some u) (after : th'.unannounced = none)
      (unlocks : th'.unlocks = th.unlocks) (outbox : th'.outbox = th.outbox ++ [row])
      (id : row.id = w.nextId) (kind : row.payload.announces u = true)

theorem unlockNext_unannounced (event : PurchaseCompletedEvent) (tx : Tx) (loop : UnlockLoop) :
    (Thread.transaction event tx (unlockNext loop)).unannounced = none := by
  unfold unlockNext
  split <;> rfl

theorem badgeNext_unannounced (event : PurchaseCompletedEvent) (tx : Tx)
    (badges : List BadgeConfig) :
    (Thread.transaction event tx (badgeNext badges)).unannounced = none := by
  cases badges <;> rfl

theorem mem_unlocks_achievement {tx : Tx} {userId achievementId : String} :
    Unlock.achievement userId achievementId ∈ tx.unlocks ↔
      ∃ row ∈ tx.achievements, row.userId = userId ∧ row.achievementId = achievementId := by
  simp [Tx.unlocks, UserAchievement.unlock, UserBadge.unlock]

theorem mem_unlocks_badge {tx : Tx} {userId badgeId : String} :
    Unlock.badge userId badgeId ∈ tx.unlocks ↔
      ∃ row ∈ tx.badges, row.userId = userId ∧ row.badgeId = badgeId := by
  simp [Tx.unlocks, UserAchievement.unlock, UserBadge.unlock]

/-- What is committed and what a transaction has added, as it sees it. -/
theorem view_unlocks (tx : Tx) (db : Database) :
    (tx.view db).unlocks.Perm (db.unlocks ++ tx.unlocks) := by
  simp only [Database.unlocks, Tx.unlocks, Tx.view, List.map_append, List.append_assoc]
  refine (List.Perm.append_left _ ?_)
  rw [← List.append_assoc, ← List.append_assoc]
  exact List.Perm.append_right _ List.perm_append_comm

theorem view_achievement {tx : Tx} {db : Database} {userId achievementId : String} :
    achievementId ∈ (tx.view db).achievementIds userId ↔
      Unlock.achievement userId achievementId ∈ db.unlocks ++ tx.unlocks := by
  rw [← (view_unlocks tx db).mem_iff]
  simp [Database.unlocks, Database.achievementIds, UserAchievement.unlock, UserBadge.unlock,
    and_assoc]

theorem view_badge {tx : Tx} {db : Database} {userId badgeId : String} :
    badgeId ∈ (tx.view db).badgeIds userId ↔
      Unlock.badge userId badgeId ∈ db.unlocks ++ tx.unlocks := by
  rw [← (view_unlocks tx db).mem_iff]
  simp [Database.unlocks, Database.badgeIds, UserAchievement.unlock, UserBadge.unlock, and_assoc]

theorem statement_effect {cfg : Config} {w w' : World} {others : List Tx}
    {event : PurchaseCompletedEvent} {tx : Tx} {pc : Pc} {th' : Thread}
    (h : statement cfg w others event tx pc = some (w', th')) :
    Effect w w' others (.transaction event tx pc) th' .ok := by
  cases pc with
  | upsert =>
    simp only [statement] at h
    split at h <;> cases h
    exact .goesOn rfl rfl rfl rfl rfl rfl
  | writeStats stats selected =>
    simp only [statement] at h
    split at h
    · cases h
      exact .goesOn rfl rfl rfl rfl rfl rfl
    · split at h
      · cases h
        exact .ends rfl rfl (fun _ => rfl) rfl
      · split at h
        · split at h <;> cases h
          · exact .goesOn rfl rfl rfl rfl rfl rfl
          · exact .ends rfl rfl (fun _ => rfl) rfl
          · exact .goesOn rfl rfl rfl rfl rfl rfl
          · exact .goesOn rfl rfl rfl rfl rfl rfl
        · cases h
  | findAchievements stats configs =>
    cases h
    exact .goesOn rfl rfl rfl (unlockNext_unannounced _ _ _) rfl rfl
  | saveAchievement loop config =>
    simp only [statement] at h
    split at h
    · cases h
    · next hfree =>
      split at h <;> cases h
      · exact .ends rfl rfl (fun _ => rfl) rfl
      · next hnew =>
        refine .saves (.achievement event.payload.userId config.id) rfl (Nat.le_succ _) rfl rfl ?_
          rfl (fun hmem => hnew (view_achievement.mpr hmem)) fun tx' hmem' hmem => hfree ?_
        · simp only [Thread.unlocks, Thread.tx, Option.elim, Tx.unlocks, List.map_append,
            List.append_assoc]
          exact List.perm_middle
        · obtain ⟨row, hrow, huser, hid⟩ := mem_unlocks_achievement.mp hmem
          refine List.any_eq_true.mpr ⟨tx', hmem', List.any_eq_true.mpr ⟨row, hrow, ?_⟩⟩
          simp [huser, hid]
  | saveAchievementEvent loop config =>
    cases h
    exact .announces _ _ rfl rfl rfl rfl (unlockNext_unannounced _ _ _) rfl rfl rfl rfl
  | findUserBadges achievementIds badges =>
    cases h
    exact .goesOn rfl rfl rfl (badgeNext_unannounced _ _ _) rfl rfl
  | saveBadge badge rest =>
    simp only [statement] at h
    split at h
    · cases h
    · next hfree =>
      split at h <;> cases h
      · exact .ends rfl rfl (fun _ => rfl) rfl
      · next hnew =>
        refine .saves (.badge event.payload.userId badge.id) rfl (Nat.le_succ _) rfl rfl ?_
          rfl (fun hmem => hnew (view_badge.mpr hmem)) fun tx' hmem' hmem => hfree ?_
        · simp only [Thread.unlocks, Thread.tx, Option.elim, Tx.unlocks, List.map_append,
            ← List.append_assoc]
          exact List.perm_append_singleton _ _
        · obtain ⟨row, hrow, huser, hid⟩ := mem_unlocks_badge.mp hmem
          refine List.any_eq_true.mpr ⟨tx', hmem', List.any_eq_true.mpr ⟨row, hrow, ?_⟩⟩
          simp [huser, hid]
  | saveBadgeEvent badge rest =>
    cases h
    exact .announces _ _ rfl rfl rfl rfl (badgeNext_unannounced _ _ _) rfl rfl rfl rfl
  | writeMarker found =>
    simp only [statement] at h
    split at h
    · cases h
      exact .goesOn rfl rfl rfl rfl rfl rfl
    · split at h
      · split at h <;> cases h
        · exact .ends rfl rfl (fun _ => rfl) rfl
        · exact .goesOn rfl rfl rfl rfl rfl rfl
      · cases h
  | commit =>
    cases h
    exact .commits event tx rfl rfl rfl
  | _ =>
    cases h
    exact .goesOn rfl rfl rfl rfl rfl rfl

theorem advance_effect {cfg : Config} {w w' : World} {others : List Tx} {th th' : Thread}
    {o : Outcome} (h : advance cfg w others th o = some (w', th')) :
    Effect w w' others th th' o := by
  cases th with
  | done => cases h
  | alreadyProcessed event =>
    cases o with
    | ok =>
      simp only [advance] at h
      split at h <;> cases h
      · exact .ends rfl rfl (fun _ => rfl) rfl
      · exact .goesOn rfl rfl rfl rfl rfl rfl
    | fails written =>
      cases h
      exact .ends rfl rfl (fun _ => rfl) rfl
  | publish ids =>
    cases o <;> cases h <;> exact .ends rfl rfl (fun _ => rfl) rfl
  | transaction event tx pc =>
    cases o with
    | ok => exact statement_effect h
    | fails written =>
      obtain ⟨rfl, ⟨rfl, _, rfl⟩ | ⟨_, rfl⟩⟩ := advance_fails h
      · exact .commits event tx rfl rfl rfl
      · exact .ends rfl rfl (fun ho => by cases ho) rfl

/-! ## What every step keeps -/

/-- The outbox rows announce the unlocks, each one once. -/
def Matches (drawn : List (ReadableId × Unlock)) (outbox : List OutboxEvent)
    (unlocks : List Unlock) : Prop :=
  (outbox.map (·.unlock drawn)).Perm (unlocks.map some)

structure Announced (tr : List (Move State Label)) (s : State) : Prop where
  beyond : ∀ e, s.nextThread ≤ e → s.threads e = .done
  distinct : ∀ e, (s.world.db.unlocks ++ (s.threads e).unlocks).Nodup
  apart : ∀ e e', e ≠ e' → (s.threads e).unlocks.Disjoint (s.threads e').unlocks
  drawn : ∀ a ∈ announcements tr, a.1 < s.world.nextId
  committed : Matches (announcements tr) s.world.db.outbox s.world.db.unlocks
  uncommitted : ∀ e, ∃ unlocks, Matches (announcements tr) (s.threads e).outbox unlocks ∧
    (s.threads e).unlocks.Perm ((s.threads e).unannounced.toList ++ unlocks)

/-- Later draws do not change what a row was built from. -/
theorem Matches.later {drawn : List (ReadableId × Unlock)} {outbox : List OutboxEvent}
    {unlocks : List Unlock} (h : Matches drawn outbox unlocks)
    (more : List (ReadableId × Unlock)) : Matches (drawn ++ more) outbox unlocks := by
  have hsame : outbox.map (·.unlock (drawn ++ more)) = outbox.map (·.unlock drawn) := by
    refine List.map_congr_left fun row hmem => ?_
    obtain ⟨u, _, hu⟩ := List.mem_map.mp (h.mem_iff.mp (List.mem_map_of_mem hmem))
    obtain ⟨hlookup, _⟩ := Option.filter_eq_some_iff.mp hu.symm
    rw [OutboxEvent.unlock, OutboxEvent.unlock, List.lookup_append, hlookup, Option.some_or]
  rw [Matches, hsame]
  exact h

theorem Matches.append {drawn : List (ReadableId × Unlock)} {outbox outbox' : List OutboxEvent}
    {unlocks unlocks' : List Unlock} (h : Matches drawn outbox unlocks)
    (h' : Matches drawn outbox' unlocks') : Matches drawn (outbox ++ outbox') (unlocks ++ unlocks') := by
  rw [Matches, List.map_append, List.map_append]
  exact List.Perm.append h h'

/-- A draw with a fresh id, and the row that is built with it. -/
theorem matches_drawn {drawn : List (ReadableId × Unlock)} {row : OutboxEvent} {u : Unlock}
    (hfresh : ∀ a ∈ drawn, a.1 ≠ row.id) (hkind : row.payload.announces u = true) :
    Matches (drawn ++ [(row.id, u)]) [row] [u] := by
  have hnone : drawn.lookup row.id = none := by
    rw [List.lookup_eq_none_iff]
    exact fun a hmem => by simpa using (hfresh a hmem).symm
  have hunlock : row.unlock (drawn ++ [(row.id, u)]) = some u := by
    rw [OutboxEvent.unlock, List.lookup_append, hnone, Option.none_or, List.lookup_cons_self]
    exact Option.filter_some_pos hkind
  rw [Matches, List.map_singleton, hunlock]
  exact List.Perm.refl _

theorem announcements_snoc (tr : List (Move State Label)) (x : Move State Label) :
    announcements (tr ++ [x]) = announcements tr ++ (announcement x).toList :=
  filterMap_snoc _ _ _

section Step
variable {cfg : Config} {tr : List (Move State Label)} {s s' : State} {l : Label} {e : ℕ}
  {th' : Thread}

/-- One execution goes on without a commit. -/
theorem thread_announced (hs : Announced tr s) (drawn : List (ReadableId × Unlock))
    (htr : announcements (tr ++ [⟨s, l, s'⟩]) = announcements tr ++ drawn)
    (hbeyond : ∀ e', s'.nextThread ≤ e' → s'.threads e' = .done)
    (hdb : s'.world.db = s.world.db)
    (hdrawn : ∀ a ∈ announcements tr ++ drawn, a.1 < s'.world.nextId)
    (hdistinct : (s.world.db.unlocks ++ th'.unlocks).Nodup)
    (hapart : ∀ e', e' ≠ e → th'.unlocks.Disjoint (s.threads e').unlocks)
    (hmatches : ∃ unlocks, Matches (announcements tr ++ drawn) th'.outbox unlocks ∧
      th'.unlocks.Perm (th'.unannounced.toList ++ unlocks))
    (hthreads : ∀ e', s'.threads e' = if e' = e then th' else s.threads e') :
    Announced (tr ++ [⟨s, l, s'⟩]) s' := by
  refine ⟨hbeyond, fun e' => ?_, fun e' e'' hne => ?_, ?_, ?_, fun e' => ?_⟩
  · rw [hthreads, hdb]
    split
    · exact hdistinct
    · exact hs.distinct e'
  · rw [hthreads, hthreads]
    split
    · next heq =>
      rw [if_neg fun h => hne (heq.trans h.symm)]
      exact hapart e'' fun h => hne (heq.trans h.symm)
    · next hother =>
      split
      · exact (hapart e' hother).symm
      · exact hs.apart e' e'' hne
  · rw [htr]
    exact hdrawn
  · rw [htr, hdb]
    exact hs.committed.later drawn
  · rw [htr, hthreads]
    split
    · exact hmatches
    · obtain ⟨unlocks, hmatches', hperm⟩ := hs.uncommitted e'
      exact ⟨unlocks, hmatches'.later drawn, hperm⟩

theorem plain_unlocks (h : th'.tx = none) :
    th'.unlocks = [] ∧ th'.outbox = [] ∧ th'.unannounced = none := by
  cases th' with
  | transaction _ _ _ => cases h
  | _ => exact ⟨rfl, rfl, rfl⟩

theorem commit_announced (hs : Announced tr s) {event : PurchaseCompletedEvent} {tx : Tx}
    (htr : announcements (tr ++ [⟨s, l, s'⟩]) = announcements tr)
    (hbeyond : ∀ e', s'.nextThread ≤ e' → s'.threads e' = .done)
    (hth : s.threads e = .transaction event tx .commit)
    (hw : s'.world = s.world.commit event tx) (hplain : th'.tx = none)
    (hthreads : ∀ e', s'.threads e' = if e' = e then th' else s.threads e') :
    Announced (tr ++ [⟨s, l, s'⟩]) s' := by
  obtain ⟨hunlocks, houtbox, hunannounced⟩ := plain_unlocks hplain
  have hdistinct := hs.distinct e
  obtain ⟨unlocks, hmatches, hperm⟩ := hs.uncommitted e
  rw [hth] at hdistinct hmatches hperm
  have hview := view_unlocks tx s.world.db
  refine ⟨hbeyond, fun e' => ?_, fun e' e'' hne => ?_, ?_, ?_, fun e' => ?_⟩
  · rw [hthreads, hw]
    split
    · rw [hunlocks, List.append_nil]
      exact hview.nodup_iff.mpr hdistinct
    · next hne =>
      have hdistinct' := List.nodup_append'.mp (hs.distinct e')
      have hapart := hs.apart e e' (Ne.symm hne)
      rw [hth] at hapart
      refine (hview.append_right _).nodup_iff.mpr ?_
      rw [List.nodup_append']
      refine ⟨hdistinct, hdistinct'.2.1, ?_⟩
      rw [List.disjoint_append_left]
      exact ⟨hdistinct'.2.2, hapart⟩
  · rw [hthreads, hthreads]
    split
    · rw [hunlocks]
      exact List.disjoint_nil_left _
    · split
      · rw [hunlocks]
        exact List.disjoint_nil_right _
      · exact hs.apart e' e'' hne
  · rw [htr, hw]
    exact hs.drawn
  · rw [htr, hw]
    refine (hs.committed.append hmatches).trans ?_
    refine List.Perm.map some (List.Perm.trans ?_ hview.symm)
    exact List.Perm.append_left _ hperm.symm
  · rw [htr, hthreads]
    split
    · rw [hunlocks, houtbox, hunannounced]
      exact ⟨[], List.Perm.refl _, List.Perm.refl _⟩
    · exact hs.uncommitted e'

theorem announcement_ok (s s' : State) (e : ℕ) : announcement ⟨s, .run e .ok, s'⟩ =
    (s.threads e).unannounced.map fun u => (s.world.nextId, u) := rfl

/-- A move that is no draw leaves what was announced. -/
theorem announcements_silent {x : Move State Label} (h : announcement x = none) :
    announcements (tr ++ [x]) = announcements tr ++ [] := by
  rw [announcements_snoc, h]
  rfl

theorem step_announced (hs : Announced tr s) (h : step cfg s l = some s') :
    Announced (tr ++ [⟨s, l, s'⟩]) s' := by
  have hbeyond := step_beyond hs.beyond h
  obtain ⟨e, th', hthreads, ⟨o, rfl, _, hadv⟩ | ⟨hw, hnot, hth'⟩⟩ := step_cases h
  · have hsilent : (o = .ok → (s.threads e).unannounced = none) →
        announcements (tr ++ [⟨s, .run e o, s'⟩]) = announcements tr ++ [] := by
      intro hnone
      refine announcements_silent ?_
      cases o with
      | ok => rw [announcement_ok, hnone rfl]; rfl
      | fails written => rfl
    have hdrawn : s.world.nextId ≤ s'.world.nextId →
        ∀ a ∈ announcements tr ++ [], a.1 < s'.world.nextId := by
      intro hle a hmem
      rw [List.append_nil] at hmem
      exact Nat.lt_of_lt_of_le (hs.drawn a hmem) hle
    obtain ⟨unlocks, hmatches, hperm⟩ := hs.uncommitted e
    cases advance_effect hadv with
    | commits event tx source world plain =>
      have htr := hsilent fun _ => by rw [source]; rfl
      rw [List.append_nil] at htr
      exact commit_announced hs htr hbeyond source world plain hthreads
    | ends db ids silent plain =>
      obtain ⟨hunlocks, houtbox, hunannounced⟩ := plain_unlocks plain
      refine thread_announced hs [] (hsilent silent) hbeyond db (hdrawn ids.ge) ?_ ?_ ?_ hthreads
      · rw [hunlocks, List.append_nil]
        exact (List.nodup_append'.mp (hs.distinct e)).1
      · rw [hunlocks]
        exact fun _ _ => List.disjoint_nil_left _
      · rw [hunlocks, houtbox, hunannounced]
        exact ⟨[], List.Perm.refl _, List.Perm.refl _⟩
    | goesOn db ids before after unlocks' outbox =>
      refine thread_announced hs [] (hsilent fun _ => before) hbeyond db (hdrawn ids.ge) ?_ ?_ ?_
        hthreads
      · rw [unlocks']
        exact hs.distinct e
      · rw [unlocks']
        exact fun e' hne => hs.apart e e' (Ne.symm hne)
      · rw [unlocks', outbox, after, List.append_nil, ← before]
        exact ⟨unlocks, hmatches, hperm⟩
    | saves u db ids before after unlocks' outbox new free =>
      refine thread_announced hs [] (hsilent fun _ => before) hbeyond db (hdrawn ids) ?_ ?_ ?_
        hthreads
      · refine ((unlocks'.append_left _).trans List.perm_middle).nodup_iff.mpr ?_
        exact List.nodup_cons.mpr ⟨new, hs.distinct e⟩
      · intro e' hne u' hmem hmem'
        rcases List.mem_cons.mp (unlocks'.mem_iff.mp hmem) with rfl | hold
        · cases htx : (s.threads e').tx with
          | none => simp [Thread.unlocks, htx] at hmem'
          | some tx =>
            refine free tx (mem_others hs.beyond hne htx) ?_
            simpa [Thread.unlocks, htx] using hmem'
        · exact hs.apart e e' (Ne.symm hne) hold hmem'
      · rw [outbox, after, List.append_nil]
        rw [before] at hperm
        exact ⟨unlocks, hmatches, unlocks'.trans (hperm.cons u)⟩
    | announces u row db ids succeeds before after unlocks' outbox id kind =>
      subst succeeds
      have htr : announcements (tr ++ [⟨s, .run e .ok, s'⟩]) =
          announcements tr ++ [(row.id, u)] := by
        rw [announcements_snoc, announcement_ok, before, id]
        rfl
      refine thread_announced hs _ htr hbeyond db (fun a hmem => ?_) ?_ ?_ ?_ hthreads
      · rw [ids]
        rcases List.mem_append.mp hmem with hold | hnew
        · exact Nat.lt_succ_of_lt (hs.drawn a hold)
        · rw [List.mem_singleton.mp hnew, id]
          exact Nat.lt_succ_self _
      · rw [unlocks']
        exact hs.distinct e
      · rw [unlocks']
        exact fun e' hne => hs.apart e e' (Ne.symm hne)
      · rw [unlocks', outbox, after]
        have hfresh : ∀ a ∈ announcements tr, a.1 ≠ row.id := by
          intro a hmem
          rw [id]
          exact Nat.ne_of_lt (hs.drawn a hmem)
        refine ⟨unlocks ++ [u], (hmatches.later _).append (matches_drawn hfresh kind), ?_⟩
        rw [before] at hperm
        exact hperm.trans (List.perm_append_singleton u unlocks).symm
  · have hplain : th'.tx = none := by
      rcases hth' with ⟨rfl, _⟩ | ⟨_, _, eventId, rfl⟩ <;> rfl
    have hsilent : announcement ⟨s, l, s'⟩ = none := by
      rw [announcement]
      split
      · next e' heq => exact absurd heq (hnot e' .ok)
      · rfl
    obtain ⟨hunlocks, houtbox, hunannounced⟩ := plain_unlocks hplain
    refine thread_announced hs [] (announcements_silent hsilent) hbeyond (by rw [hw]) ?_ ?_ ?_ ?_
      hthreads
    · rw [hw, List.append_nil]
      exact hs.drawn
    · rw [hunlocks, List.append_nil]
      exact (List.nodup_append'.mp (hs.distinct e)).1
    · rw [hunlocks]
      exact fun _ _ => List.disjoint_nil_left _
    · rw [hunlocks, houtbox, hunannounced]
      exact ⟨[], List.Perm.refl _, List.Perm.refl _⟩

end Step

theorem initial_announced : Announced [] initial where
  beyond := fun _ _ => rfl
  distinct := fun _ => List.nodup_nil
  apart := fun _ _ _ => List.disjoint_nil_left _
  drawn := fun _ h => absurd h List.not_mem_nil
  committed := List.Perm.refl _
  uncommitted := fun _ => ⟨[], List.Perm.refl _, List.Perm.refl _⟩

theorem reaches_announced {cfg : Config} {tr : List (Move State Label)} {s : State}
    (h : Reaches cfg tr s) : Announced tr s :=
  Run.history Announced initial_announced (fun _ _ _ _ _ hs hstep => step_announced hs hstep) h

/-! ## The result -/

def Database.achievementRows (db : Database) (userId achievementId : String) : ℕ :=
  db.achievements.countP fun row => row.userId = userId ∧ row.achievementId = achievementId

def Database.badgeRows (db : Database) (userId badgeId : String) : ℕ :=
  db.badges.countP fun row => row.userId = userId ∧ row.badgeId = badgeId

/-- The outbox rows that announce an unlock. -/
def eventsOf (tr : List (Move State Label)) (db : Database) (u : Unlock) : ℕ :=
  db.outbox.countP fun row => row.unlock (announcements tr) = some u

theorem count_achievement (db : Database) (userId achievementId : String) :
    db.unlocks.count (.achievement userId achievementId) =
      db.achievementRows userId achievementId := by
  have hbadges : Unlock.achievement userId achievementId ∉ db.badges.map (·.unlock) := by
    simp [UserBadge.unlock]
  rw [Database.unlocks, List.count_append, List.count_eq_zero_of_not_mem hbadges, Nat.add_zero,
    List.count, List.countP_map, Database.achievementRows]
  refine List.countP_congr fun row _ => ?_
  simp [UserAchievement.unlock]

theorem count_badge (db : Database) (userId badgeId : String) :
    db.unlocks.count (.badge userId badgeId) = db.badgeRows userId badgeId := by
  have hachievements : Unlock.badge userId badgeId ∉ db.achievements.map (·.unlock) := by
    simp [UserAchievement.unlock]
  rw [Database.unlocks, List.count_append, List.count_eq_zero_of_not_mem hachievements,
    Nat.zero_add, List.count, List.countP_map, Database.badgeRows]
  refine List.countP_congr fun row _ => ?_
  simp [UserBadge.unlock]

/-- One row at most and as many events, for any kind of unlock. -/
theorem Announced.count {tr : List (Move State Label)} {s : State} (hs : Announced tr s)
    (u : Unlock) :
    s.world.db.unlocks.count u ≤ 1 ∧ eventsOf tr s.world.db u = s.world.db.unlocks.count u := by
  constructor
  · exact List.nodup_iff_count_le_one.mp (List.nodup_append'.mp (hs.distinct 0)).1 u
  · have hcount := hs.committed.count_eq (some u)
    rw [List.count_map_of_injective _ _ (Option.some_injective _), List.count, List.countP_map]
      at hcount
    rw [← hcount, eventsOf]
    refine List.countP_congr fun row _ => ?_
    simp

/-- A step removes no unlock. -/
theorem step_unlocks {cfg : Config} {s s' : State} {l : Label} (h : step cfg s l = some s') :
    s.world.db.achievements <+: s'.world.db.achievements ∧
      s.world.db.badges <+: s'.world.db.badges := by
  obtain ⟨e, th', hthreads, ⟨o, rfl, _, hadv⟩ | ⟨hw, _, _⟩⟩ := step_cases h
  · cases advance_effect hadv with
    | commits event tx source world plain =>
      rw [world]
      exact ⟨List.prefix_append _ _, List.prefix_append _ _⟩
    | _ => simp_all
  · rw [hw]
    exact ⟨List.prefix_refl _, List.prefix_refl _⟩

/-- In every state that is reached, what is committed has at most one row for a user and an
achievement or a badge, and as many events that were built from it; every event was built from one;
and whatever happens later only adds unlocks. -/
theorem unlocks_announced {cfg : Config} {tr : List (Move State Label)} {s : State}
    (h : Reaches cfg tr s) :
    (∀ userId achievementId, s.world.db.achievementRows userId achievementId ≤ 1 ∧
      eventsOf tr s.world.db (.achievement userId achievementId) =
        s.world.db.achievementRows userId achievementId) ∧
    (∀ userId badgeId, s.world.db.badgeRows userId badgeId ≤ 1 ∧
      eventsOf tr s.world.db (.badge userId badgeId) = s.world.db.badgeRows userId badgeId) ∧
    (∀ row ∈ s.world.db.outbox, ∃ u, row.unlock (announcements tr) = some u) ∧
    ∀ tr' s', Run (step cfg) s tr' s' → s.world.db.achievements <+: s'.world.db.achievements ∧
      s.world.db.badges <+: s'.world.db.badges := by
  have hs := reaches_announced h
  refine ⟨fun userId achievementId => ?_, fun userId badgeId => ?_, fun row hmem => ?_,
    fun tr' s' hrun => ?_⟩
  · rw [← count_achievement]
    exact hs.count _
  · rw [← count_badge]
    exact hs.count _
  · obtain ⟨u, _, hu⟩ := List.mem_map.mp (hs.committed.mem_iff.mp (List.mem_map_of_mem hmem))
    exact ⟨u, hu.symm⟩
  · refine Run.invariant (fun t => s.world.db.achievements <+: t.world.db.achievements ∧
      s.world.db.badges <+: t.world.db.badges) (fun t l u ht hstep => ?_) hrun
      ⟨List.prefix_refl _, List.prefix_refl _⟩
    obtain ⟨hachievements, hbadges⟩ := step_unlocks hstep
    exact ⟨ht.1.trans hachievements, ht.2.trans hbadges⟩

/-- Two deliveries of the first purchase overlap, and a third one is rolled back. -/
theorem unlocks_announced_once : ∃ tr s, Reaches firstPurchaseConfig tr s ∧
    s.world.commits = [0, 0] ∧
    s.world.db.achievementRows "usr" "ach_first_purchase" = 1 ∧
    eventsOf tr s.world.db (.achievement "usr" "ach_first_purchase") = 1 ∧
    s.world.db.badgeRows "usr" "bdg_bronze" = 1 ∧
    eventsOf tr s.world.db (.badge "usr" "bdg_bronze") = 1 := by
  obtain ⟨tr, s, h, hp⟩ := exists_run_of_trace (step firstPurchaseConfig) initial
    (.deliver 0 :: Label.oks 0 9 ++ [.run 0 (.fails false)] ++ .deliver 0 :: .deliver 0 ::
      Label.oks 1 1 ++ Label.oks 2 1 ++ Label.oks 1 17 ++ Label.oks 2 13)
    (fun r => decide (r.2.world.commits = [0, 0] ∧
      r.2.world.db.achievementRows "usr" "ach_first_purchase" = 1 ∧
      r.2.world.db.badgeRows "usr" "bdg_bronze" = 1)) (by decide +kernel)
  rw [decide_eq_true_eq] at hp
  obtain ⟨hcommits, hachievement, hbadge⟩ := hp
  obtain ⟨hachievements, hbadges, _⟩ := unlocks_announced h
  exact ⟨tr, s, h, hcommits, hachievement, (hachievements _ _).2.trans hachievement, hbadge,
    (hbadges _ _).2.trans hbadge⟩

end Bumpa.Loyalty
