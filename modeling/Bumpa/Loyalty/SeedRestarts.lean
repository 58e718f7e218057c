import Bumpa.Loyalty.SeedingRuns
import Mathlib.Data.List.Basic
import Mathlib.Data.List.Perm.Subperm

/-! # Starts that race

Two replicas that start together find the same defaults missing. One of them inserts them, and the
other one's INSERT is rejected for an id that is taken by then: its process ends, and is started
again.

* `restarts_bounded`: a replica that is started again each time that happens fails no more often than
  there were defaults missing before, whatever else happens in the meantime.
* `races_seed_once`: from empty tables, replicas that start without calls leave each table empty or
  with exactly the defaults in it, and all three with them once a start has ended well.
-/
namespace Bumpa.Loyalty
open Bumpa.Relational Bumpa.Transition
set_option autoImplicit false

section Missing
variable {V : Type} {key : V → String} {T T' : Table String V key} {defaults rows : List V}

theorem missing_mono (hgrows : ∀ k, (T.row k).isSome = true → (T'.row k).isSome = true) :
    (missing T' defaults).length ≤ (missing T defaults).length := by
  refine (List.monotone_filter_right defaults fun v hnone => ?_).length_le
  cases hrow : T.row (key v) with
  | none => rfl
  | some w =>
    rw [← Option.not_isSome, hgrows (key v) (by rw [hrow]; rfl)] at hnone
    cases hnone

theorem Pending.missing_subset (h : Pending T defaults rows) : missing T defaults ⊆ rows := by
  intro v hv
  obtain ⟨hmem, hnone⟩ := List.mem_filter.mp hv
  refine (h.rest v hmem).resolve_right fun hsome => ?_
  rw [← Option.not_isSome, hsome] at hnone
  cases hnone

theorem Pending.missing_le (h : Pending T defaults rows) (hnodup : (defaults.map key).Nodup) :
    (missing T defaults).length ≤ rows.length :=
  ((hnodup.of_map.filter _).subperm h.missing_subset).length_le

/-- An id of the rows that is taken is no longer missing. -/
theorem Pending.taken_lt (h : Pending T defaults rows) (hnodup : (defaults.map key).Nodup)
    (htaken : ∃ v ∈ rows, (T.row (key v)).isSome = true) :
    (missing T defaults).length < rows.length := by
  classical
  obtain ⟨v, hv, hsome⟩ := htaken
  have hsubset : missing T defaults ⊆ rows.erase v := by
    intro w hw
    have hne : w ≠ v := by
      rintro rfl
      have hnone := (List.mem_filter.mp hw).2
      rw [← Option.not_isSome, hsome] at hnone
      cases hnone
    exact (List.mem_erase_of_ne hne).mpr (h.missing_subset hw)
  have hle := ((hnodup.of_map.filter _).subperm hsubset).length_le
  have hlength := List.length_erase_of_mem hv
  have hpos := List.length_pos_of_mem hv
  exact hle.trans_lt (by omega)

/-- An INSERT that is rejected as no `save` does was rejected for an id. -/
theorem insertRows_taken {save : Table String V key → V → Except RequestError (Table String V key)}
    {error : RequestError} (h : insertRows save T rows = .error error) (hsaves : Saves save)
    (hsave : ∀ T₁, ∀ v ∈ rows, save T₁ v ≠ .error error) (hnodup : (rows.map key).Nodup) :
    ∃ v ∈ rows, (T.row (key v)).isSome = true := by
  induction rows generalizing T with
  | nil => cases h
  | cons v rows ih =>
    rw [insertRows] at h
    rw [List.map_cons, List.nodup_cons] at hnodup
    split at h
    · next hsome => exact ⟨v, .head _, hsome⟩
    · cases hput : save T v with
      | error error' =>
        rw [hput] at h
        cases h
        exact absurd hput (hsave T v (.head _))
      | ok T₁ =>
        rw [hput] at h
        obtain ⟨w, hw, hsome⟩ := ih h (fun T₂ w hw => hsave T₂ w (List.mem_cons_of_mem _ hw)) hnodup.2
        refine ⟨w, List.mem_cons_of_mem _ hw, ?_⟩
        rw [hsaves T v T₁ hput, Table.put_row_of_ne T v] at hsome
        · exact hsome
        · intro heq
          exact hnodup.1 (heq ▸ List.mem_map_of_mem hw)

end Missing

/-- How many defaults are missing. -/
def Catalog.missingDefaults (c : Catalog) : ℕ :=
  (missing c.groups DEFAULT_ACHIEVEMENT_GROUPS).length +
    (missing c.achievements DEFAULT_ACHIEVEMENTS).length + (missing c.badges DEFAULT_BADGES).length

theorem missingDefaults_le (c : Catalog) : c.missingDefaults ≤ 13 := by
  have hgroups : (missing c.groups DEFAULT_ACHIEVEMENT_GROUPS).length ≤ 3 := List.length_filter_le _ _
  have hachievements : (missing c.achievements DEFAULT_ACHIEVEMENTS).length ≤ 6 :=
    List.length_filter_le _ _
  have hbadges : (missing c.badges DEFAULT_BADGES).length ≤ 4 := List.length_filter_le _ _
  unfold Catalog.missingDefaults
  omega

theorem Catalog.Later.missing_le {c c' : Catalog} (h : c.Later c') :
    (missing c'.groups DEFAULT_ACHIEVEMENT_GROUPS).length ≤
        (missing c.groups DEFAULT_ACHIEVEMENT_GROUPS).length ∧
      (missing c'.achievements DEFAULT_ACHIEVEMENTS).length ≤
        (missing c.achievements DEFAULT_ACHIEVEMENTS).length ∧
      (missing c'.badges DEFAULT_BADGES).length ≤ (missing c.badges DEFAULT_BADGES).length :=
  ⟨missing_mono h.groups, missing_mono h.achievements, missing_mono h.badges⟩

theorem Catalog.Later.missingDefaults {c c' : Catalog} (h : c.Later c') :
    c'.missingDefaults ≤ c.missingDefaults := by
  obtain ⟨hgroups, hachievements, hbadges⟩ := h.missing_le
  unfold Catalog.missingDefaults
  omega

namespace Seeder

/-- How the INSERT of a start fails for an id that is taken. -/
abbrev idTaken : RequestError := .queryFailed POSTGRES_UNIQUE_VIOLATION

def Start.failedWith (error : RequestError) : Start → Bool
  | .failed error' => error' = error
  | _ => false

theorem failedWith_iff {th : Start} {error : RequestError} :
    th.failedWith error = true ↔ th = .failed error := by
  cases th <;> simp [Start.failedWith]

/-- How many rows a start takes to be missing; one more than there are, once its INSERT was rejected
for an id. -/
def Start.toInsert (c : Catalog) : Start → ℕ
  | .insertGroups rows => rows.length + (missing c.achievements DEFAULT_ACHIEVEMENTS).length +
    (missing c.badges DEFAULT_BADGES).length
  | .insertAchievements rows => (missing c.groups DEFAULT_ACHIEVEMENT_GROUPS).length + rows.length +
    (missing c.badges DEFAULT_BADGES).length
  | .insertBadges rows => (missing c.groups DEFAULT_ACHIEVEMENT_GROUPS).length +
    (missing c.achievements DEFAULT_ACHIEVEMENTS).length + rows.length
  | .failed error => c.missingDefaults + if error = idTaken then 1 else 0
  | _ => c.missingDefaults

theorem Start.toInsert_mono {c c' : Catalog} (h : c.Later c') (th : Start) :
    th.toInsert c' ≤ th.toInsert c := by
  obtain ⟨hgroups, hachievements, hbadges⟩ := h.missing_le
  cases th <;> simp only [Start.toInsert, Catalog.missingDefaults] <;> omega

theorem find_toInsert {V : Type} {key : V → String} {c : Catalog} {T : Table String V key}
    {defaults : List V} {insert : List V → Start} {next : Start}
    (hinsert : (insert (missing T defaults)).toInsert c = c.missingDefaults)
    (hnext : next.toInsert c = c.missingDefaults) :
    (insertOrSkip insert next (missing T defaults)).toInsert c = c.missingDefaults := by
  rcases insertOrSkip_cases insert next (missing T defaults) with ⟨-, heq⟩ | heq
  · rw [heq, hnext]
  · rw [heq, hinsert]

theorem saveAchievementConfig_error {groups : GroupTable} {T : AchievementTable}
    {achievement : AchievementConfig} : saveAchievementConfig groups T achievement ≠ .error idTaken := by
  unfold saveAchievementConfig
  split
  · simp
  · split <;> simp

theorem saveBadgeConfig_error {T : BadgeTable} {badge : BadgeConfig} :
    badgeColumns.save T badge ≠ .error idTaken := by
  simp only [badgeColumns, badgeConstraints, saveBadgeConfig]
  split <;> simp

/-- What an INSERT leaves missing, and one more if it was rejected for an id. -/
theorem insert_missing {V : Type} {key : V → String} {T : Table String V key}
    {defaults rows : List V}
    {save : Table String V key → V → Except RequestError (Table String V key)} {error : RequestError}
    (hpending : Pending T defaults rows) (hsaves : Saves save)
    (hsave : ∀ T₁ v, save T₁ v ≠ .error idTaken) (hnodup : (defaults.map key).Nodup)
    (h : insertRows save T rows = .error error) :
    (missing T defaults).length + (if error = idTaken then 1 else 0) ≤ rows.length := by
  split
  · next heq =>
    subst heq
    have hrows := hnodup.sublist (hpending.sublist.map key)
    exact hpending.taken_lt hnodup (insertRows_taken h hsaves (fun T₁ v _ => hsave T₁ v) hrows)
  · exact hpending.missing_le hnodup

theorem default_ids : (DEFAULT_ACHIEVEMENT_GROUPS.map AchievementGroup.key).Nodup ∧
    (DEFAULT_ACHIEVEMENTS.map AchievementConfig.id).Nodup ∧ (DEFAULT_BADGES.map BadgeConfig.id).Nodup := by
  decide

theorem Start.Sound.le_toInsert {c : Catalog} {th : Start} (hth : th.Sound c) :
    c.missingDefaults ≤ th.toInsert c := by
  cases th with
  | insertGroups rows =>
    have hmissing := Pending.missing_le hth default_ids.1
    simp only [Start.toInsert, Catalog.missingDefaults]
    omega
  | insertAchievements rows =>
    have hmissing := hth.2.missing_le default_ids.2.1
    simp only [Start.toInsert, Catalog.missingDefaults]
    omega
  | insertBadges rows =>
    have hmissing := hth.2.2.missing_le default_ids.2.2
    simp only [Start.toInsert, Catalog.missingDefaults]
    omega
  | failed error => exact Nat.le_add_right _ _
  | _ => exact le_rfl

theorem advance_toInsert {c c' : Catalog} {others : List Admin.Thread} {th th' : Start} {o : Outcome}
    (hth : th.Sound c) (h : advance c others th o = some (c', th')) :
    th'.toInsert c' ≤ th.toInsert c := by
  have hle : c'.missingDefaults ≤ th.toInsert c :=
    (advance_adds hth h).2.kept.later.missingDefaults.trans hth.le_toInsert
  cases advance_steps h with
  | interrupted => exact hle
  | findGroups => exact (find_toInsert rfl rfl).le
  | findAchievements => exact (find_toInsert rfl rfl).le
  | findBadges => exact (find_toInsert rfl rfl).le
  | rejectsGroups herror =>
    have hmissing := insert_missing hth putGroup_saves (fun _ _ => by simp) default_ids.1 herror
    simp only [Start.toInsert, Catalog.missingDefaults]
    omega
  | rejectsAchievements herror =>
    have hmissing := insert_missing hth.2 (saveAchievementConfig_saves _)
      (fun _ _ => saveAchievementConfig_error) default_ids.2.1 herror
    simp only [Start.toInsert, Catalog.missingDefaults]
    omega
  | rejectsBadges herror =>
    have hmissing := insert_missing hth.2.2 saveBadgeConfig_saves
      (fun _ _ => saveBadgeConfig_error) default_ids.2.2 herror
    simp only [Start.toInsert, Catalog.missingDefaults]
    omega
  | groups _ hnext => rcases hnext with rfl | rfl <;> exact hle
  | achievements _ hnext => rcases hnext with rfl | rfl <;> exact hle
  | badges _ hnext => rcases hnext with rfl | rfl <;> exact hle

/-! ## Restarts -/

/-- No step adds to what a start that has begun takes to be missing. -/
theorem step_toInsert {s s' : State} {l : Label} {e : ℕ} (hs : Invariant s) (he : e < s.nextStart)
    (h : step s l = some s') : e < s'.nextStart ∧
      (s'.starts e).toInsert s'.catalog ≤ (s.starts e).toInsert s.catalog := by
  have hsame := (s.starts e).toInsert_mono (step_later hs h)
  have hupdate : ∀ {c' : Catalog} e' th,
      (s.starts e).toInsert c' ≤ (s.starts e).toInsert s.catalog →
      (e = e' → th.toInsert c' ≤ (s.starts e).toInsert s.catalog) →
      (Function.update s.starts e' th e).toInsert c' ≤ (s.starts e).toInsert s.catalog := by
    intro c' e' th hsame hth
    rw [Function.update_apply]
    split
    · next heq => exact hth heq
    · exact hsame
  cases l with
  | admin l =>
    obtain ⟨admin, -, rfl⟩ := Option.map_eq_some_iff.mp h
    exact ⟨he, hsame⟩
  | editGroups groups =>
    rw [step] at h
    split at h
    · cases h
      exact ⟨he, hsame⟩
    · cases h
  | start =>
    cases h
    exact ⟨Nat.lt_succ_of_lt he, hupdate _ _ hsame fun heq => absurd heq he.ne⟩
  | run e' o =>
    obtain ⟨⟨c', th'⟩, hadv, rfl⟩ := Option.map_eq_some_iff.mp h
    refine ⟨he, hupdate e' th' hsame fun heq => ?_⟩
    subst heq
    exact advance_toInsert (hs.starts e) hadv
  | crash e' =>
    rw [step] at h
    split at h
    · cases h
      exact ⟨he, hupdate e' _ hsame fun _ => (hs.starts e).le_toInsert⟩
    · cases h

theorem run_toInsert {s s' : State} {tr : List (Move State Label)} {e : ℕ} (hs : Invariant s)
    (he : e < s.nextStart) (h : Run step s tr s') :
    (s'.starts e).toInsert s'.catalog ≤ (s.starts e).toInsert s.catalog := by
  refine (Run.invariant (fun s' => Invariant s' ∧ e < s'.nextStart ∧
    (s'.starts e).toInsert s'.catalog ≤ (s.starts e).toInsert s.catalog) ?_ h ⟨hs, he, le_rfl⟩).2.2
  rintro t l u ⟨ht, hbegun, hle⟩ hstep
  obtain ⟨hbegun', hle'⟩ := step_toInsert ht hbegun hstep
  exact ⟨step_invariant ht hstep, hbegun', hle'.trans hle⟩

theorem run_missing {s s' : State} {tr : List (Move State Label)} (hs : Invariant s)
    (h : Run step s tr s') : Invariant s' ∧ s'.catalog.missingDefaults ≤ s.catalog.missingDefaults := by
  refine Run.invariant (fun s' => Invariant s' ∧
    s'.catalog.missingDefaults ≤ s.catalog.missingDefaults) ?_ h ⟨hs, le_rfl⟩
  rintro t l u ⟨ht, hle⟩ hstep
  exact ⟨step_invariant ht hstep, (step_later ht hstep).missingDefaults.trans hle⟩

/-- From `s` on, a replica has been started `n` times, each time after the start before has failed for
an id that was taken, as the last one has. -/
inductive Restarts (s : State) : ℕ → State → Prop
  | none : Restarts s 0 s
  | again {n : ℕ} {s₁ s₂ s₃ s₄ : State} {tr tr' : List (Move State Label)}
      (before : Restarts s n s₁) (meanwhile : Run step s₁ tr s₂) (begins : step s₂ .start = some s₃)
      (runs : Run step s₃ tr' s₄) (fails : s₄.starts s₂.nextStart = .failed idTaken) :
      Restarts s (n + 1) s₄

/-- Each failure leaves fewer defaults missing than there were when the start began. -/
theorem restart_lt {s s₁ s₂ : State} {tr : List (Move State Label)} (hs : Invariant s)
    (hbegins : step s .start = some s₁) (hruns : Run step s₁ tr s₂)
    (hfails : s₂.starts s.nextStart = .failed idTaken) :
    s₂.catalog.missingDefaults < s.catalog.missingDefaults := by
  have hs₁ := step_invariant hs hbegins
  cases hbegins
  have hle := run_toInsert hs₁ (Nat.lt_succ_self s.nextStart) hruns
  rw [hfails] at hle
  simp only [Function.update_self] at hle
  exact Nat.lt_of_succ_le hle

theorem restarts_add_le {s s' : State} {n : ℕ} (hs : Invariant s) (h : Restarts s n s') :
    Invariant s' ∧ n + s'.catalog.missingDefaults ≤ s.catalog.missingDefaults := by
  induction h with
  | none => exact ⟨hs, (Nat.zero_add _).le⟩
  | again before meanwhile begins runs fails ih =>
    obtain ⟨hs₁, hle⟩ := ih
    obtain ⟨hs₂, hmeanwhile⟩ := run_missing hs₁ meanwhile
    have hlt := restart_lt hs₂ begins runs fails
    refine ⟨(run_missing (step_invariant hs₂ begins) runs).1, ?_⟩
    omega

/-- A replica that is started again each time an id is taken fails at most once for each default that
is missing before, whatever calls are made and whatever other replicas start. -/
theorem restarts_bounded {c : Catalog} {tr : List (Move State Label)} {s s' : State} {n : ℕ}
    (hc : Admin.Closed c) (hgrouped : c.Grouped) (h : Reaches c tr s) (hrestarts : Restarts s n s') :
    n + s'.catalog.missingDefaults ≤ s.catalog.missingDefaults ∧ n ≤ 13 := by
  have hle := (restarts_add_le (reaches_seeds hc hgrouped h).1 hrestarts).2
  have hall := missingDefaults_le s.catalog
  exact ⟨hle, by omega⟩

theorem restarts_bounded_two : ∃ tr s s', Reaches emptyCatalog tr s ∧ Restarts s 1 s' ∧
    1 + s'.catalog.missingDefaults ≤ s.catalog.missingDefaults := by
  obtain ⟨tr, s, hrun, hfails⟩ := exists_run_of_trace step ⟨Admin.initial emptyCatalog,
    Function.update (fun _ => .idle) 0 .findGroups, 1⟩ racingStarts.tail
    (fun r => (r.2.starts 0).failedWith idTaken) (by decide +kernel)
  have hrestarts : Restarts (initial emptyCatalog) 1 s :=
    .again .none .nil rfl hrun (failedWith_iff.mp hfails)
  exact ⟨[], initial emptyCatalog, s, .nil, hrestarts,
    (restarts_bounded emptyCatalog_closed emptyCatalog_grouped .nil hrestarts).1⟩

/-! ## Replicas that start from nothing -/

end Seeder

section Whole
variable {V : Type} {key : V → String} {T T' : Table String V key} {defaults : List V}

/-- The table has no rows, or just the defaults. -/
def EmptyOrAll (T : Table String V key) (defaults : List V) : Prop :=
  T = Table.empty ∨ T = insertAll defaults

theorem foldl_put_hasAll (T : Table String V key) (rows : List V) :
    HasAll (rows.foldl Table.put T) rows := by
  induction rows generalizing T with
  | nil => exact List.forall_mem_nil _
  | cons v rows ih =>
    refine List.forall_mem_cons.mpr ⟨foldl_put_isSome rows ?_, ih (T.put v)⟩
    rw [Table.put_row, if_pos rfl]
    rfl

theorem insertAll_hasAll (defaults : List V) :
    HasAll (insertAll defaults : Table String V key) defaults := foldl_put_hasAll _ defaults

theorem EmptyOrAll.missing (h : EmptyOrAll T defaults) :
    missing T defaults = defaults ∨ missing T defaults = [] := by
  rcases h with rfl | rfl
  · exact Or.inl (List.filter_eq_self.mpr fun _ _ => rfl)
  · refine Or.inr (List.filter_eq_nil_iff.mpr fun v hv => ?_)
    rw [← Option.not_isSome, insertAll_hasAll defaults v hv]
    simp

/-- Rows with fresh ids go into a table without rows. -/
theorem EmptyOrAll.inserted (h : EmptyOrAll T defaults) (hne : defaults ≠ [])
    (hinserted : Inserted T T' defaults) : T' = insertAll defaults := by
  rcases h with rfl | rfl
  · exact hinserted.table
  · obtain ⟨v, hv⟩ := List.exists_mem_of_ne_nil defaults hne
    have hsome : ((insertAll defaults : Table String V key).row (key v)).isSome = true :=
      insertAll_hasAll defaults v hv
    rw [hinserted.fresh v hv] at hsome
    cases hsome

theorem EmptyOrAll.all (h : EmptyOrAll T defaults) (hne : defaults ≠ []) (hall : HasAll T defaults) :
    T = insertAll defaults := by
  refine h.resolve_left ?_
  rintro rfl
  obtain ⟨v, hv⟩ := List.exists_mem_of_ne_nil defaults hne
  cases hall v hv

end Whole

namespace Seeder

/-- A start inserts all of the defaults. -/
def Start.InsertsAll : Start → Prop
  | .insertGroups rows => rows = DEFAULT_ACHIEVEMENT_GROUPS
  | .insertAchievements rows => rows = DEFAULT_ACHIEVEMENTS
  | .insertBadges rows => rows = DEFAULT_BADGES
  | _ => True

structure Whole (c : Catalog) : Prop where
  groups : EmptyOrAll c.groups DEFAULT_ACHIEVEMENT_GROUPS
  achievements : EmptyOrAll c.achievements DEFAULT_ACHIEVEMENTS
  badges : EmptyOrAll c.badges DEFAULT_BADGES

theorem find_insertsAll {V : Type} {key : V → String} {T : Table String V key} {defaults : List V}
    {insert : List V → Start} {next : Start} (h : EmptyOrAll T defaults)
    (hinsert : (insert defaults).InsertsAll) (hnext : next.InsertsAll) :
    (insertOrSkip insert next (missing T defaults)).InsertsAll := by
  rcases h.missing with heq | heq
  · rw [heq]
    rcases insertOrSkip_cases insert next defaults with ⟨-, heq'⟩ | heq' <;> rw [heq']
    · exact hnext
    · exact hinsert
  · rw [heq]
    exact hnext

theorem advance_whole {c c' : Catalog} {others : List Admin.Thread} {th th' : Start} {o : Outcome}
    (hc : Whole c) (hth : th.InsertsAll) (h : advance c others th o = some (c', th')) :
    Whole c' ∧ th'.InsertsAll := by
  cases advance_steps h with
  | interrupted => exact ⟨hc, trivial⟩
  | findGroups => exact ⟨hc, find_insertsAll hc.groups rfl trivial⟩
  | findAchievements => exact ⟨hc, find_insertsAll hc.achievements rfl trivial⟩
  | findBadges => exact ⟨hc, find_insertsAll hc.badges rfl trivial⟩
  | rejectsGroups _ => exact ⟨hc, trivial⟩
  | rejectsAchievements _ => exact ⟨hc, trivial⟩
  | rejectsBadges _ => exact ⟨hc, trivial⟩
  | groups hinserted hnext =>
    cases hth
    refine ⟨⟨Or.inr (hc.groups.inserted (by decide) hinserted), hc.achievements, hc.badges⟩, ?_⟩
    rcases hnext with rfl | rfl <;> trivial
  | achievements hinserted hnext =>
    cases hth
    have hall := hc.achievements.inserted (by simp [DEFAULT_ACHIEVEMENTS]) hinserted
    refine ⟨⟨hc.groups, Or.inr hall, hc.badges⟩, ?_⟩
    rcases hnext with rfl | rfl <;> trivial
  | badges hinserted hnext =>
    cases hth
    refine ⟨⟨hc.groups, hc.achievements, Or.inr (hc.badges.inserted (by decide) hinserted)⟩, ?_⟩
    rcases hnext with rfl | rfl <;> trivial

theorem step_whole {s s' : State} {l : Label} (hs : Whole s.catalog)
    (hstarts : ∀ e, (s.starts e).InsertsAll) (hl : l.ofStart = true) (h : step s l = some s') :
    Whole s'.catalog ∧ ∀ e, (s'.starts e).InsertsAll := by
  have hupdate : ∀ e (th : Start), th.InsertsAll → ∀ e', (Function.update s.starts e th e').InsertsAll := by
    intro e th hth e'
    rw [Function.update_apply]
    split
    · exact hth
    · exact hstarts e'
  cases l with
  | admin l => cases hl
  | editGroups groups => cases hl
  | start =>
    cases h
    exact ⟨hs, hupdate _ _ trivial⟩
  | run e o =>
    obtain ⟨⟨c', th'⟩, hadv, rfl⟩ := Option.map_eq_some_iff.mp h
    obtain ⟨hc', hth'⟩ := advance_whole hs (hstarts e) hadv
    exact ⟨hc', hupdate e th' hth'⟩
  | crash e =>
    rw [step] at h
    split at h
    · cases h
      exact ⟨hs, hupdate e _ trivial⟩
    · cases h

/-- Replicas that start together on empty tables, however often, leave each of them empty or with just
the defaults in it; and the seeded configuration once a start has ended well. -/
theorem races_seed_once {tr : List (Move State Label)} {s : State} (h : Reaches emptyCatalog tr s)
    (halone : Guarded (fun _ l => l.ofStart = true) tr) : Whole s.catalog ∧
      ∀ x ∈ tr, ∀ e, x.target.starts e = .started → s.catalog = seeded := by
  have hinit : Whole (initial emptyCatalog).catalog ∧
      ∀ e, ((initial emptyCatalog).starts e).InsertsAll :=
    ⟨⟨Or.inl rfl, Or.inl rfl, Or.inl rfl⟩, fun _ => trivial⟩
  have hwhole := (Run.guarded_invariant (G := fun _ l => l.ofStart = true)
    (fun s => Whole s.catalog ∧ ∀ e, (s.starts e).InsertsAll)
    (fun _ _ _ hl hs hstep => step_whole hs.1 hs.2 hl hstep) h halone hinit).1.1
  refine ⟨hwhole, fun x hx e hstarted => ?_⟩
  have hdefaults := started_stays emptyCatalog_closed emptyCatalog_grouped h x hx e hstarted
  have hgroups := hwhole.groups.all (by decide) hdefaults.groups
  have hachievements := hwhole.achievements.all (by simp [DEFAULT_ACHIEVEMENTS]) hdefaults.achievements
  have hbadges := hwhole.badges.all (by decide) hdefaults.badges
  generalize s.catalog = c at hgroups hachievements hbadges
  cases c
  cases hgroups
  cases hachievements
  cases hbadges
  rfl

theorem races_seed_once_two : ∃ tr s, Reaches emptyCatalog tr s ∧ s.catalog = seeded := by
  obtain ⟨tr, s, h, hguarded, hstarted⟩ := exists_guarded_run_of_trace step (initial emptyCatalog)
    (racingStarts ++ wins) (P := fun l => l.ofStart = true) (by decide)
    (fun s => (s.starts 1).isStarted) (by decide +kernel)
  have hlast := h.source_mem.1
  rcases List.mem_cons.mp hlast with rfl | htarget
  · cases hstarted
  · obtain ⟨x, hx, rfl⟩ := List.mem_map.mp htarget
    exact ⟨tr, _, h, (races_seed_once h hguarded).2 x hx 1 (isStarted_iff.mp hstarted)⟩

end Seeder

end Bumpa.Loyalty
