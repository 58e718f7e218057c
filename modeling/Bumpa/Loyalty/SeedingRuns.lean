import Bumpa.Loyalty.Seeding

/-! # Runs with starts and calls

`seeding_keeps`: at any time no reference dangles and every achievement's group is stored; a start
changes no row that is there, fails for no other reason than a taken id or name or an interruption,
and has left all defaults in the tables, for good, once it has ended well.
-/
namespace Bumpa.Loyalty
open Bumpa.Relational Bumpa.Transition
set_option autoImplicit false

theorem foldl_put_isSome {V : Type} {key : V → String} {T : Table String V key} {k : String}
    (written : List V) (h : (T.row k).isSome = true) :
    ((written.foldl Table.put T).row k).isSome = true := by
  induction written generalizing T with
  | nil => exact h
  | cons v rest ih =>
    refine ih ?_
    rw [Table.put_row]
    split
    · rfl
    · exact h

/-- A COMMIT removes no row. -/
theorem Admin.Commits.later {c c' : Catalog} {th : Admin.Thread} (h : Admin.Commits c c' th) :
    c.Later c' := by
  cases h with
  | nothing same => exact same ▸ (Catalog.Kept.refl c').later
  | achievements _ tables =>
    subst tables
    exact ⟨fun _ => id, fun _ => foldl_put_isSome _, fun _ => id⟩
  | badges _ tables =>
    subst tables
    exact ⟨fun _ => id, fun _ => id, fun _ => foldl_put_isSome _⟩

theorem admin_later {s s' : Admin.State} {l : Admin.Label} (hs : Admin.Invariant s)
    (h : Admin.step s l = some s') : s.catalog.Later s'.catalog := by
  cases l with
  | submit call =>
    cases h
    exact (Catalog.Kept.refl _).later
  | run e o =>
    obtain ⟨⟨c', th'⟩, hadv, rfl⟩ := Option.map_eq_some_iff.mp h
    exact (Admin.advance_satisfies hs.closed (hs.sound e) (fun _ _ => check_satisfies) hadv).1.later
  | crash e =>
    rw [Admin.step] at h
    split at h
    · cases h
      exact (Catalog.Kept.refl _).later
    · cases h

namespace Seeder

structure Invariant (s : State) : Prop where
  admin : Admin.Invariant s.admin
  groups : Admin.Groups s.admin
  starts : ∀ e, (s.starts e).Sound s.catalog

/-- What is added refers to what is there. -/
theorem Adds.closed {c c' : Catalog} (h : Adds c c') (hc : Admin.Closed c) : Admin.Closed c' := by
  have hgrows := h.kept.later.achievements
  refine ⟨fun k achievement hrow => ?_, fun k badge hrow => ?_⟩
  · rcases h.achievements k achievement hrow with hold | ⟨hmem, -, hall⟩
    · exact hgrows.stores _ (hc.rules k achievement hold)
    · intro id hid
      obtain ⟨other, hother, rfl⟩ := default_rule hmem id hid
      exact hall other hother
  · rcases h.badges k badge hrow with hold | ⟨hmem, hall⟩
    · exact hgrows.stores _ (hc.badges k badge hold)
    · intro id hid
      obtain ⟨other, hother, rfl⟩ := default_requirement hmem id hid
      exact hall other hother

theorem Adds.grouped {c c' : Catalog} (h : Adds c c') (hc : c.Grouped) : c'.Grouped := by
  intro k achievement hrow
  rcases h.achievements k achievement hrow with hold | ⟨hmem, hall, -⟩
  · exact h.kept.later.groups _ (hc k achievement hold)
  · obtain ⟨group, hgroup, hkey⟩ := default_group hmem
    rw [AchievementConfig.Grouped, ← hkey]
    exact hall group hgroup

/-- The executions of calls go on in a catalog that has grown. -/
theorem Invariant.grown {s : State} {c' : Catalog} {starts : ℕ → Start} {nextStart : ℕ}
    (hs : Invariant s) (hclosed : Admin.Closed c') (hgrouped : c'.Grouped)
    (hlater : s.catalog.Later c') (hstarts : ∀ e, (starts e).Sound c') :
    Invariant ⟨{ s.admin with catalog := c' }, starts, nextStart⟩ where
  admin := ⟨hclosed, fun e => (hs.admin.sound e).mono
    (fun _ => hlater.achievements.stores _) hlater.achievements.stores, hs.admin.beyond⟩
  groups := ⟨hgrouped, fun e achievement hmem =>
    hlater.groups _ (hs.groups.written e achievement hmem)⟩
  starts := hstarts

theorem step_later {s s' : State} {l : Label} (hs : Invariant s) (h : step s l = some s') :
    s.catalog.Later s'.catalog := by
  cases l with
  | admin l =>
    obtain ⟨admin, hadmin, rfl⟩ := Option.map_eq_some_iff.mp h
    exact admin_later hs.admin hadmin
  | editGroups groups =>
    rw [step] at h
    split at h
    · next hkept =>
      cases h
      refine ⟨fun k hk => ?_, fun _ => id, fun _ => id⟩
      obtain ⟨group, hgroup⟩ := Option.isSome_iff_exists.mp hk
      have hkey := s.catalog.groups.key_eq hgroup
      rw [← hkey] at hgroup ⊢
      exact List.all_eq_true.mp hkept group (Table.mem_rows.mpr hgroup)
    · cases h
  | start =>
    cases h
    exact (Catalog.Kept.refl _).later
  | run e o =>
    obtain ⟨⟨c', th'⟩, hadv, rfl⟩ := Option.map_eq_some_iff.mp h
    exact (advance_adds (hs.starts e) hadv).2.kept.later
  | crash e =>
    rw [step] at h
    split at h
    · cases h
      exact (Catalog.Kept.refl _).later
    · cases h

theorem step_invariant {s s' : State} {l : Label} (hs : Invariant s) (h : step s l = some s') :
    Invariant s' := by
  have hlater := step_later hs h
  have hupdate : ∀ {c' : Catalog} e th, s.catalog.Later c' → th.Sound c' →
      ∀ e', (Function.update s.starts e th e').Sound c' := by
    intro c' e th hlater hth e'
    rw [Function.update_apply]
    split
    · exact hth
    · exact (hs.starts e').mono hlater
  cases l with
  | admin l =>
    obtain ⟨admin, hadmin, rfl⟩ := Option.map_eq_some_iff.mp h
    exact ⟨Admin.step_invariant hs.admin hadmin, (Admin.step_groups hs.groups hadmin).2,
      fun e => (hs.starts e).mono hlater⟩
  | editGroups groups =>
    rw [step] at h
    split at h
    · cases h
      exact hs.grown ⟨hs.admin.closed.rules, hs.admin.closed.badges⟩
        (fun k achievement hrow => hlater.groups _ (hs.groups.rows k achievement hrow)) hlater
        fun e => (hs.starts e).mono hlater
    · cases h
  | start =>
    cases h
    exact ⟨hs.admin, hs.groups, hupdate _ _ hlater trivial⟩
  | run e o =>
    obtain ⟨⟨c', th'⟩, hadv, rfl⟩ := Option.map_eq_some_iff.mp h
    obtain ⟨hth', hadds⟩ := advance_adds (hs.starts e) hadv
    exact hs.grown (hadds.closed hs.admin.closed) (hadds.grouped hs.groups.rows) hlater
      (hupdate e th' hlater hth')
  | crash e =>
    rw [step] at h
    split at h
    · cases h
      exact ⟨hs.admin, hs.groups, hupdate e _ hlater trivial⟩
    · cases h

theorem initial_seeds {c : Catalog} (hc : Admin.Closed c) (hgrouped : c.Grouped) :
    Invariant (initial c) where
  admin := Admin.initial_invariant hc
  groups := ⟨hgrouped, fun _ => List.forall_mem_nil _⟩
  starts := fun _ => trivial

/-- A step of a start, also its end. -/
def Label.ofStart : Label → Bool
  | .admin _ => false
  | .editGroups _ => false
  | _ => true

theorem start_kept {s s' : State} {l : Label} (hs : Invariant s) (h : step s l = some s')
    (hl : l.ofStart = true) : s.catalog.Kept s'.catalog := by
  cases l with
  | admin l => cases hl
  | editGroups groups => cases hl
  | start =>
    cases h
    exact Catalog.Kept.refl _
  | run e o =>
    obtain ⟨⟨c', th'⟩, hadv, rfl⟩ := Option.map_eq_some_iff.mp h
    exact (advance_adds (hs.starts e) hadv).2.kept
  | crash e =>
    rw [step] at h
    split at h
    · cases h
      exact Catalog.Kept.refl _
    · cases h

theorem reaches_seeds {c : Catalog} {tr : List (Move State Label)} {s : State}
    (hc : Admin.Closed c) (hgrouped : c.Grouped) (h : Reaches c tr s) :
    Invariant s ∧ ∀ x ∈ tr, Invariant x.source ∧ Invariant x.target :=
  Run.invariant_all Invariant (fun _ _ _ => step_invariant) h (initial_seeds hc hgrouped)

/-- Once a start has ended well, the defaults stay. -/
theorem started_stays {c : Catalog} {tr : List (Move State Label)} {s : State}
    (hc : Admin.Closed c) (hgrouped : c.Grouped) (h : Reaches c tr s) :
    ∀ x ∈ tr, ∀ e, x.target.starts e = .started → s.catalog.HasDefaults := by
  refine Run.history (fun tr s => ∀ x ∈ tr, ∀ e, x.target.starts e = .started →
    s.catalog.HasDefaults) (List.forall_mem_nil _) ?_ h
  intro tr s l s' hreach hs hstep x hx e hstarted
  have hinv := (reaches_seeds hc hgrouped hreach).1
  rcases List.mem_append.mp hx with hold | hnew
  · have hlater := step_later hinv hstep
    have hdefaults := hs x hold e hstarted
    exact ⟨hdefaults.groups.mono hlater.groups, hdefaults.achievements.mono hlater.achievements,
      hdefaults.badges.mono hlater.badges⟩
  · obtain rfl := List.mem_singleton.mp hnew
    have hsound := (step_invariant hinv hstep).starts e
    rwa [hstarted] at hsound

/-- Whatever replicas start and whatever calls are made: no reference dangles and every achievement
has its group; a start changes no row that is there, fails for a taken id or name or an interruption
only, and leaves all defaults, for good, when it ends well. -/
theorem seeding_keeps {c : Catalog} {tr : List (Move State Label)} {s : State}
    (hc : Admin.Closed c) (hgrouped : c.Grouped) (h : Reaches c tr s) :
    s.catalog.NoDangling ∧ s.catalog.Grouped ∧
      (∀ x ∈ tr, x.label.ofStart = true → x.source.catalog.Kept x.target.catalog) ∧
      (∀ e error, s.starts e = .failed error → Fails error) ∧
      ∀ x ∈ tr, ∀ e, x.target.starts e = .started → s.catalog.HasDefaults := by
  obtain ⟨hs, hall⟩ := reaches_seeds hc hgrouped h
  refine ⟨hs.admin.closed.noDangling, hs.groups.rows, fun x hx hl => ?_, fun e error hth => ?_,
    started_stays hc hgrouped h⟩
  · exact start_kept (hall x hx).1 (Run.step_of_mem h x hx) hl
  · have hsound := hs.starts e
    rwa [hth] at hsound

end Seeder

/-! ## Schedules -/

def emptyCatalog : Catalog := ⟨Table.empty, Table.empty, Table.empty⟩

theorem emptyCatalog_closed : Admin.Closed emptyCatalog :=
  ⟨(fun _ _ hrow => by cases hrow), (fun _ _ hrow => by cases hrow)⟩

theorem emptyCatalog_grouped : emptyCatalog.Grouped := fun _ _ hrow => by cases hrow

namespace Seeder

/-- Two replicas race for the groups. -/
def racingStarts : List Label :=
  [.start, .start, .run 0 .ok, .run 1 .ok, .run 1 .ok, .run 0 .ok]

/-- The other one goes on to the end. -/
def wins : List Label := List.replicate 4 (.run 1 .ok)

def Start.isStarted : Start → Bool
  | .started => true
  | _ => false

theorem isStarted_iff {th : Start} : th.isStarted = true ↔ th = .started := by
  cases th <;> simp [Start.isStarted]

/-- A call for an achievement, at the replica that has started. -/
def callsNext : List Label :=
  .admin (.submit (.createAchievement ⟨"ach_champion", "Champion", "milestones", 1,
      .achievementSet ["ach_power_customer", "ach_big_spender"] none, .absent⟩)) ::
    List.replicate 6 (.admin (.run 0 .ok))

theorem seeding_keeps_two : ∃ tr s, Reaches emptyCatalog tr s ∧
    (s.catalog.achievements.row "ach_champion").isSome = true ∧ s.catalog.NoDangling ∧
      s.catalog.Grouped ∧ s.catalog.HasDefaults := by
  obtain ⟨tr, s, h, hlast⟩ := exists_run_of_trace step (initial emptyCatalog)
    (racingStarts ++ wins ++ callsNext) (fun r =>
      (r.2.catalog.achievements.row "ach_champion").isSome &&
        r.1.any fun x => (x.target.starts 1).isStarted) (by decide +kernel)
  rw [Bool.and_eq_true, List.any_eq_true] at hlast
  obtain ⟨hchampion, x, hx, hstarted⟩ := hlast
  obtain ⟨hdangling, hgrouped, -, -, hstays⟩ :=
    seeding_keeps emptyCatalog_closed emptyCatalog_grouped h
  exact ⟨tr, s, h, hchampion, hdangling, hgrouped, hstays x hx 1 (isStarted_iff.mp hstarted)⟩

end Seeder

end Bumpa.Loyalty
