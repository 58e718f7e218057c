import Bumpa.Loyalty.GroupReferences

/-! # Starts of the service (`LoyaltyConfigSeederService`)

`onModuleInit` goes through groups, achievements and badges: it selects the ids of the table, and
inserts the defaults that are not among them with one INSERT, which inserts all of its rows or none.
Any number of replicas start, at any time, next to the calls of `AdminConfigService` at replicas that
have started before. A start that fails ends its process.

A call that writes groups is one step here, which may change any group and removes none. The numbers
of the defaults fit their columns.

`seeding_keeps`: at any time no reference dangles and every achievement's group is stored; a start
changes no row that is there, and one that has ended well leaves all defaults in the tables.
-/
namespace Bumpa.Loyalty
open Bumpa.Relational Bumpa.Transition
set_option autoImplicit false

/-! ## Statements -/

section Statements
variable {V : Type} {key : V → String}

/-- The defaults whose id the SELECT does not find. -/
def missing (T : Table String V key) (defaults : List V) : List V :=
  defaults.filter fun v => (T.row (key v)).isNone

/-- The INSERT; `save` checks what else holds of the table. -/
def insertRows (save : Table String V key → V → Except RequestError (Table String V key))
    (T : Table String V key) : List V → Except RequestError (Table String V key)
  | [] => .ok T
  | v :: rows =>
    if (T.row (key v)).isSome then .error (.queryFailed POSTGRES_UNIQUE_VIOLATION)
    else (save T v).bind fun T' => insertRows save T' rows

/-- A row that is not rejected is written. -/
def Saves (save : Table String V key → V → Except RequestError (Table String V key)) : Prop :=
  ∀ T v T', save T v = .ok T' → T' = T.put v

variable {save : Table String V key → V → Except RequestError (Table String V key)}
  {T T' : Table String V key} {rows defaults : List V}

/-- What an INSERT that is not rejected leaves. -/
structure Inserted (T T' : Table String V key) (rows : List V) : Prop where
  table : T' = rows.foldl Table.put T
  fresh : ∀ v ∈ rows, T.row (key v) = none
  kept : ∀ k v, T.row k = some v → T'.row k = some v
  written : ∀ v ∈ rows, T'.row (key v) = some v

theorem insertRows_ok (hsave : Saves save) (h : insertRows save T rows = .ok T') :
    Inserted T T' rows := by
  induction rows generalizing T with
  | nil =>
    cases h
    exact ⟨rfl, List.forall_mem_nil _, fun _ _ => id, List.forall_mem_nil _⟩
  | cons v rows ih =>
    rw [insertRows] at h
    split at h
    · cases h
    · next hnew =>
      cases hput : save T v with
      | error error =>
        rw [hput] at h
        cases h
      | ok T₁ =>
        rw [hput] at h
        have hrest := ih h
        obtain rfl := hsave T v T₁ hput
        have hnone : T.row (key v) = none := by simpa using hnew
        have hkept : ∀ k w, T.row k = some w → (T.put v).row k = some w := by
          intro k w hrow
          rw [Table.put_row_of_ne T v (by rintro rfl; rw [hnone] at hrow; cases hrow), hrow]
        refine ⟨hrest.table, List.forall_mem_cons.mpr ⟨hnone, fun w hw => ?_⟩,
          fun k w hrow => hrest.kept k w (hkept k w hrow),
          List.forall_mem_cons.mpr ⟨hrest.kept _ v ?_, hrest.written⟩⟩
        · cases hrow : T.row (key w) with
          | none => rfl
          | some w' => exact absurd (hrest.fresh w hw) (by rw [hkept _ w' hrow]; simp)
        · rw [Table.put_row, if_pos rfl]

/-- An INSERT is rejected for an id that is taken, or for what `save` finds. -/
theorem insertRows_error {error : RequestError} (h : insertRows save T rows = .error error) :
    error = .queryFailed POSTGRES_UNIQUE_VIOLATION ∨ ∃ T₁, ∃ v ∈ rows, save T₁ v = .error error := by
  induction rows generalizing T with
  | nil => cases h
  | cons v rows ih =>
    rw [insertRows] at h
    split at h
    · cases h
      exact Or.inl rfl
    · cases hput : save T v with
      | error error' =>
        rw [hput] at h
        cases h
        exact Or.inr ⟨T, v, .head _, hput⟩
      | ok T₁ =>
        rw [hput] at h
        refine (ih h).imp_right ?_
        rintro ⟨T₂, w, hw, herror⟩
        exact ⟨T₂, w, List.mem_cons_of_mem _ hw, herror⟩

theorem Inserted.only (h : Inserted T T' rows) {k : String} {v : V} (hrow : T'.row k = some v) :
    v ∈ rows ∨ T.row k = some v := by
  rw [h.table] at hrow
  exact Table.foldl_put_mem hrow

/-- Every default is in the table. -/
def HasAll (T : Table String V key) (defaults : List V) : Prop :=
  ∀ v ∈ defaults, (T.row (key v)).isSome = true

/-- The rows are of the defaults, and those that are left are in the table. -/
structure Pending (T : Table String V key) (defaults rows : List V) : Prop where
  sublist : rows.Sublist defaults
  rest : ∀ v ∈ defaults, v ∈ rows ∨ (T.row (key v)).isSome = true

theorem missing_pending (T : Table String V key) (defaults : List V) :
    Pending T defaults (missing T defaults) := by
  refine ⟨List.filter_sublist, fun v hv => ?_⟩
  cases hrow : T.row (key v) with
  | none => exact Or.inl (List.mem_filter.mpr ⟨hv, by rw [hrow]; rfl⟩)
  | some w => exact Or.inr rfl

theorem Pending.mono (h : Pending T defaults rows)
    (hgrows : ∀ k, (T.row k).isSome = true → (T'.row k).isSome = true) :
    Pending T' defaults rows :=
  ⟨h.sublist, fun v hv => (h.rest v hv).imp_right (hgrows _)⟩

theorem Pending.inserted (h : Pending T defaults rows) (hinserted : Inserted T T' rows) :
    HasAll T' defaults := by
  intro v hv
  rcases h.rest v hv with hmem | hsome
  · rw [hinserted.written v hmem]
    rfl
  · obtain ⟨w, hw⟩ := Option.isSome_iff_exists.mp hsome
    rw [hinserted.kept _ w hw]
    rfl

end Statements

namespace Seeder

/-- The statement that a start is about to issue. -/
inductive Start where
  | idle
  | findGroups
  | insertGroups (rows : List AchievementGroup)
  | findAchievements
  | insertAchievements (rows : List AchievementConfig)
  | findBadges
  | insertBadges (rows : List BadgeConfig)
  | started
  | failed (error : RequestError)

def Start.isRunning : Start → Bool
  | .idle => false
  | .started => false
  | .failed _ => false
  | _ => true

/-- Nothing is inserted where nothing is missing. -/
def insertOrSkip {V : Type} (insert : List V → Start) (next : Start) : List V → Start
  | [] => next
  | v :: rows => insert (v :: rows)

/-- How a start goes on after its INSERT. -/
def afterInsert (c : Catalog) (next : Start) (outcome : Outcome) :
    Except RequestError Catalog → Catalog × Start
  | .error error => (c, .failed error)
  | .ok c' =>
    match outcome with
    | .ok => (c', next)
    | .fails true => (c', .failed .interrupted)
    | .fails false => (c, .failed .interrupted)

/-- A start runs to its next statement, next to the executions `others` of calls. The result is
`none` where it has to wait. -/
def advance (c : Catalog) (others : List Admin.Thread) : Start → Outcome → Option (Catalog × Start)
  | .findGroups, .ok =>
    some (c, insertOrSkip .insertGroups .findAchievements
      (missing c.groups DEFAULT_ACHIEVEMENT_GROUPS))
  | .insertGroups rows, outcome =>
    some (afterInsert c .findAchievements outcome
      ((insertRows (fun T v => .ok (T.put v)) c.groups rows).map fun groups =>
        { c with groups := groups }))
  | .findAchievements, .ok =>
    some (c, insertOrSkip .insertAchievements .findBadges
      (missing c.achievements DEFAULT_ACHIEVEMENTS))
  | .insertAchievements rows, outcome =>
    if rows.any (locked (achievementColumns c.groups) (others.map (·.achievements))) then none
    else
      some (afterInsert c .findBadges outcome
        ((insertRows (achievementColumns c.groups).save c.achievements rows).map fun achievements =>
          { c with achievements := achievements }))
  | .findBadges, .ok =>
    some (c, insertOrSkip .insertBadges .started (missing c.badges DEFAULT_BADGES))
  | .insertBadges rows, outcome =>
    if rows.any (locked badgeColumns (others.map (·.badges))) then none
    else
      some (afterInsert c .started outcome
        ((insertRows badgeColumns.save c.badges rows).map fun badges =>
          { c with badges := badges }))
  | .findGroups, .fails _ => some (c, .failed .interrupted)
  | .findAchievements, .fails _ => some (c, .failed .interrupted)
  | .findBadges, .fails _ => some (c, .failed .interrupted)
  | .idle, _ => none
  | .started, _ => none
  | .failed _, _ => none

/-! ## The system -/

structure State where
  admin : Admin.State
  starts : ℕ → Start
  nextStart : ℕ

def State.catalog (s : State) : Catalog := s.admin.catalog

/-- `editGroups`: a call has committed what it makes of the groups. -/
inductive Label where
  | admin (l : Admin.Label)
  | editGroups (groups : GroupTable)
  | start
  | run (e : ℕ) (outcome : Outcome)
  | crash (e : ℕ)

def State.others (s : State) : List Admin.Thread :=
  (List.range s.admin.nextThread).map s.admin.threads

def step (s : State) : Label → Option State
  | .admin l => (Admin.step s.admin l).map fun admin => { s with admin := admin }
  | .editGroups groups =>
    if s.catalog.groups.rows.all fun group => (groups.row group.key).isSome then
      some { s with admin := { s.admin with catalog := { s.catalog with groups := groups } } }
    else none
  | .start =>
    some
      { s with
        starts := Function.update s.starts s.nextStart .findGroups
        nextStart := s.nextStart + 1 }
  | .run e outcome =>
    (advance s.catalog s.others (s.starts e) outcome).map fun r =>
      { s with
        admin := { s.admin with catalog := r.1 }
        starts := Function.update s.starts e r.2 }
  | .crash e =>
    if (s.starts e).isRunning then
      some { s with starts := Function.update s.starts e (.failed .interrupted) }
    else none

def initial (c : Catalog) : State := ⟨Admin.initial c, fun _ => .idle, 0⟩

abbrev Reaches (c : Catalog) (tr : List (Move State Label)) (s : State) : Prop :=
  Run step (initial c) tr s

end Seeder

/-! ## What an INSERT adds -/

theorem saveBadgeConfig_saves : Saves badgeColumns.save :=
  fun _ _ _ => badgeColumns.save_put

theorem saveAchievementConfig_saves (groups : GroupTable) :
    Saves (achievementColumns groups).save := fun _ _ _ => (achievementColumns groups).save_put

theorem putGroup_saves : Saves fun (T : GroupTable) v => .ok (T.put v) :=
  fun _ _ _ h => (Except.ok.inj h).symm

theorem default_group {achievement : AchievementConfig} (h : achievement ∈ DEFAULT_ACHIEVEMENTS) :
    ∃ group ∈ DEFAULT_ACHIEVEMENT_GROUPS, group.key = achievement.groupKey := by
  have hall : ∀ achievement ∈ DEFAULT_ACHIEVEMENTS,
      ∃ group ∈ DEFAULT_ACHIEVEMENT_GROUPS, group.key = achievement.groupKey := by decide
  exact hall achievement h

theorem default_rule {achievement : AchievementConfig} (h : achievement ∈ DEFAULT_ACHIEVEMENTS) :
    ∀ id ∈ collectAchievementSetIds achievement.rule, ∃ other ∈ DEFAULT_ACHIEVEMENTS,
      other.id = id := by
  have hall : ∀ achievement ∈ DEFAULT_ACHIEVEMENTS,
      ∀ id ∈ collectAchievementSetIds achievement.rule, ∃ other ∈ DEFAULT_ACHIEVEMENTS,
        other.id = id := by decide
  exact hall achievement h

theorem default_requirement {badge : BadgeConfig} (h : badge ∈ DEFAULT_BADGES) :
    ∀ id ∈ badge.requiredAchievementIds, ∃ other ∈ DEFAULT_ACHIEVEMENTS, other.id = id := by
  have hall : ∀ badge ∈ DEFAULT_BADGES, ∀ id ∈ badge.requiredAchievementIds,
      ∃ other ∈ DEFAULT_ACHIEVEMENTS, other.id = id := by decide
  exact hall badge h

/-- No row of the catalog is lost. -/
structure Catalog.Later (c c' : Catalog) : Prop where
  groups : ∀ k, (c.groups.row k).isSome = true → (c'.groups.row k).isSome = true
  achievements : Admin.Grows c c'
  badges : ∀ k, (c.badges.row k).isSome = true → (c'.badges.row k).isSome = true

/-- No row is lost or changed. -/
structure Catalog.Kept (c c' : Catalog) : Prop where
  groups : ∀ k group, c.groups.row k = some group → c'.groups.row k = some group
  achievements : ∀ k achievement, c.achievements.row k = some achievement →
    c'.achievements.row k = some achievement
  badges : ∀ k badge, c.badges.row k = some badge → c'.badges.row k = some badge

/-- The defaults of the table and of the tables before it are there. -/
structure Catalog.HasDefaults (c : Catalog) : Prop where
  groups : HasAll c.groups DEFAULT_ACHIEVEMENT_GROUPS
  achievements : HasAll c.achievements DEFAULT_ACHIEVEMENTS
  badges : HasAll c.badges DEFAULT_BADGES

theorem Catalog.Kept.refl (c : Catalog) : c.Kept c := ⟨fun _ _ => id, fun _ _ => id, fun _ _ => id⟩

theorem Catalog.Kept.later {c c' : Catalog} (h : c.Kept c') : c.Later c' := by
  refine ⟨fun k hk => ?_, fun k hk => ?_, fun k hk => ?_⟩
  · obtain ⟨v, hv⟩ := Option.isSome_iff_exists.mp hk
    rw [h.groups k v hv]
    rfl
  · obtain ⟨v, hv⟩ := Option.isSome_iff_exists.mp hk
    rw [h.achievements k v hv]
    rfl
  · obtain ⟨v, hv⟩ := Option.isSome_iff_exists.mp hk
    rw [h.badges k v hv]
    rfl

theorem HasAll.mono {V : Type} {key : V → String} {T T' : Table String V key} {defaults : List V}
    (h : HasAll T defaults)
    (hgrows : ∀ k, (T.row k).isSome = true → (T'.row k).isSome = true) : HasAll T' defaults :=
  fun v hv => hgrows _ (h v hv)

namespace Seeder

/-- How the INSERT of a start fails: an id or a name is taken, or it is interrupted. -/
def Fails : RequestError → Prop
  | .interrupted => True
  | .queryFailed code => code = POSTGRES_UNIQUE_VIOLATION
  | .rejected (.uniqueViolation _) => True
  | _ => False

/-- What a start has found, and what it has left behind. -/
def Start.Sound (c : Catalog) : Start → Prop
  | .idle => True
  | .findGroups => True
  | .insertGroups rows => Pending c.groups DEFAULT_ACHIEVEMENT_GROUPS rows
  | .findAchievements => HasAll c.groups DEFAULT_ACHIEVEMENT_GROUPS
  | .insertAchievements rows => HasAll c.groups DEFAULT_ACHIEVEMENT_GROUPS ∧
    Pending c.achievements DEFAULT_ACHIEVEMENTS rows
  | .findBadges => HasAll c.groups DEFAULT_ACHIEVEMENT_GROUPS ∧
    HasAll c.achievements DEFAULT_ACHIEVEMENTS
  | .insertBadges rows => HasAll c.groups DEFAULT_ACHIEVEMENT_GROUPS ∧
    HasAll c.achievements DEFAULT_ACHIEVEMENTS ∧ Pending c.badges DEFAULT_BADGES rows
  | .started => c.HasDefaults
  | .failed error => Fails error

theorem Start.Sound.mono {c c' : Catalog} {th : Start} (h : th.Sound c) (hlater : c.Later c') :
    th.Sound c' := by
  cases th with
  | idle => trivial
  | findGroups => trivial
  | insertGroups rows => exact Pending.mono h hlater.groups
  | findAchievements => exact HasAll.mono h hlater.groups
  | insertAchievements rows =>
    exact ⟨HasAll.mono h.1 hlater.groups, Pending.mono h.2 hlater.achievements⟩
  | findBadges => exact ⟨HasAll.mono h.1 hlater.groups, HasAll.mono h.2 hlater.achievements⟩
  | insertBadges rows =>
    exact ⟨HasAll.mono h.1 hlater.groups, HasAll.mono h.2.1 hlater.achievements,
      Pending.mono h.2.2 hlater.badges⟩
  | started =>
    exact ⟨HasAll.mono h.groups hlater.groups, HasAll.mono h.achievements hlater.achievements,
      HasAll.mono h.badges hlater.badges⟩
  | failed error => exact h

/-- A row that a start adds is a default, and everything that it refers to is there. -/
structure Adds (c c' : Catalog) : Prop where
  kept : c.Kept c'
  achievements : ∀ k achievement, c'.achievements.row k = some achievement →
    c.achievements.row k = some achievement ∨ achievement ∈ DEFAULT_ACHIEVEMENTS ∧
      HasAll c'.groups DEFAULT_ACHIEVEMENT_GROUPS ∧ HasAll c'.achievements DEFAULT_ACHIEVEMENTS
  badges : ∀ k badge, c'.badges.row k = some badge →
    c.badges.row k = some badge ∨ badge ∈ DEFAULT_BADGES ∧
      HasAll c'.achievements DEFAULT_ACHIEVEMENTS

theorem Adds.refl (c : Catalog) : Adds c c :=
  ⟨Catalog.Kept.refl c, fun _ _ => Or.inl, fun _ _ => Or.inl⟩

theorem insertOrSkip_cases {V : Type} (insert : List V → Start) (next : Start) (rows : List V) :
    rows = [] ∧ insertOrSkip insert next rows = next ∨ insertOrSkip insert next rows = insert rows := by
  cases rows with
  | nil => exact Or.inl ⟨rfl, rfl⟩
  | cons v rows => exact Or.inr rfl

theorem missing_nil {V : Type} {key : V → String} {T : Table String V key} {defaults : List V}
    (h : missing T defaults = []) : HasAll T defaults := by
  intro v hv
  refine ((missing_pending T defaults).rest v hv).resolve_left fun hmem => ?_
  rw [h] at hmem
  cases hmem

/-- An INSERT leaves the catalog as it is, or it has inserted its rows. -/
theorem afterInsert_cases {V : Type} {key : V → String} {c c' : Catalog} {next th' : Start}
    {o : Outcome} {T : Table String V key} {rows : List V} {make : Table String V key → Catalog}
    {save : Table String V key → V → Except RequestError (Table String V key)}
    (h : afterInsert c next o ((insertRows save T rows).map make) = (c', th')) :
    c' = c ∧ (th' = .failed .interrupted ∨
        ∃ error, th' = .failed error ∧ insertRows save T rows = .error error) ∨
      ∃ T', insertRows save T rows = .ok T' ∧ c' = make T' ∧
        (th' = next ∨ th' = .failed .interrupted) := by
  cases hrows : insertRows save T rows with
  | error error =>
    rw [hrows] at h
    cases h
    exact Or.inl ⟨rfl, Or.inr ⟨error, rfl, rfl⟩⟩
  | ok T' =>
    rw [hrows] at h
    cases o with
    | ok =>
      cases h
      exact Or.inr ⟨T', rfl, rfl, Or.inl rfl⟩
    | fails written =>
      cases written with
      | true =>
        cases h
        exact Or.inr ⟨T', rfl, rfl, Or.inr rfl⟩
      | false =>
        cases h
        exact Or.inl ⟨rfl, Or.inl rfl⟩

theorem saveAchievementConfig_fails {groups : GroupTable} {T : AchievementTable}
    {achievement : AchievementConfig} {error : RequestError} (hgroup : achievement.Grouped groups)
    (h : saveAchievementConfig groups T achievement = .error error) : Fails error := by
  unfold saveAchievementConfig at h
  split at h
  · cases h
    trivial
  · rw [AchievementConfig.Grouped] at hgroup
    rw [← Option.not_isSome, hgroup] at h
    cases h

theorem saveBadgeConfig_fails {T : BadgeTable} {badge : BadgeConfig} {error : RequestError}
    (h : badgeColumns.save T badge = .error error) : Fails error := by
  simp only [badgeColumns, badgeConstraints, saveBadgeConfig] at h
  split at h
  · cases h
    trivial
  · cases h

theorem insertRows_fails {V : Type} {key : V → String} {T : Table String V key} {rows : List V}
    {save : Table String V key → V → Except RequestError (Table String V key)} {error : RequestError}
    (h : insertRows save T rows = .error error)
    (hsave : ∀ T₁, ∀ v ∈ rows, save T₁ v = .error error → Fails error) : Fails error := by
  rcases insertRows_error h with rfl | ⟨T₁, v, hv, herror⟩
  · rfl
  · exact hsave T₁ v hv herror

/-- What a statement of a start does: it selects what is missing, or its INSERT is rejected, or the
rows are inserted and the answer to that may be lost. -/
inductive StartStep (c : Catalog) : Start → Catalog → Start → Prop
  | interrupted {th} : StartStep c th c (.failed .interrupted)
  | findGroups :
    StartStep c .findGroups c (insertOrSkip .insertGroups .findAchievements
      (missing c.groups DEFAULT_ACHIEVEMENT_GROUPS))
  | findAchievements :
    StartStep c .findAchievements c (insertOrSkip .insertAchievements .findBadges
      (missing c.achievements DEFAULT_ACHIEVEMENTS))
  | findBadges :
    StartStep c .findBadges c (insertOrSkip .insertBadges .started (missing c.badges DEFAULT_BADGES))
  | rejectsGroups {rows error}
    (rejected : insertRows (fun T v => .ok (T.put v)) c.groups rows = .error error) :
    StartStep c (.insertGroups rows) c (.failed error)
  | rejectsAchievements {rows error}
    (rejected : insertRows (achievementColumns c.groups).save c.achievements rows = .error error) :
    StartStep c (.insertAchievements rows) c (.failed error)
  | rejectsBadges {rows error}
    (rejected : insertRows badgeColumns.save c.badges rows = .error error) :
    StartStep c (.insertBadges rows) c (.failed error)
  | groups {rows groups th'} (inserted : Inserted c.groups groups rows)
    (next : th' = .findAchievements ∨ th' = .failed .interrupted) :
    StartStep c (.insertGroups rows) { c with groups := groups } th'
  | achievements {rows achievements th'} (inserted : Inserted c.achievements achievements rows)
    (next : th' = .findBadges ∨ th' = .failed .interrupted) :
    StartStep c (.insertAchievements rows) { c with achievements := achievements } th'
  | badges {rows badges th'} (inserted : Inserted c.badges badges rows)
    (next : th' = .started ∨ th' = .failed .interrupted) :
    StartStep c (.insertBadges rows) { c with badges := badges } th'

section Advance
variable {c c' : Catalog} {others : List Admin.Thread} {th th' : Start} {o : Outcome}

theorem find_sound {V : Type} {key : V → String} {T : Table String V key} {defaults : List V}
    {insert : List V → Start} {next : Start}
    (hinsert : Pending T defaults (missing T defaults) → (insert (missing T defaults)).Sound c)
    (hnext : HasAll T defaults → next.Sound c) :
    (insertOrSkip insert next (missing T defaults)).Sound c := by
  rcases insertOrSkip_cases insert next (missing T defaults) with ⟨hnone, heq⟩ | heq
  · rw [heq]
    exact hnext (missing_nil hnone)
  · rw [heq]
    exact hinsert (missing_pending T defaults)

theorem advance_steps (h : advance c others th o = some (c', th')) : StartStep c th c' th' := by
  cases th with
  | idle => cases h
  | started => cases h
  | failed error => cases h
  | findGroups =>
    cases o with
    | fails written =>
      cases h
      exact .interrupted
    | ok =>
      cases h
      exact .findGroups
  | findAchievements =>
    cases o with
    | fails written =>
      cases h
      exact .interrupted
    | ok =>
      cases h
      exact .findAchievements
  | findBadges =>
    cases o with
    | fails written =>
      cases h
      exact .interrupted
    | ok =>
      cases h
      exact .findBadges
  | insertGroups rows =>
    rcases afterInsert_cases (Option.some.inj h) with ⟨rfl, rfl | ⟨error, rfl, herror⟩⟩ |
      ⟨groups, hrows, rfl, hnext⟩
    · exact .interrupted
    · exact .rejectsGroups herror
    · exact .groups (insertRows_ok putGroup_saves hrows) hnext
  | insertAchievements rows =>
    simp only [advance] at h
    split at h
    · cases h
    · rcases afterInsert_cases (Option.some.inj h) with ⟨rfl, rfl | ⟨error, rfl, herror⟩⟩ |
        ⟨achievements, hrows, rfl, hnext⟩
      · exact .interrupted
      · exact .rejectsAchievements herror
      · exact .achievements (insertRows_ok (saveAchievementConfig_saves c.groups) hrows) hnext
  | insertBadges rows =>
    simp only [advance] at h
    split at h
    · cases h
    · rcases afterInsert_cases (Option.some.inj h) with ⟨rfl, rfl | ⟨error, rfl, herror⟩⟩ |
        ⟨badges, hrows, rfl, hnext⟩
      · exact .interrupted
      · exact .rejectsBadges herror
      · exact .badges (insertRows_ok saveBadgeConfig_saves hrows) hnext

theorem advance_adds (hth : th.Sound c) (h : advance c others th o = some (c', th')) :
    th'.Sound c' ∧ Adds c c' := by
  have hfails : Fails .interrupted := trivial
  cases advance_steps h with
  | interrupted => exact ⟨hfails, Adds.refl c⟩
  | findGroups => exact ⟨find_sound id id, Adds.refl c⟩
  | findAchievements =>
    exact ⟨find_sound (fun hpending => ⟨hth, hpending⟩) (fun hall => ⟨hth, hall⟩), Adds.refl c⟩
  | findBadges =>
    exact ⟨find_sound (fun hpending => ⟨hth.1, hth.2, hpending⟩) (fun hall => ⟨hth.1, hth.2, hall⟩),
      Adds.refl c⟩
  | rejectsGroups herror =>
    exact ⟨insertRows_fails herror fun _ _ _ hput => (by cases hput), Adds.refl c⟩
  | rejectsAchievements herror =>
    refine ⟨insertRows_fails herror fun T₁ achievement hmem hput => ?_, Adds.refl c⟩
    obtain ⟨group, hgroup, hkey⟩ := default_group (hth.2.sublist.subset hmem)
    refine saveAchievementConfig_fails ?_ hput
    rw [AchievementConfig.Grouped, ← hkey]
    exact hth.1 group hgroup
  | rejectsBadges herror =>
    exact ⟨insertRows_fails herror fun _ _ _ => saveBadgeConfig_fails, Adds.refl c⟩
  | groups hinserted hnext =>
    refine ⟨?_, ⟨hinserted.kept, fun _ _ => id, fun _ _ => id⟩, fun _ _ => Or.inl,
      fun _ _ => Or.inl⟩
    rcases hnext with rfl | rfl
    · exact Pending.inserted hth hinserted
    · exact hfails
  | achievements hinserted hnext =>
    have hall := hth.2.inserted hinserted
    refine ⟨?_, ⟨fun _ _ => id, hinserted.kept, fun _ _ => id⟩, fun k achievement hrow => ?_,
      fun _ _ => Or.inl⟩
    · rcases hnext with rfl | rfl
      · exact ⟨hth.1, hall⟩
      · exact hfails
    · rcases hinserted.only hrow with hnew | hold
      · exact Or.inr ⟨hth.2.sublist.subset hnew, hth.1, hall⟩
      · exact Or.inl hold
  | badges hinserted hnext =>
    refine ⟨?_, ⟨fun _ _ => id, fun _ _ => id, hinserted.kept⟩, fun _ _ => Or.inl,
      fun k badge hrow => ?_⟩
    · rcases hnext with rfl | rfl
      · exact ⟨hth.1, hth.2.1, hth.2.2.inserted hinserted⟩
      · exact hfails
    · rcases hinserted.only hrow with hnew | hold
      · exact Or.inr ⟨hth.2.2.sublist.subset hnew, hth.2.1⟩
      · exact Or.inl hold

end Advance

end Seeder

end Bumpa.Loyalty
