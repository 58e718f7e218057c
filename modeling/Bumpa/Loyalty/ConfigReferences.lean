import Bumpa.Loyalty.AdminWrites
import Bumpa.Loyalty.DefaultConfig

/-! # References to achievements

Rules and badges refer to achievements by id. The ids are checked before the transaction that
writes them, against another state of the table than the one it commits to; this is sound since the
stored ids only grow (`Grows`). What an execution may write refers to stored ids all along
(`EditSound`): its body was checked, and everything else it has read from the tables.
-/
namespace Bumpa.Loyalty
open Bumpa.Relational Bumpa.Transition
set_option autoImplicit false

/-- An id that occurs in an `ACHIEVEMENT_SET`, at any depth of the rule. -/
inductive Mentions (id : String) : AchievementRule → Prop
  | listed {achievementIds : List String} {minRequired : Option Rat} (mem : id ∈ achievementIds) :
      Mentions id (.achievementSet achievementIds minRequired)
  | nested {rule : AchievementRule} {rules : List AchievementRule} (mem : rule ∈ rules)
      (mentions : Mentions id rule) : Mentions id (.combination rules)

mutual

theorem mem_collectAchievementSetIds {id : String} : ∀ {rule : AchievementRule},
    id ∈ collectAchievementSetIds rule ↔ Mentions id rule
  | .count _ _ => ⟨fun h => absurd h List.not_mem_nil, fun h => by cases h⟩
  | .sum _ _ => ⟨fun h => absurd h List.not_mem_nil, fun h => by cases h⟩
  | .throwing _ => ⟨fun h => absurd h List.not_mem_nil, fun h => by cases h⟩
  | .achievementSet _ _ => ⟨.listed, fun h => by cases h with | listed mem => exact mem⟩
  | .combination rules => by
    rw [collectAchievementSetIds, mem_collectAllSetIds]
    constructor
    · rintro ⟨rule, hmem, hmentions⟩
      exact .nested hmem hmentions
    · intro h
      cases h with
      | nested mem mentions => exact ⟨_, mem, mentions⟩

theorem mem_collectAllSetIds {id : String} : ∀ {rules : List AchievementRule},
    id ∈ collectAllSetIds rules ↔ ∃ rule ∈ rules, Mentions id rule
  | [] => ⟨fun h => absurd h List.not_mem_nil, fun ⟨_, h, _⟩ => absurd h List.not_mem_nil⟩
  | rule :: rules => by
    rw [collectAllSetIds, List.mem_append, mem_collectAchievementSetIds, mem_collectAllSetIds]
    simp only [List.mem_cons, exists_eq_or_imp]

end

/-- Every id that a stored rule mentions or a stored badge requires is stored. -/
structure Catalog.NoDangling (c : Catalog) : Prop where
  rules : ∀ achievement, c.achievements.row achievement.id = some achievement →
    ∀ id, Mentions id achievement.rule → (c.achievements.row id).isSome
  badges : ∀ badge, c.badges.row badge.id = some badge →
    ∀ id ∈ badge.requiredAchievementIds, (c.achievements.row id).isSome

/-- The check lets a call pass only if every id in its body is stored. -/
theorem check_ok {achievements : AchievementTable} {call : ConfigCall}
    (h : call.check achievements = .ok ()) :
    ∀ id ∈ call.references, (achievements.row id).isSome = true := by
  cases call with
  | createAchievement dto => exact assertAchievementsExist_ok_iff.mp h
  | createBadge dto => exact assertAchievementsExist_ok_iff.mp h
  | updateAchievement id dto =>
    rw [ConfigCall.check, UpdateAchievementConfigDto.check] at h
    rw [ConfigCall.references]
    cases hrule : dto.rule with
    | value rule =>
      rw [hrule] at h
      exact assertAchievementsExist_ok_iff.mp h
    | _ => exact List.forall_mem_nil _
  | updateBadge id dto =>
    rw [ConfigCall.check, UpdateBadgeConfigDto.check] at h
    rw [ConfigCall.references]
    cases hids : dto.requiredAchievementIds with
    | value ids =>
      rw [hids] at h
      exact assertAchievementsExist_ok_iff.mp h
    | _ => exact List.forall_mem_nil _

theorem check_error {achievements : AchievementTable} {call : ConfigCall}
    (h : ∃ id ∈ call.references, achievements.row id = none) :
    ∃ error, call.check achievements = .error error := by
  obtain ⟨id, hid, hnone⟩ := h
  cases hcheck : call.check achievements with
  | error error => exact ⟨error, rfl⟩
  | ok _ =>
    have hstored := check_ok hcheck id hid
    rw [hnone] at hstored
    cases hstored

/-! ## References to stored ids -/

/-- The ids that the requirement of a badge lists, or that a rule mentions, are stored. -/
def AchievementTable.Stores (achievements : AchievementTable) (ids : List String) : Prop :=
  ∀ id ∈ ids, (achievements.row id).isSome = true

def AchievementTable.StoresRule (achievements : AchievementTable) (rule : AchievementRule) : Prop :=
  achievements.Stores (collectAchievementSetIds rule)

theorem check_satisfies {achievements : AchievementTable} {call : ConfigCall}
    (h : call.check achievements = .ok ()) :
    call.Satisfies achievements.StoresRule achievements.Stores := by
  have hstored := check_ok h
  cases call with
  | createAchievement dto => exact hstored
  | createBadge dto => exact hstored
  | updateAchievement id dto =>
    intro rule hrule id' hid
    refine hstored id' ?_
    rw [ConfigCall.references, Option.mem_def.mp hrule]
    exact hid
  | updateBadge id dto =>
    intro ids hids id' hid
    refine hstored id' ?_
    rw [ConfigCall.references, Option.mem_def.mp hids]
    exact hid

namespace Admin

/-- The rows of the tables refer to stored achievements only. -/
def Closed (c : Catalog) : Prop := c.Satisfies c.achievements.StoresRule c.achievements.Stores

theorem Closed.noDangling {c : Catalog} (h : Closed c) : c.NoDangling where
  rules := fun achievement hrow id hid =>
    h.rules achievement.id achievement hrow id (mem_collectAchievementSetIds.mpr hid)
  badges := fun badge hrow => h.badges badge.id badge hrow

/-- No stored id is lost. -/
def Grows (c c' : Catalog) : Prop :=
  ∀ id, (c.achievements.row id).isSome = true → (c'.achievements.row id).isSome = true

theorem Grows.stores {c c' : Catalog} (h : Grows c c') (ids : List String)
    (hids : c.achievements.Stores ids) : c'.achievements.Stores ids :=
  fun id hid => h id (hids id hid)

theorem view_grows (achievements : AchievementTable) (written : List AchievementConfig)
    (id : String) (h : (achievements.row id).isSome = true) :
    ((view achievements written).row id).isSome = true := by
  unfold view
  induction written generalizing achievements with
  | nil => exact h
  | cons v rest ih =>
    refine ih (achievements.put v) ?_
    rw [Table.put_row]
    split
    · rfl
    · exact h

theorem Commits.grows {c c' : Catalog} {th : Thread} (h : Commits c c' th) : Grows c c' := by
  cases h with
  | nothing same =>
    rw [same]
    exact fun _ => id
  | achievements _ tables =>
    rw [tables]
    exact view_grows c.achievements _
  | badges _ tables =>
    rw [tables]
    exact fun _ => id

/-! ## Runs -/

/-- The rows, and what the executions may write, refer to stored achievements only. -/
structure Invariant (s : State) : Prop where
  closed : Closed s.catalog
  sound : ∀ e, (s.threads e).Satisfies s.catalog.achievements.StoresRule
    s.catalog.achievements.Stores
  beyond : ∀ e, s.nextThread ≤ e → s.threads e = .idle

theorem initial_invariant {c : Catalog} (hc : Closed c) : Invariant (initial c) where
  closed := hc
  sound := fun _ => trivial
  beyond := fun _ _ => rfl

/-- An execution that has begun goes on. -/
theorem Invariant.continue {s : State} (hs : Invariant s) {e : ℕ}
    (hrunning : (s.threads e).isRunning = true) {c' : Catalog} {th' : Thread}
    (hcommits : Commits s.catalog c' (s.threads e))
    (hth' : th'.Satisfies s.catalog.achievements.StoresRule s.catalog.achievements.Stores) :
    Invariant { s with catalog := c', threads := Function.update s.threads e th' } := by
  have hgrows := hcommits.grows
  have hclosed := hcommits.satisfies hs.closed (hs.sound e)
  refine ⟨⟨fun id a hrow => hgrows.stores _ (hclosed.rules id a hrow),
    fun id b hrow => hgrows.stores _ (hclosed.badges id b hrow)⟩, ?_, fun e' hle => ?_⟩
  · refine (Function.forall_update_iff s.threads fun _ th =>
      th.Satisfies c'.achievements.StoresRule c'.achievements.Stores).mpr ⟨?_, fun e' _ => ?_⟩
    · exact hth'.mono (fun rule => hgrows.stores _) hgrows.stores
    · exact (hs.sound e').mono (fun rule => hgrows.stores _) hgrows.stores
  · have hidle := hs.beyond e' hle
    have hne : e' ≠ e := by
      rintro rfl
      rw [hidle] at hrunning
      cases hrunning
    exact (Function.update_of_ne hne _ _).trans hidle

theorem step_invariant {s s' : State} {l : Label} (hs : Invariant s) (h : step s l = some s') :
    Invariant s' := by
  cases l with
  | submit call =>
    cases h
    refine ⟨hs.closed, ?_, fun e hle => ?_⟩
    · refine (Function.forall_update_iff s.threads fun _ th =>
        th.Satisfies s.catalog.achievements.StoresRule s.catalog.achievements.Stores).mpr ?_
      exact ⟨trivial, fun e _ => hs.sound e⟩
    · have hlt : s.nextThread < e := hle
      exact (Function.update_of_ne hlt.ne' _ _).trans (hs.beyond e hlt.le)
  | run e outcome =>
    obtain ⟨⟨c', th'⟩, hadvance, rfl⟩ := Option.map_eq_some_iff.mp h
    obtain ⟨hcommits, hth'⟩ := advance_satisfies hs.closed (hs.sound e)
      (fun _ _ hpassed => check_satisfies hpassed) hadvance
    exact hs.continue (advance_isNew hadvance).1 hcommits hth'
  | crash e =>
    rw [step] at h
    split at h
    · next hrunning =>
      cases h
      exact hs.continue hrunning (.nothing rfl) trivial
    · cases h

/-! ## Calls that are turned away -/

/-- The execution is about to check a body with an id that is not stored. -/
def Dangles (s : State) (e : ℕ) : Prop :=
  ∃ call, s.threads e = .check call ∧
    ∃ id ∈ call.references, s.catalog.achievements.row id = none

/-- It has ended with an error. -/
def Refused (s : State) (e : ℕ) : Prop := ∃ error, s.threads e = .answered (.error error)

/-- No transition so far is one of the execution. -/
def Untouched (e : ℕ) (tr : List (Move State Label)) : Prop :=
  ∀ x ∈ tr, ∀ o, x.label ≠ .run e o

/-- Its transitions so far have changed no row. -/
def Harmless (e : ℕ) (tr : List (Move State Label)) : Prop :=
  ∀ x ∈ tr, ∀ o, x.label = .run e o → x.target.catalog = x.source.catalog

theorem check_refused {s s' : State} {e : ℕ} {o : Outcome} (hdangles : Dangles s e)
    (h : step s (.run e o) = some s') : s'.catalog = s.catalog ∧ Refused s' e := by
  obtain ⟨call, hcheck, hid⟩ := hdangles
  obtain ⟨⟨c', th'⟩, hadvance, rfl⟩ := Option.map_eq_some_iff.mp h
  rw [hcheck] at hadvance
  cases o with
  | ok =>
    obtain ⟨error, herror⟩ := check_error hid
    rw [advance, herror] at hadvance
    cases hadvance
    exact ⟨rfl, error, Function.update_self _ _ _⟩
  | fails found =>
    cases hadvance
    exact ⟨rfl, .interrupted, Function.update_self _ _ _⟩

/-- What a step does to one execution. -/
inductive Steps (s s' : State) (e : ℕ) : Label → Prop
  | rests {l : Label} (other : ∀ o, l ≠ .run e o) (same : s'.threads e = s.threads e) :
      Steps s s' e l
  | submitted {call : ConfigCall} (idle : s.threads e = .idle) : Steps s s' e (.submit call)
  | runs {o : Outcome} (running : (s.threads e).isRunning = true)
      (begun : (s'.threads e).isNew = false) : Steps s s' e (.run e o)
  | crashes (running : (s.threads e).isRunning = true) (begun : (s'.threads e).isNew = false) :
      Steps s s' e (.crash e)

theorem step_steps {s s' : State} {l : Label} (hs : Invariant s) (h : step s l = some s') (e : ℕ) :
    Steps s s' e l := by
  cases l with
  | submit call =>
    cases h
    by_cases he : e = s.nextThread
    · exact .submitted (hs.beyond e he.ge)
    · exact .rests (fun o => Label.noConfusion) (Function.update_of_ne he _ _)
  | run e' outcome =>
    obtain ⟨⟨c', th'⟩, hadvance, rfl⟩ := Option.map_eq_some_iff.mp h
    by_cases he : e = e'
    · subst he
      obtain ⟨hrunning, hnew⟩ := advance_isNew hadvance
      refine .runs hrunning ?_
      simp only [Function.update_self]
      exact hnew
    · exact .rests (fun o heq => he (Label.run.inj heq).1.symm) (Function.update_of_ne he _ _)
  | crash e' =>
    rw [step] at h
    split at h
    · next hrunning =>
      cases h
      by_cases he : e = e'
      · subst he
        refine .crashes hrunning ?_
        simp only [Function.update_self]
        rfl
      · exact .rests (fun o => Label.noConfusion) (Function.update_of_ne he _ _)
    · cases h

theorem harmless_snoc {e : ℕ} {tr : List (Move State Label)} {x : Move State Label}
    (h : Harmless e tr) (hx : ∀ o, x.label = .run e o → x.target.catalog = x.source.catalog) :
    Harmless e (tr ++ [x]) := by
  intro y hy
  rcases List.mem_append.mp hy with hy | hy
  · exact h y hy
  · rw [List.mem_singleton.mp hy]
    exact hx

/-- What holds of the transitions so far: an execution that has not checked its body has issued no
statement, and one that had to turn its body away has ended and changed no row. -/
structure Answered (tr : List (Move State Label)) (s : State) : Prop where
  new : ∀ e, (s.threads e).isNew = true → Untouched e tr
  refused : ∀ e, ∀ x ∈ tr, ∀ o, x.label = .run e o → Dangles x.source e →
    Refused s e ∧ Harmless e tr

theorem step_answered {tr : List (Move State Label)} {s s' : State} {l : Label}
    (hs : Invariant s) (h : Answered tr s) (hstep : step s l = some s') :
    Answered (tr ++ [⟨s, l, s'⟩]) s' := by
  refine ⟨fun e hnew => ?_, fun e x hx o hlabel hdangles => ?_⟩
  · have hother : (s.threads e).isNew = true ∧ ∀ o, l ≠ .run e o := by
      cases step_steps hs hstep e with
      | rests other same => exact ⟨same ▸ hnew, other⟩
      | submitted idle => exact ⟨by rw [idle]; rfl, fun o => Label.noConfusion⟩
      | runs _ begun => exact absurd hnew (by rw [begun]; exact Bool.false_ne_true)
      | crashes _ begun => exact absurd hnew (by rw [begun]; exact Bool.false_ne_true)
    intro y hy
    rcases List.mem_append.mp hy with hy | hy
    · exact h.new e hother.1 y hy
    · rw [List.mem_singleton.mp hy]
      exact hother.2
  · rcases List.mem_append.mp hx with hx | hx
    · obtain ⟨⟨error, hanswered⟩, hharmless⟩ := h.refused e x hx o hlabel hdangles
      cases step_steps hs hstep e with
      | rests other same =>
        exact ⟨⟨error, same.trans hanswered⟩,
          harmless_snoc hharmless fun o' heq => absurd heq (other o')⟩
      | submitted idle => cases hanswered.symm.trans idle
      | runs running _ =>
        rw [hanswered] at running
        cases running
      | crashes running _ =>
        rw [hanswered] at running
        cases running
    · obtain rfl := List.mem_singleton.mp hx
      obtain rfl : l = .run e o := hlabel
      obtain ⟨hsame, hrefused⟩ := check_refused hdangles hstep
      obtain ⟨call, hcheck, _⟩ := hdangles
      have hnew : (s.threads e).isNew = true := by rw [hcheck]; rfl
      exact ⟨hrefused, harmless_snoc (fun y hy o' heq => absurd heq (h.new e hnew y hy o'))
        fun _ _ => hsame⟩

theorem seeded_closed : Closed seeded := by
  refine ⟨fun id achievement hrow => ?_, fun id badge hrow => ?_⟩
  · have hall : ∀ a ∈ DEFAULT_ACHIEVEMENTS, ∀ id ∈ collectAchievementSetIds a.rule,
        (seeded.achievements.row id).isSome = true := by decide
    exact hall achievement (insertAll_mem hrow)
  · have hall : ∀ b ∈ DEFAULT_BADGES, ∀ id ∈ b.requiredAchievementIds,
        (seeded.achievements.row id).isSome = true := by decide
    exact hall badge (insertAll_mem hrow)

/-- Whatever calls are made, together or one after another, no reference dangles, and a call that
comes with an unknown id is answered with an error and changes no row. -/
theorem references_never_dangle {s : State} {tr : List (Move State Label)}
    (h : Run step (initial seeded) tr s) : s.catalog.NoDangling ∧
      (∀ x ∈ tr, x.source.catalog.NoDangling ∧ x.target.catalog.NoDangling) ∧
      ∀ e, ∀ x ∈ tr, ∀ o, x.label = .run e o → Dangles x.source e →
        Refused s e ∧ Harmless e tr := by
  have hinitial := initial_invariant seeded_closed
  obtain ⟨hend, hall⟩ := Run.invariant_all Invariant (fun _ _ _ => step_invariant) h hinitial
  have hanswered : Answered tr s := by
    refine Run.history Answered ⟨fun e _ => List.forall_mem_nil _, fun e => List.forall_mem_nil _⟩
      (fun tr' t l u hrun ht hstep => ?_) h
    exact step_answered (Run.invariant Invariant (fun _ _ _ => step_invariant) hrun hinitial) ht hstep
  exact ⟨hend.closed.noDangling,
    fun x hx => ⟨(hall x hx).1.closed.noDangling, (hall x hx).2.closed.noDangling⟩,
    hanswered.refused⟩

/-- The first call mentions an achievement that the second one is about to create. -/
def championCalls : List Label :=
  [.submit (.createAchievement ⟨"ach_early", "Early", "milestones", 3,
      .combination [.count 1 "GTE", .achievementSet ["ach_champion"] none], .absent⟩),
    .submit (.createAchievement ⟨"ach_champion", "Champion", "milestones", 1,
      .combination [.achievementSet ["ach_power_customer", "ach_big_spender"] (some 1)], .absent⟩),
    .run 1 .ok, .run 0 .ok, .run 1 .ok, .run 1 .ok, .run 1 .ok, .run 1 .ok, .run 1 .ok]

theorem references_never_dangle_champion : ∃ tr s, Run step (initial seeded) tr s ∧
    ((s.catalog.achievements.row "ach_champion").isSome = true ∧
      (s.catalog.achievements.row "ach_early").isNone = true ∧ tr.length = 9) ∧
    s.catalog.NoDangling ∧
      (∀ x ∈ tr, x.source.catalog.NoDangling ∧ x.target.catalog.NoDangling) ∧
      ∀ e, ∀ x ∈ tr, ∀ o, x.label = .run e o → Dangles x.source e →
        Refused s e ∧ Harmless e tr := by
  obtain ⟨tr, s, hrun, hlast⟩ := exists_run_of_trace step (initial seeded) championCalls
    (fun r => (r.2.catalog.achievements.row "ach_champion").isSome &&
      (r.2.catalog.achievements.row "ach_early").isNone && r.1.length = 9) (by decide)
  simp only [Bool.and_eq_true, decide_eq_true_eq, and_assoc] at hlast
  exact ⟨tr, s, hrun, hlast, references_never_dangle hrun⟩

end Admin

end Bumpa.Loyalty
