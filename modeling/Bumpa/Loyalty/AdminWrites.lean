import Bumpa.Loyalty.AdminOrdering
import Bumpa.Loyalty.AdminTransactions

/-! # What the calls write

The rule of an achievement and the requirement of a badge reach a row unchanged: what a transaction
saves has the one of its body or the one of the row it found, and an UPDATE leaves the one of the
row or that of the saved entity. So what holds of the rules in all bodies and rows holds of every
row that is written (`advance_satisfies`), however the calls are interleaved.
-/
namespace Bumpa.Loyalty
open Bumpa.Relational
set_option autoImplicit false

/-! ## One transaction -/

section Edits
variable {V C : Type} {key : V → String} {content : V → C} {P Q : C → Prop}

def EditPc.saved : EditPc V → Option V
  | .makeRoom _ saved => saved.toOption
  | .select saved => saved.toOption
  | .write saved _ => saved.toOption
  | _ => none

/-- What a transaction has written and may still write satisfies `P`, if the rows it finds do. -/
structure EditSatisfies (content : V → C) (P : C → Prop) (edit : Edit V) (written : List V)
    (pc : EditPc V) : Prop where
  edit : ∀ found room v, edit.prepare found = .ok (room, .ok v) →
    P (content v) ∨ ∃ w ∈ found, content v = content w
  written : ∀ v ∈ written, P (content v)
  saved : ∀ v ∈ pc.saved, P (content v)

variable {edit : Edit V} {written : List V} {pc : EditPc V}

theorem EditSatisfies.mono (h : EditSatisfies content P edit written pc)
    (hPQ : ∀ content, P content → Q content) : EditSatisfies content Q edit written pc where
  edit := by
    intro found room v hprepare
    exact (h.edit found room v hprepare).imp_left (hPQ _)
  written := fun v hv => hPQ _ (h.written v hv)
  saved := fun v hv => hPQ _ (h.saved v hv)

/-- The columns are written so that the content stays what it was somewhere. -/
structure KeepsContent (content : V → C) (columns : Columns V key) : Prop where
  raised : ∀ v, content (columns.raised v) = content v
  updated : ∀ row selected v, content (columns.updated row selected v) = content row ∨
    content (columns.updated row selected v) = content v

variable {columns : Columns V key} {T : Table String V key} {others : List (List V)}

/-- What a statement of a transaction that goes on has done. -/
inductive EditStep (columns : Columns V key) (T : Table String V key) (edit : Edit V)
    (written : List V) : EditPc V → List V → EditPc V → Prop
  | find {room saved} (prepared : edit.prepare ((view T written).row edit.id) = .ok (room, saved)) :
    EditStep columns T edit written .find written
      ((room.map fun room => .makeRoom room saved).getD (.select saved))
  | makeRoom {room saved} :
    EditStep columns T edit written (.makeRoom room saved)
      (written ++ ((view T written).filter (room.behind columns.sortOrder)).map columns.raised)
      (.select saved)
  | select {saved} :
    EditStep columns T edit written (.select saved) written
      (.write saved ((view T written).row edit.id))
  | unchanged {v selected} :
    EditStep columns T edit written (.write (.ok v) (some selected)) written .commit
  | insert {v T'} (saves : columns.save (view T written) v = .ok T') :
    EditStep columns T edit written (.write (.ok v) none) (written ++ [v]) .commit
  | update {v selected row T'} (found : (view T written).row (key v) = some row)
    (saves : columns.save (view T written) (columns.updated row selected v) = .ok T') :
    EditStep columns T edit written (.write (.ok v) (some selected))
      (written ++ [columns.updated row selected v]) .commit

theorem writeRow_ok {v : V} {written' : List V} {pc' : EditPc V}
    (h : writeRow columns T others written v = some (.ok (written', pc'))) :
    (∃ T', columns.save (view T written) v = .ok T') ∧ written' = written ++ [v] ∧
      pc' = .commit := by
  unfold writeRow at h
  split at h
  · cases h
  · split at h
    · cases h
    · split at h
      · cases h
      · next hsave =>
        cases h
        exact ⟨⟨_, hsave⟩, rfl, rfl⟩

theorem editStatement_steps {written' : List V} {pc' : EditPc V}
    (h : editStatement columns T others edit written pc = some (.ok (written', pc'))) :
    EditStep columns T edit written pc written' pc' := by
  cases pc with
  | find =>
    rw [editStatement] at h
    split at h
    · cases h
    · next hprepare =>
      cases h
      exact .find hprepare
    · next hprepare =>
      cases h
      exact .find hprepare
  | makeRoom room saved =>
    simp only [editStatement] at h
    split at h
    · cases h
    · split at h
      · cases h
        exact .makeRoom
      · cases h
  | select saved =>
    cases h
    exact .select
  | write saved selected =>
    cases saved with
    | error _ => cases h
    | ok v =>
      cases selected with
      | none =>
        rw [editStatement] at h
        split at h
        · cases h
        · obtain ⟨⟨_, hsave⟩, rfl, rfl⟩ := writeRow_ok h
          exact .insert hsave
      | some selected =>
        rw [editStatement] at h
        split at h
        · cases h
          exact .unchanged
        · split at h
          · cases h
            exact .unchanged
          · next row hrow =>
            obtain ⟨⟨_, hsave⟩, rfl, rfl⟩ := writeRow_ok h
            exact .update hrow hsave
  | commit => cases h

theorem EditSatisfies.write {v : V} (h : EditSatisfies content P edit written pc)
    (hv : P (content v)) : EditSatisfies content P edit (written ++ [v]) .commit where
  edit := h.edit
  written := by
    intro w hw
    rcases List.mem_append.mp hw with hold | hnew
    · exact h.written w hold
    · rwa [List.mem_singleton.mp hnew]
  saved := fun _ hnone => by cases hnone

theorem editStatement_satisfies (hcolumns : KeepsContent content columns)
    (hT : ∀ k v, T.row k = some v → P (content v)) (h : EditSatisfies content P edit written pc)
    {written' : List V} {pc' : EditPc V}
    (hstatement : editStatement columns T others edit written pc = some (.ok (written', pc'))) :
    EditSatisfies content P edit written' pc' := by
  have hview : ∀ k v, (view T written).row k = some v → P (content v) := by
    intro k v hv
    rcases Table.foldl_put_mem hv with hwritten | hrow
    · exact h.written v hwritten
    · exact hT k v hrow
  have hprepared : ∀ room saved,
      edit.prepare ((view T written).row edit.id) = .ok (room, saved) →
        ∀ v ∈ saved.toOption, P (content v) := by
    intro room saved hprepare v hv
    cases saved with
    | error _ => cases hv
    | ok w =>
      cases hv
      rcases h.edit _ _ _ hprepare with hP | ⟨w, hw, hsame⟩
      · exact hP
      · rw [hsame]
        exact hview _ w hw
  cases editStatement_steps hstatement with
  | @find room saved hprepare =>
    refine ⟨h.edit, h.written, fun v hv => hprepared room saved hprepare v ?_⟩
    cases room <;> exact hv
  | makeRoom =>
    refine ⟨h.edit, fun v hv => ?_, h.saved⟩
    rcases List.mem_append.mp hv with hold | hraised
    · exact h.written v hold
    · obtain ⟨w, hw, rfl⟩ := List.mem_map.mp hraised
      rw [hcolumns.raised]
      exact hview _ w (Table.mem_rows.mp (List.mem_filter.mp hw).1)
  | select => exact ⟨h.edit, h.written, h.saved⟩
  | unchanged => exact ⟨h.edit, h.written, fun _ hnone => by cases hnone⟩
  | @insert v _ _ => exact h.write (h.saved v rfl)
  | @update v selected row _ hrow _ =>
    refine h.write ?_
    rcases hcolumns.updated row selected v with heq | heq
    · rw [heq]
      exact hview _ row hrow
    · rw [heq]
      exact h.saved v rfl

end Edits

/-! ## The calls -/

theorem achievement_keepsContent (groups : GroupTable) :
    KeepsContent AchievementConfig.rule (achievementColumns groups) where
  raised := fun _ => rfl
  updated := by
    intro row selected achievement
    by_cases h : selected.rule.same achievement.rule = true
    · exact Or.inl (if_pos h)
    · exact Or.inr (if_neg h)

theorem badge_keepsContent : KeepsContent BadgeConfig.requiredAchievementIds badgeColumns where
  raised := fun _ => rfl
  updated := by
    intro row selected badge
    by_cases h : selected.requiredAchievementIds = badge.requiredAchievementIds
    · exact Or.inl (if_pos h)
    · exact Or.inr (if_neg h)

/-- The rule and the requirement that a body sets. -/
def ConfigCall.Satisfies (P : AchievementRule → Prop) (Q : List String → Prop) :
    ConfigCall → Prop
  | .createAchievement dto => P dto.rule
  | .updateAchievement _ dto => ∀ rule ∈ dto.rule.toOption, P rule
  | .createBadge dto => Q (dto.requiredAchievementIds.getD [])
  | .updateBadge _ dto => ∀ ids ∈ dto.requiredAchievementIds.toOption, Q ids

section Calls
variable {P : AchievementRule → Prop} {Q : List String → Prop}

theorem createAchievement_satisfies {dto : CreateAchievementConfigDto} (h : P dto.rule) :
    EditSatisfies AchievementConfig.rule P (createAchievementEdit dto) [] .find where
  edit := by
    intro found room achievement hprepare
    simp only [createAchievementEdit] at hprepare
    split at hprepare
    · cases hprepare
    · cases hprepare
      exact Or.inl h
  written := List.forall_mem_nil _
  saved := fun _ hnone => by cases hnone

theorem updateAchievement_satisfies {id : String} {dto : UpdateAchievementConfigDto}
    (h : ∀ rule ∈ dto.rule.toOption, P rule) :
    EditSatisfies AchievementConfig.rule P (updateAchievementEdit id dto) [] .find where
  edit := by
    intro found room merged hprepare
    cases found with
    | none => cases hprepare
    | some achievement =>
      simp only [updateAchievementEdit, Except.ok.injEq, Prod.mk.injEq] at hprepare
      obtain ⟨_, _, _, hrule⟩ := merged_achievement (merging_ok hprepare.2)
      rw [hrule]
      cases hbody : dto.rule.toOption with
      | none => exact Or.inr ⟨achievement, rfl, rfl⟩
      | some rule => exact Or.inl (h rule hbody)
  written := List.forall_mem_nil _
  saved := fun _ hnone => by cases hnone

theorem createBadge_satisfies {dto : CreateBadgeConfigDto}
    (h : Q (dto.requiredAchievementIds.getD [])) :
    EditSatisfies BadgeConfig.requiredAchievementIds Q (createBadgeEdit dto) [] .find where
  edit := by
    intro found room badge hprepare
    simp only [createBadgeEdit] at hprepare
    split at hprepare
    · cases hprepare
    · cases hprepare
      exact Or.inl h
  written := List.forall_mem_nil _
  saved := fun _ hnone => by cases hnone

theorem updateBadge_satisfies {id : String} {dto : UpdateBadgeConfigDto}
    (h : ∀ ids ∈ dto.requiredAchievementIds.toOption, Q ids) :
    EditSatisfies BadgeConfig.requiredAchievementIds Q (updateBadgeEdit id dto) [] .find where
  edit := by
    intro found room merged hprepare
    cases found with
    | none => cases hprepare
    | some badge =>
      simp only [updateBadgeEdit, Except.ok.injEq, Prod.mk.injEq] at hprepare
      obtain ⟨_, _, hids⟩ := merged_badge (merging_ok hprepare.2)
      rw [Field.merge_eq hids]
      cases hbody : dto.requiredAchievementIds.toOption with
      | none => exact Or.inr ⟨badge, rfl, rfl⟩
      | some ids => exact Or.inl (h ids hbody)
  written := List.forall_mem_nil _
  saved := fun _ hnone => by cases hnone

end Calls

/-! ## Executions -/

/-- Every stored rule satisfies `P`, every stored requirement `Q`. -/
structure Catalog.Satisfies (P : AchievementRule → Prop) (Q : List String → Prop) (c : Catalog) :
    Prop where
  rules : ∀ id achievement, c.achievements.row id = some achievement → P achievement.rule
  badges : ∀ id badge, c.badges.row id = some badge → Q badge.requiredAchievementIds

namespace Admin
variable {P P' : AchievementRule → Prop} {Q Q' : List String → Prop}

def Thread.Satisfies (P : AchievementRule → Prop) (Q : List String → Prop) : Thread → Prop
  | .achievement edit written pc => EditSatisfies AchievementConfig.rule P edit written pc
  | .badge edit written pc => EditSatisfies BadgeConfig.requiredAchievementIds Q edit written pc
  | _ => True

theorem Thread.Satisfies.mono {th : Thread} (h : th.Satisfies P Q)
    (hP : ∀ rule, P rule → P' rule) (hQ : ∀ ids, Q ids → Q' ids) : th.Satisfies P' Q' := by
  cases th with
  | achievement edit written pc => exact EditSatisfies.mono h hP
  | badge edit written pc => exact EditSatisfies.mono h hQ
  | _ => trivial

theorem begin_satisfies {call : ConfigCall} (h : call.Satisfies P Q) :
    (begin call).Satisfies P Q := by
  cases call with
  | createAchievement dto => exact createAchievement_satisfies h
  | updateAchievement id dto => exact updateAchievement_satisfies h
  | createBadge dto => exact createBadge_satisfies h
  | updateBadge id dto => exact updateBadge_satisfies h

section Advance
variable {c c' : Catalog} {others : List Thread} {th th' : Thread} {o : Outcome}

/-- An execution changes the tables by its COMMIT only. -/
inductive Commits (c c' : Catalog) (th : Thread) : Prop
  | nothing (same : c' = c)
  | achievements {edit : Edit AchievementConfig} {written : List AchievementConfig}
      (commit : th = .achievement edit written .commit)
      (tables : c' = { c with achievements := view c.achievements written })
  | badges {edit : Edit BadgeConfig} {written : List BadgeConfig}
      (commit : th = .badge edit written .commit)
      (tables : c' = { c with badges := view c.badges written })

theorem proceed_same {V : Type} {thread : List V → EditPc V → Thread}
    {r : Except RequestError (List V × EditPc V)} (h : proceed c thread r = (c', th')) :
    c' = c ∧ (th'.Satisfies P Q ∨ ∃ written pc, r = .ok (written, pc) ∧ th' = thread written pc) := by
  cases r with
  | error error =>
    cases h
    exact ⟨rfl, Or.inl trivial⟩
  | ok next =>
    cases h
    exact ⟨rfl, Or.inr ⟨_, _, rfl, rfl⟩⟩

theorem advance_satisfies (hc : c.Satisfies P Q) (hth : th.Satisfies P Q)
    (hcheck : ∀ call, th = .check call → call.check c.achievements = .ok () →
      call.Satisfies P Q)
    (h : advance c others th o = some (c', th')) : Commits c c' th ∧ th'.Satisfies P Q := by
  unfold advance at h
  split at h
  · split at h
    · cases h
      exact ⟨.nothing rfl, trivial⟩
    · next hpassed =>
      cases h
      exact ⟨.nothing rfl, begin_satisfies (hcheck _ rfl hpassed)⟩
  · cases h
    exact ⟨.achievements rfl rfl, trivial⟩
  · cases h
    exact ⟨.achievements rfl rfl, trivial⟩
  · obtain ⟨r, hr, hproceed⟩ := Option.map_eq_some_iff.mp h
    obtain ⟨rfl, hsatisfies | ⟨written, pc, rfl, rfl⟩⟩ := proceed_same hproceed
    · exact ⟨.nothing rfl, hsatisfies⟩
    · exact ⟨.nothing rfl, editStatement_satisfies (achievement_keepsContent _) hc.rules hth hr⟩
  · cases h
    exact ⟨.badges rfl rfl, trivial⟩
  · cases h
    exact ⟨.badges rfl rfl, trivial⟩
  · obtain ⟨r, hr, hproceed⟩ := Option.map_eq_some_iff.mp h
    obtain ⟨rfl, hsatisfies | ⟨written, pc, rfl, rfl⟩⟩ := proceed_same hproceed
    · exact ⟨.nothing rfl, hsatisfies⟩
    · exact ⟨.nothing rfl, editStatement_satisfies badge_keepsContent hc.badges hth hr⟩
  · cases h
  · cases h
  · cases h
    exact ⟨.nothing rfl, trivial⟩

/-- What is committed satisfies what the rows and the execution did. -/
theorem Commits.satisfies (h : Commits c c' th) (hc : c.Satisfies P Q) (hth : th.Satisfies P Q) :
    c'.Satisfies P Q := by
  cases h with
  | nothing same => rwa [same]
  | achievements commit tables =>
    subst commit tables
    refine ⟨fun id achievement hrow => ?_, hc.badges⟩
    rcases Table.foldl_put_mem hrow with hwritten | hold
    · exact EditSatisfies.written hth achievement hwritten
    · exact hc.rules id achievement hold
  | badges commit tables =>
    subst commit tables
    refine ⟨hc.rules, fun id badge hrow => ?_⟩
    rcases Table.foldl_put_mem hrow with hwritten | hold
    · exact EditSatisfies.written hth badge hwritten
    · exact hc.badges id badge hold

end Advance

/-- Before its first statement. -/
def Thread.isNew : Thread → Bool
  | .idle => true
  | .check _ => true
  | _ => false

theorem begin_isNew (call : ConfigCall) : (begin call).isNew = false := by cases call <;> rfl

theorem proceed_isNew {V : Type} {c c' : Catalog} {thread : List V → EditPc V → Thread}
    {r : Except RequestError (List V × EditPc V)} {th' : Thread}
    (hthread : ∀ written pc, (thread written pc).isNew = false)
    (h : proceed c thread r = (c', th')) : th'.isNew = false := by
  cases r with
  | error error =>
    cases h
    rfl
  | ok next =>
    cases h
    exact hthread _ _

theorem advance_isNew {c c' : Catalog} {others : List Thread} {th th' : Thread} {o : Outcome}
    (h : advance c others th o = some (c', th')) : th.isRunning = true ∧ th'.isNew = false := by
  unfold advance at h
  split at h
  · split at h
    · cases h
      exact ⟨rfl, rfl⟩
    · cases h
      exact ⟨rfl, begin_isNew _⟩
  · cases h
    exact ⟨rfl, rfl⟩
  · cases h
    exact ⟨rfl, rfl⟩
  · obtain ⟨r, _, hproceed⟩ := Option.map_eq_some_iff.mp h
    exact ⟨rfl, proceed_isNew (fun _ _ => rfl) hproceed⟩
  · cases h
    exact ⟨rfl, rfl⟩
  · cases h
    exact ⟨rfl, rfl⟩
  · obtain ⟨r, _, hproceed⟩ := Option.map_eq_some_iff.mp h
    exact ⟨rfl, proceed_isNew (fun _ _ => rfl) hproceed⟩
  · cases h
  · cases h
  · cases h
    refine ⟨?_, rfl⟩
    cases th <;> simp_all [Thread.isRunning]

end Admin

end Bumpa.Loyalty
