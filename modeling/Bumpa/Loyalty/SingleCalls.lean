import Bumpa.Loyalty.AdminOrdering
import Bumpa.Loyalty.AdminTransactions
import Bumpa.Transition.Run

/-! # A call alone

`perform` takes the transaction of a call as a whole, `Admin.step` takes it statement by statement.
`single_call`: a call that is submitted when no other one runs, and none of whose statements fails
for reasons of its own, is answered as `perform` says, and commits what `perform` says.
-/
namespace Bumpa.Loyalty
open Bumpa.Relational Bumpa.Transition
set_option autoImplicit false

/-! ## One transaction -/

section Executes
variable {V : Type} {key : V → String}

/-- How a transaction ends that goes on from a statement. -/
inductive Executes (columns : Columns V key) (T : Table String V key) (edit : Edit V) :
    List V → EditPc V → Except RequestError (Table String V key) → Prop
  | commits {written : List V} : Executes columns T edit written .commit (.ok (view T written))
  | goesOn {written written' : List V} {pc pc' : EditPc V}
      {result : Except RequestError (Table String V key)}
      (statement : editStatement columns T [] edit written pc = some (.ok (written', pc')))
      (rest : Executes columns T edit written' pc' result) :
      Executes columns T edit written pc result
  | fails {written : List V} {pc : EditPc V} {error : RequestError}
      (statement : editStatement columns T [] edit written pc = some (.error error)) :
      Executes columns T edit written pc (.error error)

variable {columns : Columns V key} {T : Table String V key} {edit : Edit V} {written : List V}

theorem view_snoc (T : Table String V key) (written : List V) (v : V) :
    view T (written ++ [v]) = (view T written).put v := by
  rw [view, view, List.foldl_append]
  rfl

theorem writeRow_executes {pc : EditPc V} {v : V}
    (hstatement : editStatement columns T [] edit written pc = writeRow columns T [] written v) :
    Executes columns T edit written pc
      (if columns.inRange v then columns.save (view T written) v
        else .error (.queryFailed POSTGRES_NUMERIC_VALUE_OUT_OF_RANGE)) := by
  have hfree : locked columns [] v = false := rfl
  cases hrange : columns.inRange v with
  | false =>
    refine .fails ?_
    rw [hstatement, writeRow, hfree, hrange]
    rfl
  | true =>
    rw [writeRow, hfree, hrange] at hstatement
    simp only [if_true]
    cases hsave : columns.save (view T written) v with
    | error error =>
      rw [hsave] at hstatement
      exact .fails hstatement
    | ok T' =>
      rw [hsave] at hstatement
      rw [columns.save_put hsave, ← view_snoc]
      exact .goesOn hstatement .commits

/-- From the SELECT of `save` on, where the row that was selected is the one of the edit. -/
theorem write_executes {v : V} (hkey : key v = edit.id) :
    Executes columns T edit written (.select (.ok v)) (columns.write (view T written) v) := by
  refine .goesOn rfl ?_
  rw [Constraints.write, hkey]
  cases hselected : (view T written).row edit.id with
  | none =>
    refine writeRow_executes ?_
    rw [editStatement, hkey, hselected]
    rfl
  | some selected =>
    rw [Option.any_some]
    cases hsame : columns.same selected v with
    | true =>
      refine .goesOn ?_ .commits
      rw [editStatement, hsame]
      rfl
    | false =>
      have hself : columns.updated selected selected v = v :=
        columns.updated_self (by rw [(view T written).key_eq hselected, hkey])
      refine writeRow_executes ?_
      rw [editStatement, hsame, hkey, hselected]
      simp only [hself]
      rfl

/-- Nobody else has written anything, so the room is there, or a number is out of range. -/
theorem makeRoom_executes {room : Room V} {saved : Except RequestError V}
    {rest : Table String V key → Except RequestError (Table String V key)}
    (hrest : ∀ written, Executes columns T edit written (.select saved) (rest (view T written))) :
    Executes columns T edit [] (.makeRoom room saved) (columns.increment T room >>= rest) := by
  rw [Constraints.increment]
  cases hrange : room.inRange columns.sortOrder (T.filter (room.behind columns.sortOrder)) with
  | false =>
    refine .fails ?_
    simp only [editStatement, view, List.foldl_nil, hrange]
    simp [locked]
  | true =>
    have hstatement : editStatement columns T [] edit [] (.makeRoom room saved) =
        some (.ok ((T.filter (room.behind columns.sortOrder)).map columns.raised,
          .select saved)) := by
      simp only [editStatement, view, List.foldl_nil, hrange]
      simp [locked]
    have hview : view T ((T.filter (room.behind columns.sortOrder)).map columns.raised) =
        columns.makeRoom T room := Table.foldl_put_updateAll T _ _ _
    refine .goesOn hstatement ?_
    have hroom := hrest ((T.filter (room.behind columns.sortOrder)).map columns.raised)
    rw [hview] at hroom
    exact hroom

/-- Statement by statement, a transaction ends as it does as a whole. -/
theorem perform_executes
    (hkey : ∀ room v, edit.prepare (T.row edit.id) = .ok (room, .ok v) → key v = edit.id) :
    Executes columns T edit [] .find (edit.perform columns.toConstraints T) := by
  rw [Edit.perform]
  cases hprepare : edit.prepare (T.row edit.id) with
  | error error =>
    refine .fails ?_
    simp only [editStatement, view, List.foldl_nil, hprepare]
  | ok prepared =>
    obtain ⟨room, saved⟩ := prepared
    have hselect : ∀ written, Executes columns T edit written (.select saved)
        (saved >>= columns.write (view T written)) := by
      intro written
      cases saved with
      | error error => exact .goesOn rfl (.fails rfl)
      | ok v => exact write_executes (hkey room v hprepare)
    cases room with
    | none =>
      refine .goesOn ?_ (hselect [])
      simp only [editStatement, view, List.foldl_nil, hprepare]
    | some room =>
      refine .goesOn ?_ (makeRoom_executes hselect)
      simp only [editStatement, view, List.foldl_nil, hprepare]

end Executes

/-! ## The calls -/

/-- The call as one of those that `perform` knows. -/
def ConfigCall.adminCall : ConfigCall → AdminCall
  | .createAchievement dto => .createAchievement dto
  | .updateAchievement id dto => .updateAchievement id dto
  | .createBadge dto => .createBadge dto
  | .updateBadge id dto => .updateBadge id dto

namespace Admin
variable {c : Catalog}

/-- The first execution, and the only one, ends with this result from here on. -/
def Answers (c : Catalog) (th : Thread) (result : Except RequestError Catalog) : Prop :=
  ∀ s : State, s.catalog = c → s.nextThread = 1 → s.threads 0 = th →
    ∃ tr s', Run step s tr s' ∧ s'.threads 0 = .answered (result.map fun _ => ()) ∧
      s'.catalog = result.toOption.getD c

theorem step_alone {s : State} {o : Outcome} (h : s.nextThread = 1) :
    step s (.run 0 o) = (advance s.catalog [] (s.threads 0) o).map fun r =>
      { s with catalog := r.1, threads := Function.update s.threads 0 r.2 } := by
  have hothers : s.others 0 = [] := by simp [State.others, h]
  rw [step, hothers]

/-- An execution that changes nothing but its program point. -/
theorem Answers.goesOn {th th' : Thread} {result : Except RequestError Catalog}
    (hstep : advance c [] th .ok = some (c, th')) (h : Answers c th' result) :
    Answers c th result := by
  rintro s rfl hnext rfl
  have hth : Function.update s.threads 0 th' 0 = th' := by rw [Function.update_self]
  obtain ⟨tr, s', hrun, hend⟩ := h { s with threads := Function.update s.threads 0 th' } rfl hnext hth
  refine ⟨_, s', (Run.single (l := .run 0 .ok) ?_).trans hrun, hend⟩
  rw [step_alone hnext, hstep]
  rfl

theorem Answers.ends {th : Thread} {result : Except RequestError Catalog}
    (hstep : advance c [] th .ok =
      some (result.toOption.getD c, .answered (result.map fun _ => ()))) :
    Answers c th result := by
  rintro s rfl hnext rfl
  have hrun : step s (.run 0 .ok) = some
      { s with
        catalog := result.toOption.getD s.catalog
        threads := Function.update s.threads 0 (.answered (result.map fun _ => ())) } := by
    rw [step_alone hnext, hstep]
    rfl
  refine ⟨_, _, Run.single hrun, ?_, rfl⟩
  simp only [Function.update_self]

/-- How the transactions on one of the tables run. -/
structure Transactions (c : Catalog) {V : Type} {key : V → String} (columns : Columns V key)
    (T : Table String V key) where
  thread : Edit V → List V → EditPc V → Thread
  stored : Table String V key → Catalog
  statement : ∀ {edit written pc r}, editStatement columns T [] edit written pc = some r →
    advance c [] (thread edit written pc) .ok = some (proceed c (thread edit) r)
  commit : ∀ {edit written}, advance c [] (thread edit written .commit) .ok =
    some (stored (view T written), .answered (.ok ()))

def achievementTransactions (c : Catalog) :
    Transactions c (achievementColumns c.groups) c.achievements where
  thread := .achievement
  stored := fun achievements => { c with achievements }
  statement := by
    intro edit written pc r h
    cases pc with
    | commit => cases h
    | _ =>
      rw [advance]
      · simp [h]
      all_goals simp
  commit := rfl

def badgeTransactions (c : Catalog) : Transactions c badgeColumns c.badges where
  thread := .badge
  stored := fun badges => { c with badges }
  statement := by
    intro edit written pc r h
    cases pc with
    | commit => cases h
    | _ =>
      rw [advance]
      · simp [h]
      all_goals simp
  commit := rfl

section Transactions
variable {V : Type} {key : V → String} {columns : Columns V key} {T : Table String V key}
  {edit : Edit V} {written : List V} {pc : EditPc V}
  {result : Except RequestError (Table String V key)}

theorem Transactions.answers (transactions : Transactions c columns T)
    (h : Executes columns T edit written pc result) :
    Answers c (transactions.thread edit written pc) (result.map transactions.stored) := by
  induction h with
  | commits => exact .ends transactions.commit
  | goesOn statement _ ih => exact ih.goesOn (transactions.statement statement)
  | fails statement => exact .ends (transactions.statement statement)

end Transactions

/-- The check comes first. -/
theorem check_answers {call : ConfigCall} {result : Except RequestError Catalog}
    (h : Answers c (begin call) result) :
    Answers c (.check call) (call.check c.achievements >>= fun _ => result) := by
  cases hcheck : call.check c.achievements with
  | error error =>
    refine .ends ?_
    rw [advance, hcheck]
    rfl
  | ok _ =>
    refine .goesOn ?_ h
    rw [advance, hcheck]

theorem map_bind {ε α β γ : Type} (x : Except ε α) (f : α → Except ε β) (g : β → γ) :
    (x >>= f).map g = x >>= fun a => (f a).map g := by
  cases x <;> rfl

theorem call_answers (c : Catalog) (call : ConfigCall) :
    Answers c (.check call) (perform c call.adminCall) := by
  cases call with
  | createAchievement dto =>
    rw [ConfigCall.adminCall, perform, createAchievement, map_bind]
    refine check_answers ((achievementTransactions c).answers (perform_executes ?_))
    intro room v hprepare
    simp only [createAchievementEdit] at hprepare
    split at hprepare <;> cases hprepare
    rfl
  | updateAchievement id dto =>
    rw [ConfigCall.adminCall, perform, updateAchievement, map_bind]
    refine check_answers ((achievementTransactions c).answers (perform_executes ?_))
    intro room v hprepare
    cases hrow : c.achievements.row id with
    | none =>
      simp only [updateAchievementEdit, hrow] at hprepare
      cases hprepare
    | some achievement =>
      simp only [updateAchievementEdit, hrow, Except.ok.injEq, Prod.mk.injEq] at hprepare
      rw [(merged_achievement (merging_ok hprepare.2)).1]
      exact c.achievements.key_eq hrow
  | createBadge dto =>
    rw [ConfigCall.adminCall, perform, createBadge, map_bind]
    refine check_answers ((badgeTransactions c).answers (perform_executes ?_))
    intro room v hprepare
    simp only [createBadgeEdit] at hprepare
    split at hprepare <;> cases hprepare
    rfl
  | updateBadge id dto =>
    rw [ConfigCall.adminCall, perform, updateBadge, map_bind]
    refine check_answers ((badgeTransactions c).answers (perform_executes ?_))
    intro room v hprepare
    cases hrow : c.badges.row id with
    | none =>
      simp only [updateBadgeEdit, hrow] at hprepare
      cases hprepare
    | some badge =>
      simp only [updateBadgeEdit, hrow, Except.ok.injEq, Prod.mk.injEq] at hprepare
      rw [(merged_badge (merging_ok hprepare.2)).1]
      exact c.badges.key_eq hrow

/-- A call that runs alone, statement by statement, is answered as `perform` answers it, and commits
what `perform` returns. -/
theorem single_call (c : Catalog) (call : ConfigCall) : ∃ tr s, Run step (initial c) tr s ∧
    s.threads 0 = .answered ((perform c call.adminCall).map fun _ => ()) ∧
      s.catalog = (perform c call.adminCall).toOption.getD c := by
  let submitted : State := ⟨c, Function.update (fun _ => .idle) 0 (.check call), 1⟩
  have hsubmit : step (initial c) (.submit call) = some submitted := rfl
  have hcheck : submitted.threads 0 = .check call := by simp only [submitted, Function.update_self]
  obtain ⟨tr, s, hrun, hend⟩ := call_answers c call submitted rfl rfl hcheck
  exact ⟨_, s, (Run.single hsubmit).trans hrun, hend⟩

end Admin
end Bumpa.Loyalty
