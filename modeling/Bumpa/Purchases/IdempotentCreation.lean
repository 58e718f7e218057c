import Bumpa.Purchases.Consistency

/-! # One purchase for an idempotency key

The unique constraint admits one purchase with a key, and the call that loses the race for it reads
the winner's row. But a call for a user that it did not find inserts the user first. When another
call has committed that user since, the INSERT violates the primary key of `users`, which the catch
block does not recognise, and the call rejects.

`created_once_iff`: no call with the key rejects, and all of them return the one purchase that was
committed and announced, exactly if every statement of such a call `recovers`. No call is ever
stuck (`exists_step_of_running`), and each ends after at most seven statements (`statements_le`).
-/
namespace Bumpa.Purchases
open Bumpa.Events Bumpa.Relational Bumpa.Transition
set_option autoImplicit false

/-- A call with the key was rejected. -/
def Thread.rejects (key : String) : Thread → Bool
  | .rejected call _ => call.idempotencyKey = some key
  | _ => false

/-- No call with the key was rejected; those that returned have the id of its one purchase, which
has one outbox row; and a call that has not ended can go on, or waits for one that can. -/
structure CreatedOnce (key : String) (s : State) : Prop where
  unrejected : ∀ e, (s.threads e).rejects key = false
  returned : ∀ e call purchaseId, s.threads e = .returned call purchaseId →
    call.idempotencyKey = some key → ∃ row event,
      s.world.db.purchases.filter (·.idempotencyKey = some key) = [row] ∧ row.id = purchaseId ∧
        s.world.db.outbox.filter (·.payload.payload.purchaseId = purchaseId) = [event]
  running : ∀ e call, (s.threads e).running = some call → ∃ e' s', step s (.run e' .ok) = some s'

/-- Of a call with the key: its INSERT of the user, which it has not found, finds none either; and
its amount fits the column, and an empty key, which is not looked up, is not taken. -/
def Thread.recovers (db : Database) (key : String) : Thread → Outcome → Bool
  | .transaction new _ .insertUser, .ok =>
    new.call.idempotencyKey ≠ some key || (db.users.row new.call.dto.userId).isNone
  | .transaction new _ .insertPurchase, .ok =>
    new.call.idempotencyKey ≠ some key || (Int4.Fits new.call.dto.amountKobo &&
      (key ≠ "" || db.purchases.all (·.idempotencyKey ≠ some key)))
  | _, _ => true

def recovers (key : String) (s : State) : Label → Bool
  | .run e o => (s.threads e).recovers s.world.db key o
  | _ => true

/-! ## Rejections -/

theorem caught_rejects {call : Call} {error : QueryFailedError} {key : String} :
    (call.caught error).rejects key = true ↔ call.idempotencyKey = some key ∧
      (key = "" ∨ isUniqueViolation error (some idempotencyKeyUniqueConstraint) = false) := by
  unfold Call.caught
  split
  · next key' hkey =>
    rw [hkey, Option.some.injEq]
    split
    · next h =>
      refine iff_of_false Bool.false_ne_true ?_
      rintro ⟨rfl, hempty | hother⟩
      · exact h.1 hempty
      · exact absurd h.2 (by rw [hother]; exact Bool.false_ne_true)
    · next h =>
      simp only [Thread.rejects, hkey, Option.some.injEq, decide_eq_true_eq]
      refine (and_iff_left_of_imp ?_).symm
      rintro rfl
      by_cases hempty : key' = ""
      · exact Or.inl hempty
      · exact Or.inr (Bool.eq_false_iff.mpr fun hunique => h ⟨hempty, hunique⟩)
  · next hkey =>
    rw [hkey]
    exact iff_of_false (by simp [Thread.rejects, hkey]) (by simp)

theorem createPurchase_unrejected (w : World) (call : Call) (key : String) :
    (w.createPurchase call).2.rejects key = false := by
  unfold World.createPurchase
  split
  · split <;> rfl
  · rfl

theorem statement_rejects {w w' : World} {others : List Tx} {new : Creation} {tx : Tx} {pc : Pc}
    {th' : Thread} {key : String} (h : Issued w others new tx pc w' th') :
    th'.rejects key = true ↔ (Thread.transaction new tx pc).recovers w.db key .ok = false := by
  cases h with
  | userTaken row htaken =>
    simp [caught_rejects, recognises_user, Thread.recovers, htaken]
  | userInserted user hfree =>
    simp [Thread.rejects, Thread.recovers, hfree]
  | outOfRange hrange =>
    simp [caught_rejects, recognises_range, Thread.recovers, hrange]
  | @keyTaken key' hrange hmem hown =>
    obtain ⟨row, hrow, hrowKey⟩ := mem_keys.mp hmem
    simp only [caught_rejects, recognises_key, Thread.recovers, hrange, hown]
    by_cases hkey : key' = key
    · subst hkey
      by_cases hempty : key' = ""
      · simpa [hempty] using ⟨row, hrow, hempty ▸ hrowKey⟩
      · simp [hempty]
    · simp [hkey]
  | purchaseInserted row hrange hid hown hfree =>
    refine iff_of_false Bool.false_ne_true (Bool.not_eq_false _ ▸ ?_)
    by_cases hkey : new.call.idempotencyKey = some key
    · have hnew := (hfree key (hown.trans hkey)).1
      simpa [Thread.recovers, hrange, hkey, mem_keys] using
        (Or.inr hnew : key ≠ "" ∨ key ∉ w.db.keys)
    · simp [Thread.recovers, hkey]
  | _ => simp [Thread.rejects, Thread.recovers]

theorem advance_rejects {w w' : World} {others : List Tx} {th th' : Thread} {o : Outcome}
    {key : String} (h : advance w others th o = some (w', th')) (hs : th.Sound w.db) :
    th'.rejects key = true ↔ th.recovers w.db key o = false := by
  cases o with
  | fails written =>
    obtain ⟨call, -, rfl, -⟩ := advance_fails h
    simp [Thread.rejects, Thread.recovers]
  | ok =>
    cases th with
    | findExisting call key' =>
      simp only [advance] at h
      split at h <;> cases h <;> simp [Thread.rejects, Thread.recovers]
    | transaction new tx pc => exact statement_rejects (statement_issued h)
    | findWinner call key' error =>
      simp only [advance] at h
      split at h
      · cases h
        simp [Thread.rejects, Thread.recovers]
      · next hnone => exact absurd hs.2 (find_eq_none.mp hnone)
    | publish new =>
      cases h
      simp [Thread.rejects, Thread.recovers]
    | _ => cases h

/-- A step rejects a call with the key exactly if it does not recover. -/
theorem step_unrejected_iff {s s' : State} {l : Label} {key : String} (hs : Consistent s)
    (hall : ∀ e, (s.threads e).rejects key = false) (h : step s l = some s') :
    (∀ e, (s'.threads e).rejects key = false) ↔ recovers key s l = true := by
  cases l with
  | call call =>
    cases h
    refine iff_of_true (fun e => ?_) rfl
    simp only [Function.update_apply]
    split
    · exact createPurchase_unrejected s.world call key
    · exact hall e
  | crash e =>
    obtain ⟨call, -, rfl⟩ := Option.map_eq_some_iff.mp h
    refine iff_of_true (fun e' => ?_) rfl
    simp only [Function.update_apply]
    split
    · rfl
    · exact hall e'
  | run e o =>
    obtain ⟨th', hadv, -, hthreads⟩ := step_run h
    have hrejects : th'.rejects key = true ↔ _ := advance_rejects hadv (hs.sound e)
    constructor
    · intro hall'
      have hself := hall' e
      rw [hthreads, if_pos rfl] at hself
      by_contra hnot
      rw [hrejects.mpr (Bool.eq_false_iff.mpr hnot)] at hself
      cases hself
    · intro hrecovers e'
      rw [hthreads]
      split
      · refine Bool.eq_false_iff.mpr fun htrue => ?_
        rw [recovers, hrejects.mp htrue] at hrecovers
        cases hrecovers
      · exact hall e'

/-! ## What a returned id stands for -/

/-- A value of a column without duplicates selects one row. -/
theorem filter_eq_singleton {α β : Type} [DecidableEq β] {column : α → Option β} {rows : List α}
    {row : α} {value : β} (hnodup : (rows.filterMap column).Nodup) (hrow : row ∈ rows)
    (hvalue : column row = some value) :
    rows.filter (fun row => column row = some value) = [row] := by
  induction rows with
  | nil => cases hrow
  | cons first rest ih =>
    by_cases hfirst : column first = some value
    · rw [List.filterMap_cons_some hfirst, List.nodup_cons] at hnodup
      have hrest : rest.filter (fun row => column row = some value) = [] := by
        refine List.filter_eq_nil_iff.mpr fun other hmem hother => ?_
        exact hnodup.1 (List.mem_filterMap.mpr ⟨other, hmem, of_decide_eq_true hother⟩)
      rcases List.mem_cons.mp hrow with rfl | hlater
      · rw [List.filter_cons_of_pos (by simpa using hvalue), hrest]
      · exact absurd (List.mem_filterMap.mpr ⟨row, hlater, hvalue⟩) hnodup.1
    · have hlater : row ∈ rest := by
        rcases List.mem_cons.mp hrow with rfl | hlater
        · exact absurd hvalue hfirst
        · exact hlater
      rw [List.filter_cons_of_neg (by simpa using hfirst)]
      refine ih ?_ hlater
      exact hnodup.sublist (List.Sublist.filterMap column (List.sublist_cons_self first rest))

theorem returned_once {s : State} {e : ℕ} {call : Call} {purchaseId : ReadableId} {key : String}
    (hs : Consistent s) (hth : s.threads e = .returned call purchaseId)
    (hkey : call.idempotencyKey = some key) : ∃ row event,
      s.world.db.purchases.filter (·.idempotencyKey = some key) = [row] ∧ row.id = purchaseId ∧
        s.world.db.outbox.filter (·.payload.payload.purchaseId = purchaseId) = [event] := by
  have hsound := hs.sound e
  rw [hth] at hsound
  obtain ⟨row, hrow, hid, hrowKey⟩ := hsound
  have hmem : purchaseId ∈ s.world.db.outbox.map (·.payload.payload.purchaseId) := by
    rw [hs.announced]
    exact List.mem_map.mpr ⟨row, hrow, hid⟩
  have hnodup : (s.world.db.outbox.map (·.payload.payload.purchaseId)).Nodup := by
    rw [hs.announced]
    exact hs.purchaseIds
  obtain ⟨event, hevent, heventId⟩ := List.mem_map.mp hmem
  refine ⟨row, event, filter_eq_singleton hs.keys hrow (hrowKey.trans hkey), hid, ?_⟩
  rw [← List.filterMap_eq_map] at hnodup
  have hfilter := filter_eq_singleton hnodup hevent (congrArg some heventId)
  simpa only [Function.comp_apply, Option.some.injEq] using hfilter

/-! ## No call is stuck -/

/-- What holds a statement up is a row that an open transaction has written. -/
theorem exists_written {β : Type} {others : List Tx} {written : Tx → Option β} {p : β → Bool}
    (h : (others.any fun tx' => (written tx').any p) = true) :
    ∃ tx' ∈ others, written tx' ≠ none := by
  obtain ⟨tx', hmem, hany⟩ := List.any_eq_true.mp h
  refine ⟨tx', hmem, fun hnone => ?_⟩
  rw [hnone] at hany
  cases hany

/-- A statement waits for a transaction that has written a user, or one that has inserted a
purchase. -/
theorem statement_waits {w : World} {others : List Tx} {new : Creation} {tx : Tx} {pc : Pc}
    (h : statement w others new tx pc = none) :
    (∃ tx' ∈ others, tx'.user ≠ none ∧ pc ≠ .insertPurchase) ∨
      ∃ tx' ∈ others, tx'.purchase ≠ none ∧ pc = .insertPurchase := by
  cases pc with
  | selectUser =>
    simp only [statement] at h
    split at h
    · cases h
    · split at h <;> cases h
  | insertUser =>
    simp only [statement] at h
    split at h
    · next hany =>
      obtain ⟨tx', hmem, hwritten⟩ := exists_written hany
      exact Or.inl ⟨tx', hmem, hwritten, by simp⟩
    · split at h <;> cases h
  | updateUser selected =>
    simp only [statement] at h
    split at h
    · next hany =>
      obtain ⟨tx', hmem, hwritten⟩ := exists_written hany
      exact Or.inl ⟨tx', hmem, hwritten, by simp⟩
    · split at h <;> cases h
  | insertPurchase =>
    simp only [statement] at h
    split at h
    · cases h
    · split at h
      · next hany =>
        obtain ⟨tx', hmem, hinserted⟩ := exists_written hany
        exact Or.inr ⟨tx', hmem, hinserted, rfl⟩
      · split at h <;> cases h
  | insertEvent => cases h
  | commit => cases h

theorem exists_step_of_statement {s : State} {e : ℕ} {new : Creation} {tx : Tx} {pc : Pc}
    (hth : s.threads e = .transaction new tx pc)
    (h : statement s.world (s.others e) new tx pc ≠ none) : ∃ s', step s (.run e .ok) = some s' := by
  obtain ⟨r, hr⟩ := Option.ne_none_iff_exists'.mp h
  exact ⟨_, Option.map_eq_some_iff.mpr ⟨r, by rw [hth]; exact hr, rfl⟩⟩

/-- Behind its purchase, a transaction does not wait any more. -/
theorem exists_step_of_inserted {s : State} {e : ℕ} {new : Creation} {tx : Tx} {pc : Pc}
    (hs : Consistent s) (hth : s.threads e = .transaction new tx pc) (h : tx.purchase ≠ none) :
    ∃ s', step s (.run e .ok) = some s' := by
  have hwrote := hs.sound e
  rw [hth] at hwrote
  cases pc with
  | insertEvent => exact exists_step_of_statement hth (Option.some_ne_none _)
  | commit => exact exists_step_of_statement hth (Option.some_ne_none _)
  | insertPurchase => exact absurd hwrote h
  | _ => exact absurd (congrArg Tx.purchase hwrote) h

/-- Behind its user, it waits at most for one that is behind its purchase. -/
theorem exists_step_of_user {s : State} {e : ℕ} {new : Creation} {tx : Tx} {pc : Pc}
    (hs : Consistent s) (hth : s.threads e = .transaction new tx pc) (h : tx.user ≠ none) :
    ∃ e' s', step s (.run e' .ok) = some s' := by
  by_cases hstuck : statement s.world (s.others e) new tx pc = none
  · rcases statement_waits hstuck with ⟨tx', hmem, _, hpc⟩ | ⟨tx', hmem, hinserted, _⟩
    · have hwrote := hs.sound e
      rw [hth] at hwrote
      cases pc with
      | insertPurchase => exact absurd rfl hpc
      | insertEvent => cases hstuck
      | commit => cases hstuck
      | _ => exact absurd (congrArg Tx.user hwrote) h
    · obtain ⟨e', new', pc', hth'⟩ := of_mem_others hmem
      exact ⟨e', exists_step_of_inserted hs hth' hinserted⟩
  · exact ⟨e, exists_step_of_statement hth hstuck⟩

theorem exists_step_of_running {s : State} {e : ℕ} {call : Call} (hs : Consistent s)
    (h : (s.threads e).running = some call) : ∃ e' s', step s (.run e' .ok) = some s' := by
  have hself : ∀ r, advance s.world (s.others e) (s.threads e) .ok = some r →
      ∃ e' s', step s (.run e' .ok) = some s' := fun r hr =>
    ⟨e, _, Option.map_eq_some_iff.mpr ⟨r, hr, rfl⟩⟩
  cases hth : s.threads e with
  | findExisting call' key =>
    rw [hth, advance] at hself
    cases hfind : s.world.db.findByIdempotencyKey key <;> rw [hfind] at hself <;> exact hself _ rfl
  | findWinner call' key error =>
    rw [hth, advance] at hself
    cases hfind : s.world.db.findByIdempotencyKey key <;> rw [hfind] at hself <;> exact hself _ rfl
  | publish new =>
    rw [hth] at hself
    exact hself _ rfl
  | transaction new tx pc =>
    by_cases hstuck : statement s.world (s.others e) new tx pc = none
    · rcases statement_waits hstuck with ⟨tx', hmem, huser, _⟩ | ⟨tx', hmem, hinserted, _⟩
      · obtain ⟨e', new', pc', hth'⟩ := of_mem_others hmem
        exact exists_step_of_user hs hth' huser
      · obtain ⟨e', new', pc', hth'⟩ := of_mem_others hmem
        exact ⟨e', exists_step_of_inserted hs hth' hinserted⟩
    · exact ⟨e, exists_step_of_statement hth hstuck⟩
  | _ => simp [hth, Thread.running] at h

/-! ## Every call ends -/

/-- A bound on the statements a call has yet to issue. -/
def Thread.rank : Thread → ℕ
  | .idle | .findExisting _ _ => 7
  | .transaction _ _ .selectUser => 6
  | .transaction _ _ .insertUser | .transaction _ _ (.updateUser _) => 5
  | .transaction _ _ .insertPurchase => 4
  | .transaction _ _ .insertEvent => 3
  | .transaction _ _ .commit => 2
  | .findWinner _ _ _ | .publish _ => 1
  | .returned _ _ | .rejected _ _ | .failed _ => 0

theorem caught_rank (call : Call) (error : QueryFailedError) : (call.caught error).rank ≤ 1 := by
  rcases caught_eq call error with hcaught | ⟨key, _, _, _, hcaught⟩
  · rw [hcaught]
    exact Nat.zero_le 1
  · rw [hcaught]
    exact Nat.le_refl 1

theorem createPurchase_rank (w : World) (call : Call) : (w.createPurchase call).2.rank ≤ 7 := by
  unfold World.createPurchase World.begin
  split
  · split <;> simp [Thread.rank]
  · simp [Thread.rank]

theorem statement_rank {w w' : World} {others : List Tx} {new : Creation} {tx : Tx} {pc : Pc}
    {th' : Thread} (h : Issued w others new tx pc w' th') :
    th'.rank < (Thread.transaction new tx pc).rank := by
  have hcaught := fun error => Nat.lt_succ_of_le (caught_rank new.call error)
  cases h with
  | userTaken _ _ => exact Nat.lt_of_lt_of_le (hcaught _) (by simp [Thread.rank])
  | outOfRange _ => exact Nat.lt_of_lt_of_le (hcaught _) (by simp [Thread.rank])
  | keyTaken _ _ _ => exact Nat.lt_of_lt_of_le (hcaught _) (by simp [Thread.rank])
  | _ => simp [Thread.rank]

/-- Every statement of a call brings it nearer to its end. -/
theorem advance_rank {w w' : World} {others : List Tx} {th th' : Thread} {o : Outcome}
    (h : advance w others th o = some (w', th')) : th'.rank < th.rank := by
  cases o with
  | fails written =>
    obtain ⟨call, hrunning, rfl, -⟩ := advance_fails h
    cases th with
    | transaction new tx pc => cases pc <;> simp [Thread.rank]
    | findExisting _ _ | findWinner _ _ _ | publish _ => simp [Thread.rank]
    | _ => cases hrunning
  | ok =>
    cases th with
    | findExisting call key =>
      simp only [advance] at h
      split at h <;> cases h <;> simp [Thread.rank]
    | transaction new tx pc => exact statement_rank (statement_issued h)
    | findWinner call key error =>
      simp only [advance] at h
      split at h <;> cases h <;> simp [Thread.rank]
    | publish new =>
      cases h
      simp [Thread.rank]
    | _ => cases h

def Label.runs (e : ℕ) : Label → Bool
  | .run e' _ => e' = e
  | _ => false

theorem step_rank {s s' : State} {l : Label} (hs : Consistent s) (h : step s l = some s') (e : ℕ) :
    (s'.threads e).rank + (if l.runs e then 1 else 0) ≤ (s.threads e).rank := by
  cases l with
  | call call =>
    cases h
    simp only [Function.update_apply, Label.runs]
    split
    · next he =>
      rw [he, hs.beyond _ (Nat.le_refl _)]
      exact createPurchase_rank s.world call
    · exact Nat.le_refl _
  | crash e' =>
    obtain ⟨call, -, rfl⟩ := Option.map_eq_some_iff.mp h
    simp only [Function.update_apply, Label.runs]
    split
    · exact Nat.zero_le _
    · exact Nat.le_refl _
  | run e' o =>
    obtain ⟨th', hadv, -, hthreads⟩ := step_run h
    rw [hthreads]
    by_cases he : e = e'
    · subst he
      have hlt := advance_rank hadv
      simp only [Label.runs, decide_true, if_true]
      omega
    · simp [Label.runs, he, Ne.symm he]

/-- A call takes at most seven statements. -/
theorem statements_le {tr : List (Move State Label)} {s : State} (h : Reaches tr s) (e : ℕ) :
    tr.countP (fun x => x.label.runs e) ≤ 7 := by
  have hall : Guarded (fun s _ => Consistent s) tr := fun x hx =>
    ((Run.invariant_all Consistent (fun _ _ _ hs hstep => step_consistent hs hstep) h
      initial_consistent).2 x hx).1
  have hcount := Run.countP_add_le (fun x => x.label.runs e) (fun s => (s.threads e).rank)
    (fun _ _ _ hs hstep => step_rank hs hstep e) h hall
  exact Nat.le_trans (Nat.le_add_right _ _) hcount

/-! ## Runs -/

theorem createdOnce_iff {key : String} {s : State} (hs : Consistent s) :
    CreatedOnce key s ↔ ∀ e, (s.threads e).rejects key = false :=
  ⟨CreatedOnce.unrejected, fun h => ⟨h, fun _ _ _ => returned_once hs,
    fun _ _ => exists_step_of_running hs⟩⟩

/-- In a run of any calls, for new and existing users and under any keys, the calls with a key
create one purchase exactly if each of their statements recovers. -/
theorem created_once_iff {tr : List (Move State Label)} {s : State} (key : String)
    (h : Reaches tr s) :
    (∀ x ∈ tr, CreatedOnce key x.target) ↔ Guarded (fun s l => recovers key s l = true) tr := by
  have hconsistent : ∀ s l s', Consistent s → step s l = some s' → Consistent s' :=
    fun _ _ _ => step_consistent
  have hall := (Run.invariant_all Consistent hconsistent h initial_consistent).2
  have hiff := Run.invariant_iff (G := fun s l => recovers key s l = true) Consistent
    (fun s => ∀ e, (s.threads e).rejects key = false) hconsistent
    (fun _ _ _ hs hunrejected hstep => step_unrejected_iff hs hunrejected hstep) h
    initial_consistent fun _ => rfl
  rw [← hiff]
  exact forall₂_congr fun x hx => createdOnce_iff (hall x hx).2

/-! ## Schedules -/

/-- An earlier purchase has created the user. Two calls with a key then overlap; the one that comes
second with its purchase reads the row of the first one. -/
theorem created_once_existing_user : ∃ tr s, Reaches tr s ∧
    s.threads 1 = .returned ⟨aminaPurchase, 1, some "idem_race"⟩ 2 ∧
    s.threads 2 = .returned ⟨aminaPurchase, 2, some "idem_race"⟩ 2 ∧
    ∀ x ∈ tr, CreatedOnce "idem_race" x.target := by
  obtain ⟨tr, s, h, hp⟩ := exists_run_of_trace step initial
    (.call ⟨aminaPurchase, 0, some "idem_key_1"⟩ :: Label.oks 0 7 ++
      [.call ⟨aminaPurchase, 1, some "idem_race"⟩, .call ⟨aminaPurchase, 2, some "idem_race"⟩] ++
      Label.oks 1 1 ++ Label.oks 2 2 ++ Label.oks 1 5 ++ Label.oks 2 2)
    (fun r => (r.1.all fun x => recovers "idem_race" x.source x.label) &&
      decide (r.2.threads 1 = .returned ⟨aminaPurchase, 1, some "idem_race"⟩ 2 ∧
        r.2.threads 2 = .returned ⟨aminaPurchase, 2, some "idem_race"⟩ 2)) (by decide +kernel)
  rw [Bool.and_eq_true, decide_eq_true_eq] at hp
  exact ⟨tr, s, h, hp.2.1, hp.2.2, (created_once_iff "idem_race" h).mpr (guarded_of_all hp.1)⟩

/-- Two calls of one request for a new user: neither finds the user, and the second one to insert
it is rejected. -/
theorem new_user_race_rejects : ¬∀ (dto : CreatePurchaseDto) (key : String)
    (tr : List (Move State Label)) (s : State), Reaches tr s →
    (∀ x ∈ tr, ∀ call, x.label = .call call →
      call.dto = dto ∧ call.idempotencyKey = some key) → CreatedOnce key s := by
  intro hall
  obtain ⟨tr, s, h, hp⟩ := exists_run_of_trace step initial
    ([.call ⟨aminaPurchase, 1, some "idem_race"⟩, .call ⟨aminaPurchase, 2, some "idem_race"⟩] ++
      Label.oks 0 2 ++ Label.oks 1 2 ++ Label.oks 0 5 ++ Label.oks 1 1)
    (fun r => (r.1.all fun x => match x.label with
        | .call call => decide (call.dto = aminaPurchase ∧ call.idempotencyKey = some "idem_race")
        | _ => true) && (r.2.threads 1).rejects "idem_race") (by decide +kernel)
  rw [Bool.and_eq_true, List.all_eq_true] at hp
  have hsame : ∀ x ∈ tr, ∀ call, x.label = .call call →
      call.dto = aminaPurchase ∧ call.idempotencyKey = some "idem_race" := by
    intro x hx call hcall
    have hx' := hp.1 x hx
    rw [hcall] at hx'
    exact of_decide_eq_true hx'
  have hunrejected := (hall aminaPurchase "idem_race" tr s h hsame).unrejected 1
  rw [hp.2] at hunrejected
  cases hunrejected

end Bumpa.Purchases
