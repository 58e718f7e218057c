import Bumpa.Outbox.PublishIntent

/-! # What a PUBLISHED row stands for

`event` is what each id was committed with. A row, and every copy of it that an execution holds, has
the payload of its id, whoever saves it back. A row is PUBLISHED only if the broker has taken its
event in (`accepted`), whatever failed in between; and what the broker has taken in was a row.
-/
namespace Bumpa.Outbox
open Bumpa.Events Bumpa.Relational Bumpa.Transition
set_option autoImplicit false

variable {Payload : Type} {options : OutboxModuleOptions} {event : ReadableId → Payload}

/-- The copies an execution will go on with. -/
def Rest.records : Rest Payload → List (OutboxRecord Payload)
  | .ids _ => []
  | .batch rest => rest

def Thread.records : Thread Payload → List (OutboxRecord Payload)
  | .claim copy rest | .publish copy rest | .savePublished copy rest | .saveFailed copy rest =>
    copy :: rest.records
  | _ => []

/-- The row whose publish went through and is not saved yet. -/
def Thread.publishedRow : Thread Payload → Option ReadableId
  | .savePublished copy _ => some copy.id
  | _ => none

structure Thread.Tells (event : ReadableId → Payload) (w : World Payload) (th : Thread Payload) :
    Prop where
  records : ∀ copy ∈ th.records, copy.payload = event copy.id
  published : ∀ id, th.publishedRow = some id → id ∈ w.accepted

structure World.Tells (event : ReadableId → Payload) (w : World Payload) : Prop where
  rows : ∀ id row, w.rows.row id = some row → row.payload = event id
  published : ∀ id, w.statusOf id = some .published → id ∈ w.accepted

/-- A new row is committed with what its id stands for. -/
def commits (event : ReadableId → Payload) (_ : State Payload) : Label Payload → Prop
  | .commit id payload => payload = event id
  | _ => True

/-! ## Writes -/

section Writes
variable {w : World Payload}

theorem World.Tells.save (h : w.Tells event) {copy : OutboxRecord Payload}
    (hpayload : copy.payload = event copy.id)
    (hpublished : copy.status = .published → copy.id ∈ w.accepted) : (w.save copy).Tells event := by
  refine ⟨fun id row hrow => ?_, fun id hid => ?_⟩
  · rw [save_row] at hrow
    split at hrow
    · next heq =>
      cases hrow
      rw [heq]
      exact hpayload
    · exact h.rows id row hrow
  · rw [save_statusOf] at hid
    split at hid
    · next heq =>
      rw [heq]
      exact hpublished (Option.some.inj hid)
    · exact h.published id hid

theorem World.Tells.claimRow (h : w.Tells event) (k : ReadableId) : (w.claimRow k).Tells event := by
  by_cases hpending : w.statusOf k = some .pending
  · refine ⟨fun id row hrow => ?_, fun id hid => ?_⟩
    · rw [claimRow_row hpending] at hrow
      split at hrow
      · next heq =>
        obtain ⟨row', hrow', rfl⟩ := Option.map_eq_some_iff.mp hrow
        rw [heq]
        exact h.rows k row' hrow'
      · exact h.rows id row hrow
    · rw [claimRow_statusOf hpending] at hid
      split at hid
      · cases hid
      · exact h.published id hid
  · rw [claimRow_eq hpending]
    exact h

theorem World.Tells.accept (h : w.Tells event) (k : ReadableId) : (w.accept k).Tells event :=
  ⟨h.rows, fun id hid => List.mem_append_left _ (h.published id hid)⟩

theorem next_records (rest : Rest Payload) : ∀ copy ∈ rest.next.records, copy ∈ rest.records := by
  cases rest with
  | ids rest => cases rest <;> exact List.forall_mem_nil _
  | batch rest =>
    cases rest with
    | nil => exact List.forall_mem_nil _
    | cons copy rest => exact fun _ h => h

theorem next_publishedRow (rest : Rest Payload) : rest.next.publishedRow = none := by
  cases rest with
  | ids rest => cases rest <;> rfl
  | batch rest => cases rest <;> rfl

theorem next_tells {rest : Rest Payload} (h : ∀ copy ∈ rest.records, copy.payload = event copy.id)
    (w : World Payload) : rest.next.Tells event w :=
  ⟨fun copy hcopy => h copy (next_records rest copy hcopy),
    fun id hid => by rw [next_publishedRow] at hid; cases hid⟩

theorem done_tells (w : World Payload) : (Thread.done : Thread Payload).Tells event w :=
  ⟨List.forall_mem_nil _, fun _ hid => by cases hid⟩

theorem Thread.Tells.mono {w' : World Payload} {th : Thread Payload} (h : th.Tells event w)
    (haccepted : ∀ id ∈ w.accepted, id ∈ w'.accepted) : th.Tells event w' :=
  ⟨h.records, fun id hid => haccepted id (h.published id hid)⟩

end Writes

/-! ## One step -/

/-- The event that the broker takes in with this call, also where the call is rejected. -/
def Thread.accepted : Thread Payload → Outcome → Option (OutboxRecord Payload)
  | .publish copy _, .ok | .publish copy _, .fails _ true => some copy
  | _, _ => none

def Label.accepted (s : State Payload) : Label Payload → Option (OutboxRecord Payload)
  | .run e o => (s.threads e).accepted o
  | _ => none

section Advance
variable {w w' : World Payload} {th th' : Thread Payload} {o : Outcome}

theorem advance_accepts (h : advance options w th o = some (w', th')) :
    w'.accepted = w.accepted ++ ((th.accepted o).map (·.id)).toList := by
  have hnil : w.accepted = w.accepted ++ [] := (List.append_nil _).symm
  have hsave : ∀ copy, (w.save copy).accepted = w.accepted := fun _ => rfl
  have hclaim : ∀ k, (w.claimRow k).accepted = w.accepted := fun _ => rfl
  have haccept : ∀ k, (w.accept k).accepted = w.accepted ++ [k] := fun _ => rfl
  unfold advance at h
  unfold Thread.accepted
  grind

theorem pendingBatch_row {copy : OutboxRecord Payload} (h : copy ∈ pendingBatch options w.rows) :
    w.rows.row copy.id = some copy := by
  have hmem := List.mem_of_mem_take h
  rw [List.mem_insertionSort] at hmem
  exact Table.mem_rows.mp (List.mem_filter.mp hmem).1

/-- The columns that no write changes. -/
structure OutboxRecord.SameEvent (copy copy' : OutboxRecord Payload) : Prop where
  id : copy'.id = copy.id
  payload : copy'.payload = copy.payload
  createdAt : copy'.createdAt = copy.createdAt

theorem OutboxRecord.SameEvent.refl (copy : OutboxRecord Payload) : copy.SameEvent copy :=
  ⟨rfl, rfl, rfl⟩

/-- An execution goes on with rows that it has just read, and with the copies it had. -/
theorem advance_records (h : advance options w th o = some (w', th')) : ∀ copy' ∈ th'.records,
    w.rows.row copy'.id = some copy' ∨ ∃ copy ∈ th.records, copy.SameEvent copy' := by
  have hrest : ∀ {copy : OutboxRecord Payload} {rest : Rest Payload}, ∀ copy' ∈ rest.next.records,
      ∃ c ∈ copy :: rest.records, c.SameEvent copy' :=
    fun copy' hcopy' => ⟨copy', List.mem_cons_of_mem _ (next_records _ copy' hcopy'), .refl copy'⟩
  have hsame : ∀ {copy copy₁ : OutboxRecord Payload} {rest : Rest Payload},
      ∀ copy' ∈ copy₁ :: rest.records, copy.SameEvent copy₁ →
        ∃ c ∈ copy :: rest.records, c.SameEvent copy' := by
    intro copy copy₁ rest copy' hcopy' hevent
    rcases List.mem_cons.mp hcopy' with rfl | hold
    · exact ⟨copy, .head _, hevent⟩
    · exact ⟨copy', List.mem_cons_of_mem _ hold, .refl copy'⟩
  cases th with
  | done => cases h
  | findOne id rest =>
    have hnone : ∀ copy' ∈ (Rest.ids rest : Rest Payload).next.records, False := by
      intro copy' hcopy'
      cases next_records (.ids rest) copy' hcopy'
    cases o with
    | ok =>
      simp only [advance] at h
      split at h
      · cases h
        exact fun copy' hcopy' => (hnone copy' hcopy').elim
      · next copy hrow =>
        split at h <;> cases h
        · exact fun copy' hcopy' => (hnone copy' hcopy').elim
        · intro copy' hcopy'
          rw [List.mem_singleton.mp hcopy', w.rows.key_eq hrow]
          exact Or.inl hrow
    | fails error written =>
      cases h
      exact List.forall_mem_nil _
  | find =>
    cases o with
    | ok =>
      cases h
      exact fun copy' hcopy' => Or.inl (pendingBatch_row (next_records (.batch _) copy' hcopy'))
    | fails error written =>
      cases h
      exact List.forall_mem_nil _
  | claim copy rest =>
    cases o with
    | ok =>
      simp only [advance] at h
      split at h <;> cases h
      · exact fun copy' hcopy' => Or.inr (hsame copy' hcopy' ⟨rfl, rfl, rfl⟩)
      · exact fun copy' hcopy' => Or.inr (hrest copy' hcopy')
    | fails error written =>
      cases h
      exact List.forall_mem_nil _
  | publish copy rest =>
    cases o <;> cases h <;>
      exact fun copy' hcopy' => Or.inr (hsame copy' hcopy' ⟨rfl, rfl, rfl⟩)
  | savePublished copy rest =>
    cases o with
    | ok =>
      cases h
      exact fun copy' hcopy' => Or.inr (hrest copy' hcopy')
    | fails error written =>
      cases h
      exact fun copy' hcopy' => Or.inr (hsame copy' hcopy' ⟨rfl, rfl, rfl⟩)
  | saveFailed copy rest =>
    cases o with
    | ok =>
      cases h
      exact fun copy' hcopy' => Or.inr (hrest copy' hcopy')
    | fails error written =>
      cases h
      exact List.forall_mem_nil _

/-- Only a publish that went through leaves an execution with a published row. -/
theorem advance_publishedRow (h : advance options w th o = some (w', th')) {id : ReadableId}
    (hid : th'.publishedRow = some id) : id ∈ w'.accepted := by
  have hnext : ∀ rest : Rest Payload, rest.next.publishedRow ≠ some id := by
    intro rest hpublished
    rw [next_publishedRow] at hpublished
    cases hpublished
  have haccept : ∀ k, k ∈ (w.accept k).accepted := fun k => List.mem_append_right _ (.head _)
  have hpublish : ∀ (copy : OutboxRecord Payload) now, (copy.published now).id = copy.id :=
    fun _ _ => rfl
  unfold advance at h
  grind [Thread.publishedRow]

theorem advance_tells (h : advance options w th o = some (w', th')) (hdecided : th.Decided options)
    (hw : w.Tells event) (hth : th.Tells event w) : w'.Tells event ∧ th'.Tells event w' := by
  refine ⟨?_, fun copy' hcopy' => ?_, fun id => advance_publishedRow h⟩
  · cases th with
    | done => cases h
    | findOne id rest =>
      obtain rfl : w' = w := by
        unfold advance at h
        grind
      exact hw
    | find => cases o <;> cases h <;> exact hw
    | claim copy rest =>
      cases o with
      | ok =>
        simp only [advance] at h
        split at h <;> cases h
        · exact hw.claimRow copy.id
        · exact hw
      | fails error written =>
        cases written <;> cases h
        · exact hw
        · exact hw.claimRow copy.id
    | publish copy rest =>
      cases o with
      | ok =>
        cases h
        exact hw.accept copy.id
      | fails error written =>
        cases written <;> cases h
        · exact hw
        · exact hw.accept copy.id
    | savePublished copy rest =>
      have hsaved := hw.save (hth.records copy (.head _)) fun _ => hth.published copy.id rfl
      cases o with
      | ok =>
        cases h
        exact hsaved
      | fails error written =>
        cases written <;> cases h
        · exact hw
        · exact hsaved
    | saveFailed copy rest =>
      have hsaved := hw.save (hth.records copy (.head _)) fun hpublished => by
        rcases hdecided with hpending | ⟨hfailed, -⟩
        · rw [hpublished] at hpending
          cases hpending
        · rw [hpublished] at hfailed
          cases hfailed
      cases o with
      | ok =>
        cases h
        exact hsaved
      | fails error written =>
        cases written <;> cases h
        · exact hw
        · exact hsaved
  · rcases advance_records h copy' hcopy' with hrow | ⟨copy, hcopy, hsame⟩
    · exact hw.rows copy'.id copy' hrow
    · rw [hsame.payload, hsame.id]
      exact hth.records copy hcopy

end Advance

/-! ## Runs -/

/-- What every step keeps that commits what the id of the row stands for. -/
structure Told (options : OutboxModuleOptions) (event : ReadableId → Payload) (s : State Payload) :
    Prop where
  claims : Claims options s
  world : s.world.Tells event
  threads : ∀ e, (s.threads e).Tells event s.world
  accepted : ∀ id ∈ s.world.accepted, (s.world.rows.row id).isSome

theorem accepted_holding {th : Thread Payload} {o : Outcome} {copy : OutboxRecord Payload}
    (h : th.accepted o = some copy) : th.holding = some copy.id ∧ copy ∈ th.records := by
  cases th with
  | publish copy' rest =>
    cases o with
    | ok =>
      cases h
      exact ⟨rfl, .head _⟩
    | fails error written =>
      cases written <;> cases h
      exact ⟨rfl, .head _⟩
  | _ => cases h

theorem row_isSome {w : World Payload} {id : ReadableId} :
    (w.rows.row id).isSome ↔ ∃ status, w.statusOf id = some status := by
  rw [World.statusOf]
  cases w.rows.row id <;> simp

/-- An execution neither makes rows nor deletes any. -/
theorem advance_row {w w' : World Payload} {th th' : Thread Payload} {o : Outcome}
    (h : advance options w th o = some (w', th'))
    (hheld : ∀ k, th.holding = some k → (w.rows.row k).isSome) (id : ReadableId) :
    (w'.rows.row id).isSome ↔ (w.rows.row id).isSome := by
  rcases advance_effect h with ⟨hrows, _⟩ | ⟨k, _, hpending, hrows, _⟩ |
    ⟨copy, rest, hsaves, hrows, _⟩ | ⟨k, _, hrows, _⟩
  · rw [hrows]
  · rw [row_isSome, row_isSome, statusOf_congr hrows, claimRow_statusOf hpending]
    split
    · next heq =>
      rw [heq]
      exact iff_of_true ⟨_, rfl⟩ ⟨_, hpending⟩
    · rfl
  · have hcopy : (w.rows.row copy.id).isSome := hheld copy.id (by rcases hsaves with rfl | rfl <;> rfl)
    rw [hrows, save_row]
    split
    · next heq =>
      rw [heq]
      exact iff_of_true rfl hcopy
    · rfl
  · rw [hrows]

section Step
variable {s s' : State Payload}

theorem Told.spawn (hs : Told options event s) {th : Thread Payload} (hc : Claims options (s.spawn th))
    (hth : th.Tells event s.world) : Told options event (s.spawn th) := by
  refine ⟨hc, hs.world, fun e => ?_, hs.accepted⟩
  simp only [State.spawn, Function.update_apply]
  split
  · exact hth
  · exact hs.threads e

/-- What an execution holds is a row. -/
theorem Told.held_row (hs : Told options event s) (e : ℕ) (k : ReadableId)
    (hk : (s.threads e).holding = some k) : (s.world.rows.row k).isSome := by
  rw [row_isSome]
  rcases hs.claims.held e k hk with hstatus | hstatus <;> exact ⟨_, hstatus⟩

theorem step_told {l : Label Payload} (hs : Told options event s) (hl : commits event s l)
    (h : step options s l = some s') : Told options event s' := by
  have hclaims := (step_claims hs.claims h).1
  cases l with
  | tick ms =>
    cases h
    exact ⟨hclaims, ⟨hs.world.rows, hs.world.published⟩,
      fun e => ⟨(hs.threads e).records, (hs.threads e).published⟩, hs.accepted⟩
  | commit id payload =>
    simp only [step] at h
    split at h <;> cases h
    refine ⟨hclaims, hs.world.save hl fun hpublished => by (cases hpublished),
      fun e => (hs.threads e).mono fun _ h => h, fun id' hid' => ?_⟩
    rw [save_row]
    split
    · rfl
    · exact hs.accepted id' hid'
  | publishMany ids =>
    cases h
    have hrecords : ∀ copy ∈ (Rest.ids ids : Rest Payload).records, copy.payload = event copy.id :=
      List.forall_mem_nil _
    exact hs.spawn hclaims (next_tells hrecords s.world)
  | publishPendingBatch =>
    cases h
    exact hs.spawn hclaims ⟨List.forall_mem_nil _, fun _ hid => by cases hid⟩
  | run e o =>
    obtain ⟨th', hadv, -, hthreads⟩ := step_run h
    have haccepted := advance_accepts hadv
    obtain ⟨hworld, hth'⟩ := advance_tells hadv (hs.claims.decided e) hs.world (hs.threads e)
    have hheld := hs.held_row e
    refine ⟨hclaims, hworld, fun e' => ?_, fun id hid => ?_⟩
    · rw [hthreads]
      split
      · exact hth'
      · refine (hs.threads e').mono fun id hid => ?_
        rw [haccepted]
        exact List.mem_append_left _ hid
    · rw [haccepted] at hid
      rcases List.mem_append.mp hid with hold | hnew
      · exact (advance_row hadv hheld id).mpr (hs.accepted id hold)
      · obtain ⟨copy, hcopy, rfl⟩ := Option.map_eq_some_iff.mp (Option.mem_toList.mp hnew)
        exact (advance_row hadv hheld _).mpr (hheld _ (accepted_holding hcopy).1)
  | crash e =>
    cases h
    refine ⟨hclaims, hs.world, fun e' => ?_, hs.accepted⟩
    simp only [Function.update_apply]
    split
    · exact done_tells _
    · exact hs.threads e'

/-- Rows are made by commits, and stay. -/
theorem step_row {l : Label Payload} (hs : Told options event s)
    (h : step options s l = some s') (id : ReadableId) :
    (s'.world.rows.row id).isSome ↔ (s.world.rows.row id).isSome ∨ ∃ payload, l = .commit id payload := by
  cases l with
  | commit id' payload =>
    simp only [step] at h
    split at h <;> cases h
    rw [save_row]
    split
    · next heq => exact iff_of_true rfl (Or.inr ⟨payload, by rw [heq]; rfl⟩)
    · next hne =>
      refine (or_iff_left ?_).symm
      rintro ⟨payload', heq⟩
      cases heq
      exact hne rfl
  | run e o =>
    obtain ⟨th', hadv, -⟩ := step_run h
    rw [advance_row hadv (hs.held_row e) id]
    simp
  | _ =>
    cases h
    simp [State.spawn]

theorem initial_told (options : OutboxModuleOptions) (event : ReadableId → Payload) :
    Told options event initial where
  claims := claims_initial
  world := ⟨fun _ _ hrow => by (cases hrow), fun _ hid => by cases hid⟩
  threads := fun _ => done_tells _
  accepted := List.forall_mem_nil _

end Step

end Bumpa.Outbox
