import Bumpa.Purchases.PurchaseService
import Bumpa.Transition.Threads
import Mathlib.Data.List.Nodup

/-! # What concurrent calls keep

The ids of purchases are fresh, and a key is inserted only while no other open transaction and no
committed purchase has it. So committed purchases differ in their ids and in their keys, each has
its one outbox row, and a call that returns an id returns that of a committed purchase under its
own key (`Consistent`).

`Quiet` says what a step that commits nothing may do, `advance_cases` that every step of an
execution is a commit or quiet, and `step_cases` puts the labels of the system on top.
-/
namespace Bumpa.Purchases
open Bumpa.Events Bumpa.Relational Bumpa.Transition
set_option autoImplicit false

/-! ## What an execution has written -/

def Database.keys (db : Database) : List String := db.purchases.filterMap (·.idempotencyKey)

def Database.purchaseIds (db : Database) : List ReadableId := db.purchases.map (·.id)

def Tx.holding (tx : Tx) : Option String := tx.purchase.bind (·.idempotencyKey)

/-- The key whose purchase the open transaction has inserted. -/
def Thread.holding (th : Thread) : Option String := th.tx.bind (·.holding)

/-- The id of the purchase that the open transaction is for. -/
def Thread.creating : Thread → Option ReadableId
  | .transaction new _ _ => some new.purchaseId
  | _ => none

def Creation.Inserted (new : Creation) (tx : Tx) : Prop :=
  ∃ row, tx.purchase = some row ∧ row.id = new.purchaseId ∧
    row.idempotencyKey = new.call.idempotencyKey

def Pc.Wrote (new : Creation) (tx : Tx) : Pc → Prop
  | .selectUser | .insertUser | .updateUser _ => tx = Tx.begin
  | .insertPurchase => tx.purchase = none
  | .insertEvent => new.Inserted tx
  | .commit => new.Inserted tx ∧
    ∃ event, tx.outbox = some event ∧ event.payload.payload.purchaseId = new.purchaseId

/-- The purchase a call returns, or is about to find, is committed under the call's key; an amount
that was refused is out of range. -/
def Thread.Sound (db : Database) : Thread → Prop
  | .findExisting call key => call.idempotencyKey = some key
  | .transaction new tx pc => pc.Wrote new tx
  | .findWinner call key _ => call.idempotencyKey = some key ∧ key ∈ db.keys
  | .publish new =>
    ∃ row ∈ db.purchases, row.id = new.purchaseId ∧ row.idempotencyKey = new.call.idempotencyKey
  | .returned call purchaseId =>
    ∃ row ∈ db.purchases, row.id = purchaseId ∧ row.idempotencyKey = call.idempotencyKey
  | .rejected call error =>
    error.code = postgresNumericValueOutOfRange → ¬Int4.Fits call.dto.amountKobo
  | _ => True

theorem mem_keys {db : Database} {key : String} :
    key ∈ db.keys ↔ ∃ row ∈ db.purchases, row.idempotencyKey = some key :=
  List.mem_filterMap

theorem sameKey_iff {row row' : Purchase} : row.sameKey row' = true ↔
    ∃ key, row.idempotencyKey = some key ∧ row'.idempotencyKey = some key := by
  simp only [Purchase.sameKey, Option.any_eq_true, decide_eq_true_eq]

theorem any_sameKey {db : Database} {row : Purchase} :
    db.purchases.any row.sameKey = true ↔ ∃ key ∈ db.keys, row.idempotencyKey = some key := by
  simp only [List.any_eq_true, sameKey_iff, mem_keys]
  constructor
  · rintro ⟨row', hmem, key, hkey, hkey'⟩
    exact ⟨key, ⟨row', hmem, hkey'⟩, hkey⟩
  · rintro ⟨key, ⟨row', hmem, hkey'⟩, hkey⟩
    exact ⟨row', hmem, key, hkey, hkey'⟩

theorem find_eq_some {db : Database} {key : String} {row : Purchase}
    (h : db.findByIdempotencyKey key = some row) :
    row ∈ db.purchases ∧ row.idempotencyKey = some key :=
  ⟨List.mem_of_find?_eq_some h, by simpa using List.find?_some h⟩

theorem find_eq_none {db : Database} {key : String} :
    db.findByIdempotencyKey key = none ↔ key ∉ db.keys := by
  rw [Database.findByIdempotencyKey, List.find?_eq_none, mem_keys]
  simp

/-- The catch block recognises the constraint on the key, and none of the other errors. -/
theorem caught_eq (call : Call) (error : QueryFailedError) :
    call.caught error = .rejected call error ∨ ∃ key, call.idempotencyKey = some key ∧ key ≠ "" ∧
      isUniqueViolation error (some idempotencyKeyUniqueConstraint) = true ∧
        call.caught error = .findWinner call key error := by
  unfold Call.caught
  split
  · next key hkey =>
    split
    · next h => exact Or.inr ⟨key, hkey, h.1, h.2, rfl⟩
    · exact Or.inl rfl
  · exact Or.inl rfl

theorem recognises_key :
    isUniqueViolation (uniqueViolation idempotencyKeyUniqueConstraint)
      (some idempotencyKeyUniqueConstraint) = true := by decide +kernel

theorem recognises_user :
    isUniqueViolation (uniqueViolation usersPrimaryKey)
      (some idempotencyKeyUniqueConstraint) = false := by decide +kernel

theorem recognises_range (value : ℤ) :
    isUniqueViolation (integerOutOfRange value) (some idempotencyKeyUniqueConstraint) = false :=
  rfl

/-! ## What a statement does -/

/-- The results of the statement a transaction is about to issue. -/
inductive Issued (w : World) (others : List Tx) (new : Creation) (tx : Tx) :
    Pc → World → Thread → Prop
  | unknownUser : Issued w others new tx .selectUser w (.transaction new tx .insertUser)
  | sameUser : Issued w others new tx .selectUser w (.transaction new tx .insertPurchase)
  | changedUser (row : User) :
    Issued w others new tx .selectUser w (.transaction new tx (.updateUser row))
  | userTaken (row : User) (taken : w.db.users.row new.call.dto.userId = some row) :
    Issued w others new tx .insertUser w (new.call.caught (uniqueViolation usersPrimaryKey))
  | userInserted (user : User) (free : w.db.users.row new.call.dto.userId = none) :
    Issued w others new tx .insertUser w
      (.transaction new { tx with user := some user } .insertPurchase)
  | userUpdated (selected : User) (user : Option User) :
    Issued w others new tx (.updateUser selected) w
      (.transaction new { tx with user := user } .insertPurchase)
  | outOfRange (range : ¬Int4.Fits new.call.dto.amountKobo) :
    Issued w others new tx .insertPurchase w
      (new.call.caught (integerOutOfRange new.call.dto.amountKobo))
  | keyTaken {key : String} (range : Int4.Fits new.call.dto.amountKobo) (taken : key ∈ w.db.keys)
    (own : new.call.idempotencyKey = some key) : Issued w others new tx .insertPurchase w
      (new.call.caught (uniqueViolation idempotencyKeyUniqueConstraint))
  | purchaseInserted (row : Purchase) (range : Int4.Fits new.call.dto.amountKobo)
    (id : row.id = new.purchaseId) (own : row.idempotencyKey = new.call.idempotencyKey)
    (free : ∀ key, row.idempotencyKey = some key →
      key ∉ w.db.keys ∧ ∀ tx' ∈ others, tx'.holding ≠ some key) :
    Issued w others new tx .insertPurchase w
      (.transaction new { tx with purchase := some row } .insertEvent)
  | eventInserted (event : OutboxEvent) (id : event.payload.payload.purchaseId = new.purchaseId) :
    Issued w others new tx .insertEvent w
      (.transaction new { tx with outbox := some event } .commit)
  | committed : Issued w others new tx .commit (w.commit tx) (.publish new)

theorem statement_issued {w w' : World} {others : List Tx} {new : Creation} {tx : Tx} {pc : Pc}
    {th' : Thread} (h : statement w others new tx pc = some (w', th')) :
    Issued w others new tx pc w' th' := by
  cases pc with
  | selectUser =>
    simp only [statement] at h
    split at h
    · cases h
      exact .unknownUser
    · split at h
      · cases h
        exact .sameUser
      · cases h
        exact .changedUser _
  | insertUser =>
    simp only [statement] at h
    split at h
    · cases h
    · split at h
      · next row hrow =>
        cases h
        exact .userTaken row hrow
      · next hrow =>
        cases h
        exact .userInserted _ hrow
  | updateUser selected =>
    simp only [statement] at h
    split at h
    · cases h
    · split at h
      · cases h
        exact .userUpdated selected tx.user
      · cases h
        exact .userUpdated selected _
  | insertPurchase =>
    simp only [statement] at h
    split at h
    · next hrange =>
      cases h
      exact .outOfRange (Int4.ofInt?_eq_none_iff.mp hrange)
    · next amountKobo hrange =>
      split at h
      · cases h
      · next hfree =>
        split at h
        · next htaken =>
          cases h
          obtain ⟨key, hmem, hkey⟩ := any_sameKey.mp htaken
          exact .keyTaken (Int4.fits_of_ofInt? hrange) hmem hkey
        · next hnew =>
          cases h
          refine .purchaseInserted _ (Int4.fits_of_ofInt? hrange) rfl rfl fun key hkey => ⟨?_, ?_⟩
          · intro hmem
            exact hnew (any_sameKey.mpr ⟨key, hmem, hkey⟩)
          · intro tx' hmem hholding
            obtain ⟨row, hrow, hkey'⟩ := Option.bind_eq_some_iff.mp hholding
            exact hfree (List.any_eq_true.mpr ⟨tx', hmem, (Option.any_eq_true _ _).mpr
              ⟨row, hrow, sameKey_iff.mpr ⟨key, hkey, hkey'⟩⟩⟩)
  | insertEvent =>
    cases h
    exact .eventInserted _ rfl
  | commit =>
    cases h
    exact .committed

/-! ## One step of an execution -/

/-- A step that commits nothing: it begins a purchase with a fresh id, inserts one under a key
that is neither committed nor held, or does neither. -/
structure Quiet (w w' : World) (others : List Tx) (th th' : Thread) : Prop where
  db : w'.db = w.db
  nextId : w.nextId ≤ w'.nextId
  creating : ∀ id, th'.creating = some id → th.creating = some id ∨ w.nextId ≤ id ∧ id < w'.nextId
  holding : ∀ key, th'.holding = some key → th.holding = some key ∨
    key ∉ w.db.keys ∧ ∀ tx ∈ others, tx.holding ≠ some key
  sound : th.Sound w.db → th'.Sound w.db

/-- The execution goes on outside a transaction, or ends. -/
theorem Quiet.outside {w : World} {others : List Tx} {th th' : Thread}
    (htx : th'.tx = none) (hcreating : th'.creating = none)
    (hsound : th.Sound w.db → th'.Sound w.db) : Quiet w w others th th' where
  db := rfl
  nextId := Nat.le_refl _
  creating := fun id h => by cases hcreating.symm.trans h
  holding := fun key h => by
    rw [Thread.holding, htx] at h
    cases h
  sound := hsound

theorem Quiet.failed {w : World} {others : List Tx} {th : Thread} (call : Call) :
    Quiet w w others th (.failed call) :=
  Quiet.outside rfl rfl fun _ => trivial

/-- The transaction goes on with the purchase that it had. -/
theorem Quiet.same {w : World} {others : List Tx} {new : Creation} {tx tx' : Tx} {pc pc' : Pc}
    (hpurchase : tx'.purchase = tx.purchase) (hwrote : pc.Wrote new tx → pc'.Wrote new tx') :
    Quiet w w others (.transaction new tx pc) (.transaction new tx' pc') where
  db := rfl
  nextId := Nat.le_refl _
  creating := fun _ h => Or.inl h
  holding := fun key h => Or.inl (by
    rw [← h]
    exact congrArg (Option.bind · (·.idempotencyKey)) hpurchase.symm)
  sound := hwrote

theorem Quiet.begin (w : World) (others : List Tx) {th : Thread} (call : Call) :
    Quiet w (w.begin call).1 others th (w.begin call).2 where
  db := rfl
  nextId := Nat.le_add_right _ _
  creating := fun id h => by
    cases h
    exact Or.inr ⟨Nat.le_refl _, Nat.lt_add_of_pos_right (by decide)⟩
  holding := fun key h => by cases h
  sound := fun _ => rfl

theorem Quiet.caught {w : World} {others : List Tx} {th : Thread} {call : Call}
    {error : QueryFailedError}
    (htaken : isUniqueViolation error (some idempotencyKeyUniqueConstraint) = true →
      ∀ key, call.idempotencyKey = some key → key ∈ w.db.keys)
    (hrange : error.code = postgresNumericValueOutOfRange → ¬Int4.Fits call.dto.amountKobo) :
    Quiet w w others th (call.caught error) := by
  rcases caught_eq call error with hrejected | ⟨key, hkey, _, hunique, hfind⟩
  · rw [hrejected]
    exact Quiet.outside rfl rfl fun _ => hrange
  · rw [hfind]
    exact Quiet.outside rfl rfl fun _ => ⟨hkey, htaken hunique key hkey⟩

theorem createPurchase_quiet (w : World) (others : List Tx) (call : Call) :
    Quiet w (w.createPurchase call).1 others .idle (w.createPurchase call).2 := by
  unfold World.createPurchase
  split
  · next key hkey =>
    split
    · exact Quiet.begin w others call
    · exact Quiet.outside rfl rfl fun _ => hkey
  · exact Quiet.begin w others call

theorem statement_quiet {w w' : World} {others : List Tx} {new : Creation} {tx : Tx} {pc : Pc}
    {th' : Thread} (h : Issued w others new tx pc w' th') (hpc : pc ≠ .commit) :
    Quiet w w' others (.transaction new tx pc) th' := by
  cases h with
  | unknownUser => exact Quiet.same rfl id
  | sameUser => exact Quiet.same rfl fun hwrote => congrArg Tx.purchase hwrote
  | changedUser row => exact Quiet.same rfl id
  | userTaken _ _ =>
    refine Quiet.caught (fun hunique => ?_) fun hcode => absurd hcode (by decide)
    rw [recognises_user] at hunique
    cases hunique
  | userInserted user _ => exact Quiet.same rfl fun hwrote => congrArg Tx.purchase hwrote
  | userUpdated selected user => exact Quiet.same rfl fun hwrote => congrArg Tx.purchase hwrote
  | outOfRange hrange =>
    refine Quiet.caught (fun hunique => ?_) fun _ => hrange
    rw [recognises_range] at hunique
    cases hunique
  | keyTaken _ hmem hkey =>
    refine Quiet.caught (fun _ key hkey' => ?_) fun hcode => absurd hcode (by decide)
    cases hkey.symm.trans hkey'
    exact hmem
  | purchaseInserted row _ hid hkey hfree =>
    exact ⟨rfl, Nat.le_refl _, fun _ h => Or.inl h, fun key h => Or.inr (hfree key h),
      fun _ => ⟨row, rfl, hid, hkey⟩⟩
  | eventInserted event hid => exact Quiet.same rfl fun hwrote => ⟨hwrote, event, rfl, hid⟩
  | committed => exact absurd rfl hpc

/-- A statement that fails ends the call, and may have been the COMMIT. -/
theorem advance_fails {w w' : World} {others : List Tx} {th th' : Thread} {written : Bool}
    (h : advance w others th (.fails written) = some (w', th')) :
    ∃ call, th.running = some call ∧ th' = .failed call ∧
      ((∃ new tx, th = .transaction new tx .commit ∧ w' = w.commit tx) ∨ w' = w) := by
  cases th with
  | transaction new tx pc =>
    refine ⟨new.call, rfl, ?_⟩
    cases pc <;> cases written <;> cases h <;> simp
  | findExisting call _ | findWinner call _ _ =>
    cases h
    exact ⟨call, rfl, rfl, Or.inr rfl⟩
  | publish new =>
    cases h
    exact ⟨new.call, rfl, rfl, Or.inr rfl⟩
  | _ => cases h

theorem advance_cases {w w' : World} {others : List Tx} {th th' : Thread} {o : Outcome}
    (h : advance w others th o = some (w', th')) :
    (∃ new tx, th = .transaction new tx .commit ∧ w' = w.commit tx ∧
      (th' = .publish new ∨ th' = .failed new.call)) ∨ Quiet w w' others th th' := by
  cases o with
  | ok =>
    cases th with
    | findExisting call key =>
      refine Or.inr ?_
      simp only [advance] at h
      split at h
      · next existing hfind =>
        cases h
        obtain ⟨hmem, hkey⟩ := find_eq_some hfind
        exact Quiet.outside rfl rfl fun hs => ⟨existing, hmem, rfl, hkey.trans hs.symm⟩
      · cases h
        exact Quiet.begin w others call
    | transaction new tx pc =>
      by_cases hpc : pc = .commit
      · subst hpc
        cases h
        exact Or.inl ⟨new, tx, rfl, rfl, Or.inl rfl⟩
      · exact Or.inr (statement_quiet (statement_issued h) hpc)
    | findWinner call key error =>
      refine Or.inr ?_
      simp only [advance] at h
      split at h
      · next existing hfind =>
        cases h
        obtain ⟨hmem, hkey⟩ := find_eq_some hfind
        exact Quiet.outside rfl rfl fun hs => ⟨existing, hmem, rfl, hkey.trans hs.1.symm⟩
      · next hnone =>
        cases h
        exact Quiet.outside rfl rfl fun hs => absurd hs.2 (find_eq_none.mp hnone)
    | publish new =>
      cases h
      exact Or.inr ⟨rfl, Nat.le_refl _, fun _ h => (by cases h), fun _ h => (by cases h), id⟩
    | _ => cases h
  | fails written =>
    obtain ⟨call, hrunning, rfl, ⟨new, tx, rfl, rfl⟩ | rfl⟩ := advance_fails h
    · cases hrunning
      exact Or.inl ⟨new, tx, rfl, rfl, Or.inr rfl⟩
    · exact Or.inr (Quiet.failed call)

/-! ## The system -/

structure Consistent (s : State) : Prop where
  beyond : ∀ e, s.nextThread ≤ e → s.threads e = .idle
  sound : ∀ e, (s.threads e).Sound s.world.db
  creating : ∀ e id, (s.threads e).creating = some id →
    id < s.world.nextId ∧ id ∉ s.world.db.purchaseIds
  creators : ∀ e e' id, (s.threads e).creating = some id → (s.threads e').creating = some id → e = e'
  created : ∀ id ∈ s.world.db.purchaseIds, id < s.world.nextId
  holding : ∀ e key, (s.threads e).holding = some key → key ∉ s.world.db.keys
  holders : ∀ e e' key, (s.threads e).holding = some key → (s.threads e').holding = some key → e = e'
  keys : s.world.db.keys.Nodup
  purchaseIds : s.world.db.purchaseIds.Nodup
  announced : s.world.db.outbox.map (·.payload.payload.purchaseId) = s.world.db.purchaseIds

theorem initial_consistent : Consistent initial where
  beyond := fun _ _ => rfl
  sound := fun _ => trivial
  creating := fun _ _ h => by cases h
  creators := fun _ _ _ h => by cases h
  created := fun _ h => by cases h
  holding := fun _ _ h => by cases h
  holders := fun _ _ _ h => by cases h
  keys := List.nodup_nil
  purchaseIds := List.nodup_nil
  announced := rfl

theorem mem_others {s : State} {e e' : ℕ} {tx : Tx} (hs : Consistent s) (hne : e' ≠ e)
    (htx : (s.threads e').tx = some tx) : tx ∈ s.others e := by
  refine List.mem_filterMap.mpr ⟨e', List.mem_range.mpr ?_, by rw [if_neg hne, htx]⟩
  refine Nat.lt_of_not_le fun hle => ?_
  rw [hs.beyond e' hle] at htx
  cases htx

theorem of_mem_others {s : State} {e : ℕ} {tx : Tx} (h : tx ∈ s.others e) :
    ∃ e' new pc, s.threads e' = .transaction new tx pc := by
  obtain ⟨e', _, htx⟩ := List.mem_filterMap.mp h
  split at htx
  · cases htx
  · refine ⟨e', ?_⟩
    cases hth : s.threads e' with
    | transaction new tx' pc =>
      rw [hth] at htx
      cases htx
      exact ⟨new, pc, rfl⟩
    | _ => simp [hth, Thread.tx] at htx

/-- Every step is one of a single execution: a commit, or quiet. -/
theorem step_cases {s s' : State} {l : Label} (hs : Consistent s) (h : step s l = some s') :
    ∃ e th', (∀ e', s'.threads e' = if e' = e then th' else s.threads e') ∧
      s.nextThread ≤ s'.nextThread ∧ e < s'.nextThread ∧
      ((∃ new tx, s.threads e = .transaction new tx .commit ∧ s'.world = s.world.commit tx ∧
          (th' = .publish new ∨ th' = .failed new.call)) ∨
        Quiet s.world s'.world (s.others e) (s.threads e) th') := by
  have hstarted : ∀ e, s.threads e ≠ .idle → e < s.nextThread := fun e hidle =>
    Nat.lt_of_not_le fun hle => hidle (hs.beyond e hle)
  cases l with
  | call call =>
    cases h
    refine ⟨s.nextThread, (s.world.createPurchase call).2, fun e' => Function.update_apply _ _ _ _,
      Nat.le_succ _, Nat.lt_succ_self _, Or.inr ?_⟩
    rw [hs.beyond _ (Nat.le_refl _)]
    exact createPurchase_quiet s.world _ call
  | run e o =>
    obtain ⟨th', hadv, hnext, hthreads⟩ := step_run h
    have hidle : s.threads e ≠ .idle := by
      intro hidle
      rw [hidle] at hadv
      cases o <;> cases hadv
    exact ⟨e, th', hthreads, hnext.ge, hnext ▸ hstarted e hidle, advance_cases hadv⟩
  | crash e =>
    obtain ⟨call, hcall, rfl⟩ := Option.map_eq_some_iff.mp h
    have hidle : s.threads e ≠ .idle := by
      intro hidle
      rw [hidle] at hcall
      cases hcall
    exact ⟨e, .failed call, fun e' => Function.update_apply _ _ _ _, Nat.le_refl _,
      hstarted e hidle, Or.inr (Quiet.failed call)⟩

section Step
variable {s s' : State} {e : ℕ} {th' : Thread}
  (hthreads : ∀ e', s'.threads e' = if e' = e then th' else s.threads e')

include hthreads in
theorem beyond_of_started (hs : Consistent s) (hle : s.nextThread ≤ s'.nextThread)
    (he : e < s'.nextThread) : ∀ e', s'.nextThread ≤ e' → s'.threads e' = .idle := by
  intro e' hle'
  rw [hthreads, if_neg (by omega)]
  exact hs.beyond e' (Nat.le_trans hle hle')

include hthreads in
theorem quiet_consistent (hs : Consistent s)
    (hbeyond : ∀ e', s'.nextThread ≤ e' → s'.threads e' = .idle)
    (hquiet : Quiet s.world s'.world (s.others e) (s.threads e) th') : Consistent s' := by
  refine ⟨hbeyond, fun e' => ?_, fun e' id h => ?_, ?_, fun id hid => ?_, fun e' key h => ?_, ?_,
    ?_, ?_, ?_⟩
  · rw [hquiet.db, hthreads]
    split
    · exact hquiet.sound (hs.sound e)
    · exact hs.sound e'
  · have hlt := hquiet.nextId
    have hkept : ∀ e', (s.threads e').creating = some id →
        id < s'.world.nextId ∧ id ∉ s.world.db.purchaseIds := fun e' hold =>
      ⟨Nat.lt_of_lt_of_le (hs.creating e' id hold).1 hlt, (hs.creating e' id hold).2⟩
    rw [hthreads] at h
    rw [hquiet.db]
    split at h
    · rcases hquiet.creating id h with hsame | ⟨hfresh, hbound⟩
      · exact hkept e hsame
      · exact ⟨hbound, fun hmem => absurd (hs.created id hmem) (Nat.not_lt_of_le hfresh)⟩
    · exact hkept e' h
  · refine owner_unique hthreads hs.creators fun id h => ?_
    rcases hquiet.creating id h with hsame | ⟨hfresh, _⟩
    · exact Or.inl hsame
    · exact Or.inr fun e' _ hold => absurd (hs.creating e' id hold).1 (Nat.not_lt_of_le hfresh)
  · rw [hquiet.db] at hid
    exact Nat.lt_of_lt_of_le (hs.created id hid) hquiet.nextId
  · rw [hthreads] at h
    rw [hquiet.db]
    split at h
    · rcases hquiet.holding key h with hsame | ⟨hnew, _⟩
      · exact hs.holding e key hsame
      · exact hnew
    · exact hs.holding e' key h
  · refine owner_unique hthreads hs.holders fun key h => ?_
    rcases hquiet.holding key h with hsame | ⟨_, hfree⟩
    · exact Or.inl hsame
    · refine Or.inr fun e' hne hold => ?_
      obtain ⟨tx, htx, hkey⟩ := Option.bind_eq_some_iff.mp hold
      exact hfree tx (mem_others hs hne htx) hkey
  · rw [hquiet.db]
    exact hs.keys
  · rw [hquiet.db]
    exact hs.purchaseIds
  · rw [hquiet.db]
    exact hs.announced

/-- Purchases are only added. -/
theorem Thread.Sound.mono {db db' : Database} {th : Thread} (h : th.Sound db)
    (hle : db.purchases ⊆ db'.purchases) : th.Sound db' := by
  cases th with
  | findWinner call key error =>
    obtain ⟨hkey, hmem⟩ := h
    obtain ⟨row, hrow, hkey'⟩ := mem_keys.mp hmem
    exact ⟨hkey, mem_keys.mpr ⟨row, hle hrow, hkey'⟩⟩
  | publish new =>
    obtain ⟨row, hrow, hrest⟩ := h
    exact ⟨row, hle hrow, hrest⟩
  | returned call purchaseId =>
    obtain ⟨row, hrow, hrest⟩ := h
    exact ⟨row, hle hrow, hrest⟩
  | _ => exact h

include hthreads in
theorem commit_consistent (hs : Consistent s) {new : Creation} {tx : Tx}
    (hbeyond : ∀ e', s'.nextThread ≤ e' → s'.threads e' = .idle)
    (hth : s.threads e = .transaction new tx .commit) (hw : s'.world = s.world.commit tx)
    (hth' : th' = .publish new ∨ th' = .failed new.call) : Consistent s' := by
  have hwrote := hs.sound e
  have hid : (s.threads e).creating = some new.purchaseId := by rw [hth]; rfl
  have hholding : (s.threads e).holding = tx.holding := by rw [hth]; rfl
  rw [hth] at hwrote
  obtain ⟨⟨row, hrow, hrowId, hrowKey⟩, event, hevent, heventId⟩ := hwrote
  have hpurchases : s'.world.db.purchases = s.world.db.purchases ++ [row] := by
    rw [hw, World.commit, Tx.view, hrow]
    rfl
  have hids : s'.world.db.purchaseIds = s.world.db.purchaseIds ++ [new.purchaseId] := by
    rw [Database.purchaseIds, hpurchases, List.map_append, ← hrowId]
    rfl
  have hkeys : s'.world.db.keys = s.world.db.keys ++ tx.holding.toList := by
    rw [Database.keys, hpurchases, List.filterMap_append, Tx.holding, hrow]
    cases hkey : row.idempotencyKey <;> simp [Database.keys, hkey]
  have houtbox : s'.world.db.outbox = s.world.db.outbox ++ [event] := by
    rw [hw, World.commit, Tx.view, hevent]
    rfl
  have hnext : s'.world.nextId = s.world.nextId := by rw [hw]; rfl
  have hplain : th'.creating = none ∧ th'.holding = none := by
    rcases hth' with rfl | rfl <;> exact ⟨rfl, rfl⟩
  obtain ⟨hlt, hnew⟩ := hs.creating e new.purchaseId hid
  refine ⟨hbeyond, fun e' => ?_, fun e' id h => ?_, ?_, fun id h => ?_, fun e' key h => ?_, ?_, ?_,
    ?_, ?_⟩
  · rw [hthreads]
    split
    · rcases hth' with rfl | rfl
      · refine ⟨row, ?_, hrowId, hrowKey⟩
        rw [hpurchases]
        exact List.mem_append_right _ List.mem_cons_self
      · trivial
    · refine (hs.sound e').mono ?_
      rw [hpurchases]
      exact List.subset_append_left _ _
  · rw [hthreads] at h
    split at h
    · cases hplain.1.symm.trans h
    · next hne =>
      obtain ⟨hlt', hnotin⟩ := hs.creating e' id h
      rw [hnext, hids, List.mem_append, List.mem_singleton, not_or]
      exact ⟨hlt', hnotin, fun heq => hne (hs.creators e' e id h (heq ▸ hid))⟩
  · exact owner_unique hthreads hs.creators fun id h => by cases hplain.1.symm.trans h
  · rw [hids, List.mem_append, List.mem_singleton] at h
    rw [hnext]
    rcases h with hold | rfl
    · exact hs.created id hold
    · exact hlt
  · rw [hthreads] at h
    split at h
    · cases hplain.2.symm.trans h
    · next hne =>
      rw [hkeys, List.mem_append, Option.mem_toList, not_or]
      exact ⟨hs.holding e' key h, fun hkey => hne (hs.holders e' e key h (hholding.trans hkey))⟩
  · exact owner_unique hthreads hs.holders fun key h => by cases hplain.2.symm.trans h
  · rw [hkeys]
    cases hkey : tx.holding with
    | none => simpa using hs.keys
    | some key =>
      rw [Option.toList_some, ← List.concat_eq_append, List.nodup_concat]
      exact ⟨hs.holding e key (hholding.trans hkey), hs.keys⟩
  · rw [hids, ← List.concat_eq_append, List.nodup_concat]
    exact ⟨hnew, hs.purchaseIds⟩
  · rw [houtbox, hids, List.map_append, hs.announced, List.map_singleton, heventId]

end Step

theorem step_consistent {s s' : State} {l : Label} (hs : Consistent s) (h : step s l = some s') :
    Consistent s' := by
  obtain ⟨e, th', hthreads, hle, he, ⟨new, tx, hth, hw, hth'⟩ | hquiet⟩ := step_cases hs h
  · exact commit_consistent hthreads hs (beyond_of_started hthreads hs hle he) hth hw hth'
  · exact quiet_consistent hthreads hs (beyond_of_started hthreads hs hle he) hquiet

theorem reaches_consistent {tr : List (Move State Label)} {s : State} (h : Reaches tr s) :
    Consistent s :=
  Run.invariant Consistent (fun _ _ _ hs hstep => step_consistent hs hstep) h initial_consistent

end Bumpa.Purchases
