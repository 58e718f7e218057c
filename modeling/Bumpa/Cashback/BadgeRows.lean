import Bumpa.Cashback.Attempts

/-! # Which transaction a badge of a user has

A transaction id and the badge it is for go together: a handler draws the id when it finds no row
of the badge, and from then on every row and every copy of a row names the two together (`Names`).
A copy without a row belongs to a handler that may still insert it (`Thread.Holds`): it has not
saved yet, or it holds the lock on the unique pair. While somebody holds that lock the badge has no
row, so a badge never has two.
-/
namespace Bumpa.Cashback
open Bumpa.Events Bumpa.Relational Bumpa.Transition
set_option autoImplicit false

/-- The unique pair of the row. -/
def CashbackTransaction.badge (t : CashbackTransaction) : String × String := (t.userId, t.badgeName)

/-- The pair an event is about. -/
def badgeOf (event : BadgeUnlockedEvent) : String × String :=
  (event.payload.user.id, event.payload.badgeName)

def World.badgeOf (w : World) (k : ReadableId) : Option (String × String) :=
  (w.row k).map CashbackTransaction.badge

/-- The copy of a row that the thread works with. -/
def Thread.loaded : Thread → Option CashbackTransaction
  | .payment _ (.claim t) => some t
  | th => th.copy

/-- A handler past its read: its event and the transaction it saves. -/
def Thread.handled : Thread → Option (BadgeUnlockedEvent × CashbackTransaction)
  | .badge (.save event t _) => some (event, t)
  | .badge (.findMarker event t) => some (event, t)
  | .badge (.insertMarker event t) => some (event, t)
  | .badge (.enqueue event t) => some (event, t)
  | .badge (.commit event t) => some (event, t)
  | _ => none

def World.locksBadge (w : World) (e : ℕ) (badge : String × String) : Prop :=
  w.db.locks (.badge badge.1 badge.2) = some e

/-- Thread `e` may still insert its copy. -/
def Thread.Holds (w : World) (e : ℕ) : Thread → Prop
  | .badge (.save _ _ isNew) => isNew = true
  | .badge (.findMarker _ t) => w.locksBadge e t.badge
  | .badge (.insertMarker _ t) => w.locksBadge e t.badge
  | .badge (.enqueue _ t) => w.locksBadge e t.badge
  | .badge (.commit _ t) => w.locksBadge e t.badge
  | _ => False

/-- A row or a copy names the transaction and its badge together. -/
def State.Names (s : State) (k : ReadableId) (badge : String × String) : Prop :=
  s.world.badgeOf k = some badge ∨
    ∃ e t, (s.threads e).loaded = some t ∧ t.id = k ∧ t.badge = badge

theorem badgeOf_isSome {w : World} {k : ReadableId} :
    (w.badgeOf k).isSome = (w.row k).isSome := Option.isSome_map ..

theorem exists_badgeOf {w : World} {k : ReadableId} (h : (w.row k).isSome) :
    ∃ badge, w.badgeOf k = some badge :=
  Option.isSome_iff_exists.mp (by rwa [badgeOf_isSome])

theorem badgeOf_of_row {w : World} {k : ReadableId} {row : CashbackTransaction}
    (h : w.row k = some row) : w.badgeOf k = some row.badge := by
  rw [World.badgeOf, h, Option.map_some]

theorem findByBadge_eq_none {w : World} {badge : String × String}
    (h : w.findByBadge badge.1 badge.2 = none) (k : ReadableId) : w.badgeOf k ≠ some badge := by
  intro hk
  obtain ⟨row, hrow, rfl⟩ := Option.map_eq_some_iff.mp hk
  have hno := Table.find?_eq_none h hrow
  simp [CashbackTransaction.badge] at hno

/-! ## Locks -/

/-- What only `handleBadgeUnlocked` writes: its locks, and the marks of processed events. -/
def Database.marks (db : Database) : (LockKey → Option ℕ) × List ReadableId :=
  (db.locks, db.processedEvents)

theorem storeResult_marks (w : World) (r : PaymentRun) (t : CashbackTransaction)
    (account : PayoutAccount) (result : CashbackPaymentResult) :
    (w.storeResult r t account result).db.marks = w.db.marks := by
  unfold World.storeResult
  split <;> split <;> rfl

theorem processPayment_marks {cfg : Config} {w w' : World} {e : ℕ} {r : PaymentRun}
    {pc : PaymentPc} {o : Outcome} {th' : Thread}
    (h : processPayment cfg w e r pc o = some (w', th')) : w'.db.marks = w.db.marks := by
  have hclaim : ∀ k reference,
      ((w.drawIds 1).claimTransaction k reference).db.marks = w.db.marks := fun _ _ => rfl
  have hreset : (w.resetTransaction r.transactionId).db.marks = w.db.marks := rfl
  have hfailure : ∀ t failure, (w.storeFailure cfg r t failure).db.marks = w.db.marks :=
    fun _ _ => rfl
  have hsave : ∀ account, (w.saveAccount account).db.marks = w.db.marks := fun _ => rfl
  cases pc
  all_goals
    simp only [processPayment, findTransaction, claim, findAccount, saveAccount, sendCashback,
      initiateTransfer, receive, store, publish, recover, publishFailure] at h
    grind [failJob_db, completeJob_db, storeResult_marks, drawIds_db, createRecipient_db,
      acceptTransfer_db]

theorem advance_marks {cfg : Config} {w w' : World} {e : ℕ} {th th' : Thread} {o : Outcome}
    (h : advance cfg w e th o = some (w', th')) (hth : ∀ pc, th ≠ .badge pc) :
    w'.db.marks = w.db.marks := by
  cases th with
  | done => cases h
  | badge pc => exact absurd rfl (hth pc)
  | payment r pc => exact processPayment_marks h
  | retry caller k event pc =>
    have hrevive : (w.reviveTransaction k).db.marks = w.db.marks := rfl
    simp only [advance] at h
    unfold retryPayment at h
    grind [addJob_db]
  | manual pc =>
    have hsave : ∀ account, (w.saveAccount account).db.marks = w.db.marks := fun _ => rfl
    have hreset : ∀ k, (w.resetRetryCount k).db.marks = w.db.marks := fun _ => rfl
    simp only [advance] at h
    unfold retryFailedTransaction at h
    grind [drawIds_db]
  | scan pc => rw [(retryEligibleFailedTransactions_world h).1]
  | webhook hook pc =>
    have hstore : ∀ t, (w.storeWebhook hook t).db.marks = w.db.marks := fun _ => rfl
    simp only [advance] at h
    unfold handleWebhook at h
    grind [notifyTransfer_db]

/-- Only `handleBadgeUnlocked` takes and releases locks. -/
theorem advance_locks {cfg : Config} {w w' : World} {e : ℕ} {th th' : Thread} {o : Outcome}
    (h : advance cfg w e th o = some (w', th')) (hth : ∀ pc, th ≠ .badge pc) :
    w'.db.locks = w.db.locks :=
  congrArg Prod.fst (advance_marks h hth)

theorem unlock_locks_iff (w : World) (e : ℕ) (key : LockKey) (e' : ℕ) :
    (w.unlock e).db.locks key = some e' ↔ w.db.locks key = some e' ∧ e' ≠ e := by
  simp only [World.unlock]
  split
  · next heq => simp [heq, eq_comm]
  · next hne =>
    constructor
    · intro h
      exact ⟨h, fun he => hne (he ▸ h)⟩
    · exact fun h => h.1

theorem lock_locks (w : World) (e : ℕ) (key key' : LockKey) :
    (w.lock e key).db.locks key' = if key' = key then some e else w.db.locks key' := by
  simp only [World.lock, Function.update_apply]

theorem commitBadge_locks (w : World) (e : ℕ) (event : BadgeUnlockedEvent)
    (t : CashbackTransaction) : (w.commitBadge e event t).db.locks = (w.unlock e).db.locks := by
  unfold World.commitBadge
  split <;> split <;> rfl

/-- A lock is taken when nobody has it, and a handler releases its own. -/
theorem handleBadgeUnlocked_locks {cfg : Config} {w w' : World} {e : ℕ} {pc : BadgePc}
    {o : Outcome} {th' : Thread} (h : handleBadgeUnlocked cfg w e pc o = some (w', th'))
    {key : LockKey} {e' : ℕ} (he : e' ≠ e) :
    w'.db.locks key = some e' ↔ w.db.locks key = some e' := by
  have hunlock : ∀ v : World, (v.unlock e).db.locks key = some e' ↔ v.db.locks key = some e' := by
    intro v
    rw [unlock_locks_iff]
    exact and_iff_left he
  have hlock : ∀ key', w.db.locks key' = none →
      ((w.lock e key').db.locks key = some e' ↔ w.db.locks key = some e') := by
    intro key' hfree
    rw [lock_locks]
    split
    · next heq =>
      subst heq
      rw [hfree]
      simp [Ne.symm he]
    · rfl
  unfold handleBadgeUnlocked at h
  grind [commitBadge_locks, drawIds_db, addJob_db, World.rowFree]

/-- A handler that takes the lock on a badge finds no row of it. -/
theorem handleBadgeUnlocked_takes {cfg : Config} {w w' : World} {e : ℕ} {pc : BadgePc}
    {o : Outcome} {th' : Thread} (h : handleBadgeUnlocked cfg w e pc o = some (w', th'))
    {badge : String × String} (hheld : w'.locksBadge e badge) :
    w.locksBadge e badge ∨ ∀ k, w.badgeOf k ≠ some badge := by
  have hunlock : ∀ v : World, ¬ (v.unlock e).locksBadge e badge := fun v hv =>
    ((unlock_locks_iff v e _ e).mp hv).2 rfl
  have hcommit : ∀ event t, ¬ (w.commitBadge e event t).locksBadge e badge := by
    intro event t hv
    rw [World.locksBadge, commitBadge_locks] at hv
    exact hunlock w hv
  have hother : ∀ key, key ≠ LockKey.badge badge.1 badge.2 → (w.lock e key).locksBadge e badge →
      w.locksBadge e badge := by
    intro key hkey hv
    rwa [World.locksBadge, lock_locks, if_neg (Ne.symm hkey)] at hv
  have hinsert : ∀ t : CashbackTransaction, w.findByBadge t.userId t.badgeName = none →
      (w.lock e (.badge t.userId t.badgeName)).locksBadge e badge →
      w.locksBadge e badge ∨ ∀ k, w.badgeOf k ≠ some badge := by
    intro t hnone hv
    by_cases hkey : badge = t.badge
    · subst hkey
      exact Or.inr (findByBadge_eq_none hnone)
    · refine Or.inl (hother _ ?_ hv)
      intro heq
      injection heq with h₁ h₂
      exact hkey (Prod.ext h₁.symm h₂.symm)
  unfold handleBadgeUnlocked at h
  grind [World.locksBadge, drawIds_db, addJob_db]

theorem commit_releases {cfg : Config} {w w' : World} {e : ℕ} {event : BadgeUnlockedEvent}
    {t : CashbackTransaction} {o : Outcome} {th' : Thread}
    (h : handleBadgeUnlocked cfg w e (.commit event t) o = some (w', th')) :
    th' = .done ∧ ∀ key, w'.db.locks key ≠ some e := by
  have hunlock : ∀ (v : World) key, (v.unlock e).db.locks key ≠ some e := fun v key hv =>
    ((unlock_locks_iff v e key e).mp hv).2 rfl
  cases o with
  | ok =>
    obtain ⟨rfl, rfl⟩ := some_pair_inj h
    rw [commitBadge_locks]
    exact ⟨rfl, hunlock w⟩
  | fails error written =>
    obtain ⟨rfl, rfl⟩ := some_pair_inj h
    refine ⟨rfl, ?_⟩
    split
    · rw [commitBadge_locks]
      exact hunlock w
    · exact hunlock w
  | recipient code => cases h

/-- A step changes no other thread's locks. -/
theorem advance_locks_others {cfg : Config} {w w' : World} {e : ℕ} {th th' : Thread} {o : Outcome}
    (h : advance cfg w e th o = some (w', th')) {e' : ℕ} (he : e' ≠ e) (key : LockKey) :
    w'.db.locks key = some e' ↔ w.db.locks key = some e' := by
  by_cases hth : ∃ pc, th = .badge pc
  · obtain ⟨pc, rfl⟩ := hth
    exact handleBadgeUnlocked_locks h he
  · rw [advance_locks h fun pc hpc => hth ⟨pc, hpc⟩]

theorem advance_takes {cfg : Config} {w w' : World} {e : ℕ} {th th' : Thread} {o : Outcome}
    (h : advance cfg w e th o = some (w', th')) {badge : String × String}
    (hheld : w'.locksBadge e badge) : w.locksBadge e badge ∨ ∀ k, w.badgeOf k ≠ some badge := by
  by_cases hth : ∃ pc, th = .badge pc
  · obtain ⟨pc, rfl⟩ := hth
    exact handleBadgeUnlocked_takes h hheld
  · refine Or.inl ?_
    rwa [World.locksBadge, advance_locks h fun pc hpc => hth ⟨pc, hpc⟩] at hheld

/-! ## Copies -/

/-- A handler keeps its event and its copy, and its claim to insert it. -/
theorem handleBadgeUnlocked_handled {cfg : Config} {w w' : World} {e : ℕ} {pc : BadgePc}
    {o : Outcome} {th' : Thread} (h : handleBadgeUnlocked cfg w e pc o = some (w', th'))
    {event : BadgeUnlockedEvent} {t : CashbackTransaction} (hth' : th'.handled = some (event, t)) :
    (Thread.badge pc).handled = some (event, t) ∧
        ((Thread.badge pc).Holds w e → th'.Holds w' e) ∨
      pc = .find event ∧ t.badge = badgeOf event ∧
        (w.row t.id = some t ∨ t = createTransaction cfg w.nextId event ∧
          w'.nextId = w.nextId + 1 ∧ th' = .badge (.save event t true)) := by
  have hfound : ∀ userId badgeName t, w.findByBadge userId badgeName = some t →
      w.row t.id = some t ∧ t.userId = userId ∧ t.badgeName = badgeName := by
    intro userId badgeName t ht
    obtain ⟨hrow, hp⟩ := Table.find?_eq_some ht
    simp only [Bool.and_eq_true, decide_eq_true_eq] at hp
    exact ⟨hrow, hp.1, hp.2⟩
  have hlocked : ∀ t : CashbackTransaction,
      (w.lock e (.badge t.userId t.badgeName)).locksBadge e t.badge := fun t => by
    rw [World.locksBadge, lock_locks]
    exact if_pos rfl
  have hmarker : ∀ (t : CashbackTransaction) eventId, w.locksBadge e t.badge →
      (w.lock e (.marker eventId)).locksBadge e t.badge := fun t eventId ht => by
    rw [World.locksBadge, lock_locks, if_neg (by simp)]
    exact ht
  have hadd : ∀ k event badge, (w.addJob k event).locksBadge e badge ↔ w.locksBadge e badge :=
    fun _ _ _ => Iff.rfl
  have hdraw : (w.drawIds 1).nextId = w.nextId + 1 := rfl
  unfold handleBadgeUnlocked at h
  grind [Thread.handled, Thread.Holds, createTransaction, badgeOf, CashbackTransaction.badge]

theorem processPayment_loaded {cfg : Config} {w w' : World} {e : ℕ} {r : PaymentRun}
    {pc : PaymentPc} {o : Outcome} {th' : Thread}
    (h : processPayment cfg w e r pc o = some (w', th')) {t' : CashbackTransaction}
    (ht' : th'.loaded = some t') :
    w.row t'.id = some t' ∨ ∃ t, (Thread.payment r pc).loaded = some t ∧ t'.id = t.id ∧
      t'.badge = t.badge ∧ t'.amountKobo = t.amountKobo := by
  have hkey : ∀ t, w.db.transactions.row r.transactionId = some t → t.id = r.transactionId :=
    fun t ht => w.db.transactions.key_eq ht
  have hresult : ∀ (t row : CashbackTransaction) (result : CashbackPaymentResult),
      (t.withResult row result).id = t.id ∧ (t.withResult row result).badge = t.badge ∧
        (t.withResult row result).amountKobo = t.amountKobo := fun _ _ _ => ⟨rfl, rfl, rfl⟩
  have hclaim : ∀ (t : CashbackTransaction) reference, (t.claimed reference).id = t.id ∧
      (t.claimed reference).badge = t.badge ∧
        (t.claimed reference).amountKobo = t.amountKobo := fun _ _ => ⟨rfl, rfl, rfl⟩
  cases pc
  all_goals
    simp only [processPayment, findTransaction, claim, findAccount, saveAccount, sendCashback,
      initiateTransfer, receive, store, publish, recover, publishFailure] at h
    grind [Thread.loaded, Thread.copy]

theorem handled_loaded {th : Thread} {event : BadgeUnlockedEvent} {t : CashbackTransaction}
    (h : th.handled = some (event, t)) : th.loaded = some t := by
  unfold Thread.handled at h
  split at h
  all_goals
    simp only [Option.some.injEq, Prod.mk.injEq, reduceCtorEq] at h
    try obtain ⟨rfl, rfl⟩ := h
    try rfl

theorem loaded_handled {pc : BadgePc} {t : CashbackTransaction}
    (h : (Thread.badge pc).loaded = some t) :
    ∃ event, (Thread.badge pc).handled = some (event, t) := by
  cases pc with
  | check event => cases h
  | find event => cases h
  | save event t' isNew => exact ⟨event, by cases h; rfl⟩
  | findMarker event t' => exact ⟨event, by cases h; rfl⟩
  | insertMarker event t' => exact ⟨event, by cases h; rfl⟩
  | enqueue event t' => exact ⟨event, by cases h; rfl⟩
  | commit event t' => exact ⟨event, by cases h; rfl⟩

/-- A thread's copy after a step is a row, or its copy before, or a new transaction. -/
theorem advance_loaded {cfg : Config} {w w' : World} {e : ℕ} {th th' : Thread} {o : Outcome}
    (h : advance cfg w e th o = some (w', th')) {t' : CashbackTransaction}
    (ht' : th'.loaded = some t') :
    w.row t'.id = some t' ∨
      (∃ t, th.loaded = some t ∧ t'.id = t.id ∧ t'.badge = t.badge ∧
        t'.amountKobo = t.amountKobo ∧ (th.Holds w e → th'.Holds w' e)) ∨
      t'.id = w.nextId ∧ w'.nextId = w.nextId + 1 ∧
        ∃ event, th = .badge (.find event) ∧ th' = .badge (.save event t' true) := by
  cases th with
  | done => cases h
  | badge pc =>
    obtain ⟨event, hth'⟩ : ∃ event, th'.handled = some (event, t') := by
      rcases (handleBadgeUnlocked_frame h).2.2 with rfl | ⟨pc', rfl⟩
      · cases ht'
      · exact loaded_handled ht'
    rcases handleBadgeUnlocked_handled h hth' with ⟨hth, hholds⟩ | ⟨rfl, _, hrow | ⟨rfl, hnew⟩⟩
    · exact Or.inr (Or.inl ⟨t', handled_loaded hth, rfl, rfl, rfl, hholds⟩)
    · exact Or.inl hrow
    · exact Or.inr (Or.inr ⟨rfl, hnew.1, event, rfl, hnew.2⟩)
  | payment r pc =>
    rcases processPayment_loaded h ht' with hrow | ⟨t, ht, hid, hbadge, hamount⟩
    · exact Or.inl hrow
    · exact Or.inr (Or.inl ⟨t, ht, hid, hbadge, hamount, False.elim⟩)
  | retry caller k event pc =>
    rcases (retryPayment_frame h).2.2 with rfl | ⟨pc', rfl⟩ | ⟨pc', rfl⟩ <;> cases ht'
  | manual pc =>
    rcases (retryFailedTransaction_frame h).2 with rfl | ⟨pc', rfl⟩ | ⟨k, event, rfl⟩ <;> cases ht'
  | scan pc =>
    rcases retryEligibleFailedTransactions_thread h with rfl | ⟨pc', rfl⟩ | ⟨_, _, _, rfl⟩ <;>
      cases ht'
  | webhook hook pc =>
    have hcopy : th'.copy = some t' := by
      rcases (handleWebhook_frame h).2.2 with rfl | ⟨pc', rfl⟩
      · cases ht'
      · exact ht'
    exact Or.inl (handleWebhook_copy h hcopy)

/-! ## Rows -/

/-- A written row has the badge and the amount of the row before it or of the writer's copy. -/
theorem RowWrite.origin {cfg : Config} {w : World} {e : ℕ} {th : Thread} {k : ReadableId}
    {v : CashbackTransaction} (hv : RowWrite cfg w e th k v) :
    (∃ row, w.row k = some row ∧ row.badge = v.badge ∧ row.amountKobo = v.amountKobo) ∨
      ∃ t, th.loaded = some t ∧ t.id = k ∧ t.badge = v.badge ∧ t.amountKobo = v.amountKobo := by
  cases hv with
  | commit held => exact Or.inr ⟨v, rfl, rfl, rfl, rfl⟩
  | claim found pending => exact Or.inl ⟨_, found, rfl, rfl⟩
  | @store r t account result free => exact Or.inr ⟨t, rfl, rfl, rfl, rfl⟩
  | reset found processing back => exact Or.inl ⟨_, found, rfl, rfl⟩
  | @failure r t error final free => exact Or.inr ⟨t, rfl, rfl, rfl, rfl⟩
  | revive found failed => exact Or.inl ⟨_, found, rfl, rfl⟩
  | resetCount found => exact Or.inl ⟨_, found, rfl, rfl⟩
  | @webhook hook t free =>
    refine Or.inr ⟨t, rfl, rfl, ?_⟩
    unfold TransferWebhook.mark
    split <;> exact ⟨rfl, rfl⟩

/-- Only a handler's commit writes a row that its thread may insert. -/
theorem RowWrite.holds {cfg : Config} {w : World} {e : ℕ} {th : Thread} {k : ReadableId}
    {v : CashbackTransaction} (hv : RowWrite cfg w e th k v) (hth : th.Holds w e) :
    ∃ event, th = .badge (.commit event v) ∧ k = v.id ∧ w.locksBadge e v.badge := by
  cases hv with
  | @commit event t held => exact ⟨event, rfl, rfl, hth⟩
  | _ => exact hth.elim

/-- What holds of the badges of rows and copies in every reachable state. -/
structure BadgeRows (s : State) : Prop where
  fresh : ∀ k badge, s.Names k badge → k < s.world.nextId
  named : ∀ k badge badge', s.Names k badge → s.Names k badge' → badge = badge'
  backed : ∀ e t, (s.threads e).loaded = some t →
    (s.world.row t.id).isSome ∨ (s.threads e).Holds s.world e
  apart : ∀ e e' t t', (s.threads e).loaded = some t → (s.threads e').loaded = some t' →
    t.id = t'.id → e = e' ∨ (s.world.row t.id).isSome
  unique : ∀ k k' badge, s.world.badgeOf k = some badge → s.world.badgeOf k' = some badge → k = k'
  locked : ∀ e badge k, s.world.locksBadge e badge → s.world.badgeOf k ≠ some badge

/-- A step keeps the badge of every row, or inserts one under the lock on its badge. -/
theorem BadgeRows.rows {cfg : Config} {s : State} {w' : World} {e : ℕ} {o : Outcome} {th' : Thread}
    (hs : BadgeRows s) (h : advance cfg s.world e (s.threads e) o = some (w', th')) :
    (∀ k, w'.badgeOf k = s.world.badgeOf k) ∨
      ∃ event t, s.threads e = .badge (.commit event t) ∧ s.world.row t.id = none ∧
        s.world.locksBadge e t.badge ∧
        ∀ k, w'.badgeOf k = if k = t.id then some t.badge else s.world.badgeOf k := by
  rcases advance_rows h with hsame | ⟨k₀, v, hv, hwritten⟩
  · exact Or.inl fun k => by rw [World.badgeOf, hsame, World.badgeOf]
  · have hbadge : ∀ k, w'.badgeOf k = if k = k₀ then some v.badge else s.world.badgeOf k := by
      intro k
      rw [World.badgeOf, hwritten]
      split <;> rfl
    -- the row is there already, under the badge it is written with
    have hkeeps : s.world.badgeOf k₀ = some v.badge → ∀ k, w'.badgeOf k = s.world.badgeOf k := by
      intro hold k
      rw [hbadge]
      split
      · next heq => rw [heq, hold]
      · rfl
    rcases hv.origin with ⟨row, hrow, hold, _⟩ | ⟨t, ht, hid, htv, _⟩
    · exact Or.inl (hkeeps (by rw [badgeOf_of_row hrow, hold]))
    · cases hrow : s.world.row k₀ with
      | some row =>
        have hnamed := hs.named k₀ row.badge t.badge (Or.inl (badgeOf_of_row hrow))
          (Or.inr ⟨e, t, ht, hid, rfl⟩)
        exact Or.inl (hkeeps (by rw [badgeOf_of_row hrow, hnamed, htv]))
      | none =>
        have hholds : (s.threads e).Holds s.world e := by
          rcases hs.backed e t ht with hsome | hholds
          · rw [hid, hrow] at hsome
            cases hsome
          · exact hholds
        obtain ⟨event, hth, rfl, hlock⟩ := hv.holds hholds
        exact Or.inr ⟨event, v, hth, hrow, hlock, hbadge⟩

/-! ## The invariant -/

theorem badgeRows_initial : BadgeRows initial := by
  have hrow : ∀ k badge, initial.world.badgeOf k ≠ some badge := fun k badge h => by cases h
  have hloaded : ∀ e t, (initial.threads e).loaded ≠ some t := fun e t h => by cases h
  have hnames : ∀ k badge, ¬ initial.Names k badge := by
    rintro k badge (h | ⟨e, t, ht, _⟩)
    · exact hrow k badge h
    · exact hloaded e t ht
  exact ⟨fun k badge h => absurd h (hnames k badge), fun k badge _ h => absurd h (hnames k badge),
    fun e t h => absurd h (hloaded e t), fun e _ t _ h => absurd h (hloaded e t),
    fun k _ badge h => absurd h (hrow k badge), fun e badge k _ => hrow k badge⟩

/-- A label other than `run` leaves rows alone, starts threads without a copy, ends threads, and
takes a lock away only from a thread it ends. -/
theorem step_ambient {cfg : Config} {s s' : State} {l : Label} (h : step cfg s l = some s')
    (hl : ∀ e o, l ≠ .run e o) :
    s'.world.db.transactions = s.world.db.transactions ∧ s'.world.nextId = s.world.nextId ∧
      (∀ key e, s'.world.db.locks key = some e → s.world.db.locks key = some e) ∧
      ∀ e, (s'.threads e).loaded = none ∨
        s'.threads e = s.threads e ∧
          ∀ key, s'.world.db.locks key = some e ↔ s.world.db.locks key = some e := by
  have hspawn : ∀ {th : Thread}, th.loaded = none → s'.world.db.locks = s.world.db.locks →
      (∀ e, s'.threads e = if e = s.nextThread then th else s.threads e) →
      (∀ key e, s'.world.db.locks key = some e → s.world.db.locks key = some e) ∧
      ∀ e, (s'.threads e).loaded = none ∨
        s'.threads e = s.threads e ∧
          ∀ key, s'.world.db.locks key = some e ↔ s.world.db.locks key = some e := by
    intro th hth hlocks hthreads
    rw [hlocks]
    refine ⟨fun _ _ hkey => hkey, fun e => ?_⟩
    rw [hthreads]
    split
    · exact Or.inl hth
    · exact Or.inr ⟨rfl, fun _ => Iff.rfl⟩
  rcases step_cases h with ⟨e, o, _, rfl, _⟩ | ⟨hw, _, _⟩
  · exact absurd rfl (hl e o)
  refine ⟨hw.transactions, hw.nextId, ?_⟩
  cases l with
  | tick ms =>
    rw [step, Option.some.injEq] at h
    subst h
    exact ⟨fun _ _ hkey => hkey, fun e => Or.inr ⟨rfl, fun _ => Iff.rfl⟩⟩
  | badgeUnlocked event =>
    rw [step, Option.some.injEq] at h
    subst h
    exact hspawn rfl rfl fun e => spawn_threads s _ e
  | takeJob j =>
    obtain ⟨job, _, _, hworld, _, hth⟩ := takeJob_spec h
    exact hspawn rfl (by rw [hworld]; rfl) hth
  | stallJob j =>
    obtain ⟨job, e, _, _, rfl⟩ := stallJob_spec h
    exact ⟨fun _ _ hkey => hkey, fun e => Or.inr ⟨rfl, fun _ => Iff.rfl⟩⟩
  | retryRequest k override =>
    rw [step, Option.some.injEq] at h
    subst h
    exact hspawn rfl rfl fun e => spawn_threads s _ e
  | scan =>
    rw [step, Option.some.injEq] at h
    subst h
    exact hspawn rfl rfl fun e => spawn_threads s _ e
  | webhook hook =>
    obtain ⟨hworld, _, hth⟩ := receiveWebhook_spec h
    refine hspawn rfl ?_ hth
    rcases hworld with hworld | ⟨_, hworld⟩
    · rw [hworld]
    · rw [hworld]
      rfl
  | run e o => exact absurd rfl (hl e o)
  | crash e =>
    rw [step, Option.some.injEq] at h
    subst h
    refine ⟨fun key e' hkey => ((unlock_locks_iff s.world e key e').mp hkey).1, fun e' => ?_⟩
    by_cases he : e' = e
    · left
      simp only [he, Function.update_self]
      rfl
    · refine Or.inr ⟨Function.update_of_ne he _ _, fun key => ?_⟩
      exact (unlock_locks_iff s.world e key e').trans (and_iff_left he)

/-- What a thread may insert depends on its own locks only. -/
theorem Holds.congr {w w' : World} {e : ℕ} {th : Thread}
    (hlocks : ∀ key, w'.db.locks key = some e ↔ w.db.locks key = some e) :
    th.Holds w' e ↔ th.Holds w e := by
  cases th with
  | badge pc => cases pc <;> simp only [Thread.Holds, World.locksBadge, hlocks]
  | _ => rfl

section Ambient
variable {cfg : Config} {s s' : State} {l : Label} (h : step cfg s l = some s')
  (hl : ∀ e o, l ≠ .run e o)
include h hl

theorem badgeOf_ambient (k : ReadableId) : s'.world.badgeOf k = s.world.badgeOf k := by
  rw [World.badgeOf, World.row, (step_ambient h hl).1, World.badgeOf, World.row]

theorem loaded_ambient {e : ℕ} {t : CashbackTransaction} (ht : (s'.threads e).loaded = some t) :
    s'.threads e = s.threads e ∧
      ∀ key, s'.world.db.locks key = some e ↔ s.world.db.locks key = some e := by
  rcases (step_ambient h hl).2.2.2 e with hnone | hsame
  · rw [hnone] at ht
    cases ht
  · exact hsame

theorem names_ambient {k : ReadableId} {badge : String × String} (hk : s'.Names k badge) :
    s.Names k badge := by
  rcases hk with hrow | ⟨e, t, ht, hid⟩
  · exact Or.inl (by rwa [← badgeOf_ambient h hl])
  · exact Or.inr ⟨e, t, by rwa [← (loaded_ambient h hl ht).1], hid⟩

theorem badgeRows_ambient (hs : BadgeRows s) : BadgeRows s' := by
  obtain ⟨hrows, hnext, hlocks, _⟩ := step_ambient h hl
  have hcopy : ∀ {e t}, (s'.threads e).loaded = some t → (s.threads e).loaded = some t := by
    intro e t ht
    rwa [← (loaded_ambient h hl ht).1]
  refine ⟨fun k badge hk => ?_, fun k b b' hb hb' =>
      hs.named k b b' (names_ambient h hl hb) (names_ambient h hl hb'),
    fun e t ht => ?_, fun e e' t t' ht ht' hid => ?_, fun k k' badge hk hk' => ?_,
    fun e badge k hlock => ?_⟩
  · rw [hnext]
    exact hs.fresh k badge (names_ambient h hl hk)
  · obtain ⟨hth, hown⟩ := loaded_ambient h hl ht
    rw [World.row, hrows, hth, Holds.congr hown]
    exact hs.backed e t (hcopy ht)
  · rw [World.row, hrows]
    exact hs.apart e e' t t' (hcopy ht) (hcopy ht') hid
  · rw [badgeOf_ambient h hl] at hk hk'
    exact hs.unique k k' badge hk hk'
  · rw [badgeOf_ambient h hl]
    exact hs.locked e badge k (hlocks _ e hlock)

end Ambient

section Run
variable {cfg : Config} {s s' : State} {e : ℕ} {o : Outcome} {th' : Thread} (hs : BadgeRows s)
  (hadv : advance cfg s.world e (s.threads e) o = some (s'.world, th'))
  (hth : ∀ e', s'.threads e' = if e' = e then th' else s.threads e')
include hs hadv

/-- Rows stay, with their badges. -/
theorem BadgeRows.badge_stays {k : ReadableId} {badge : String × String}
    (hk : s.world.badgeOf k = some badge) : s'.world.badgeOf k = some badge := by
  rcases hs.rows hadv with hsame | ⟨event, t, _, hnone, _, hins⟩
  · rwa [hsame]
  · rw [hins, if_neg]
    · exact hk
    · rintro rfl
      rw [World.badgeOf, hnone] at hk
      cases hk

theorem BadgeRows.row_stays {k : ReadableId} (hk : (s.world.row k).isSome) :
    (s'.world.row k).isSome := by
  obtain ⟨badge, hbadge⟩ := exists_badgeOf hk
  rw [← badgeOf_isSome, hs.badge_stays hadv hbadge]
  rfl

include hth

omit hs in
/-- Every copy after the step is a row, a copy before it, or a new transaction. -/
theorem copies_run {e' : ℕ} {t : CashbackTransaction} (ht : (s'.threads e').loaded = some t) :
    s.world.row t.id = some t ∨
      (∃ t₀, (s.threads e').loaded = some t₀ ∧ t.id = t₀.id ∧ t.badge = t₀.badge ∧
        t.amountKobo = t₀.amountKobo ∧
        ((s.threads e').Holds s.world e' → (s'.threads e').Holds s'.world e')) ∨
      e' = e ∧ t.id = s.world.nextId ∧ s'.world.nextId = s.world.nextId + 1 ∧
        (s'.threads e).Holds s'.world e := by
  by_cases he : e' = e
  · subst he
    have hself : s'.threads e' = th' := by rw [hth, if_pos rfl]
    rw [hself] at ht ⊢
    rcases advance_loaded hadv ht with hrow | hold | ⟨hid, hnext, event, _, rfl⟩
    · exact Or.inl hrow
    · exact Or.inr (Or.inl hold)
    · exact Or.inr (Or.inr ⟨rfl, hid, hnext, rfl⟩)
  · rw [hth, if_neg he] at ht ⊢
    refine Or.inr (Or.inl ⟨t, ht, rfl, rfl, rfl, (Holds.congr fun key => ?_).mpr⟩)
    exact advance_locks_others hadv he key

/-- Every name after the step is a name before it, or that of the transaction it draws. -/
theorem BadgeRows.names_run {k : ReadableId} {badge : String × String} (h : s'.Names k badge) :
    s.Names k badge ∨ k = s.world.nextId ∧ s'.world.nextId = s.world.nextId + 1 ∧
      ∃ t, th'.loaded = some t ∧ t.badge = badge := by
  rcases h with hk | ⟨e', t, ht, rfl, rfl⟩
  · rcases hs.rows hadv with hsame | ⟨event, t, hpc, _, _, hins⟩
    · exact Or.inl (Or.inl (by rwa [← hsame]))
    · rw [hins] at hk
      split at hk
      · next heq =>
        exact Or.inl (Or.inr ⟨e, t, by rw [hpc]; rfl, heq.symm, Option.some.inj hk⟩)
      · exact Or.inl (Or.inl hk)
  · rcases copies_run hadv hth ht with hrow | ⟨t₀, ht₀, hid, hb, _⟩ | ⟨rfl, hid, hnext, _⟩
    · exact Or.inl (Or.inl (badgeOf_of_row hrow))
    · exact Or.inl (Or.inr ⟨e', t₀, ht₀, hid.symm, hb.symm⟩)
    · rw [hth, if_pos rfl] at ht
      exact Or.inr ⟨hid, hnext, t, ht, rfl⟩

theorem badgeRows_run : BadgeRows s' := by
  have hlocks := fun {e'} (he : e' ≠ e) key => advance_locks_others hadv he key
  have hsome : ∀ k, (s.world.row k).isSome → (s'.world.row k).isSome := fun _ => hs.row_stays hadv
  have hcopy := fun {e' t} (ht : (s'.threads e').loaded = some t) => copies_run hadv hth ht
  have hnames := fun {k badge} (h : s'.Names k badge) => hs.names_run hadv hth h
  have hne : ∀ {k badge}, s.Names k badge → k ≠ s.world.nextId := fun hk =>
    Nat.ne_of_lt (hs.fresh _ _ hk)
  have hold_ne : ∀ {e' t}, (s.threads e').loaded = some t → t.id ≠ s.world.nextId := fun ht =>
    hne (Or.inr ⟨_, _, ht, rfl, rfl⟩)
  refine ⟨fun k badge hk => ?_, fun k b b' hb hb' => ?_, fun e' t ht => ?_,
    fun e₁ e₂ t₁ t₂ h₁ h₂ hid => ?_, fun k k' badge hk hk' => ?_, fun e' badge k hlock => ?_⟩
  · rcases hnames hk with hold | ⟨rfl, hnext, _⟩
    · exact Nat.lt_of_lt_of_le (hs.fresh k badge hold) (advance_nextId hadv)
    · rw [hnext]
      exact Nat.lt_succ_self _
  · rcases hnames hb with hold | ⟨hk, _, t, ht, rfl⟩ <;>
      rcases hnames hb' with hold' | ⟨hk', _, t', ht', rfl⟩
    · exact hs.named k b b' hold hold'
    · exact absurd hk' (hne hold)
    · exact absurd hk (hne hold')
    · rw [ht, Option.some.injEq] at ht'
      rw [ht']
  · rcases hcopy ht with hrow | ⟨t₀, ht₀, hid, _, _, hholds⟩ | ⟨rfl, _, _, hholds⟩
    · exact Or.inl (hsome _ (by rw [hrow]; rfl))
    · rcases hs.backed e' t₀ ht₀ with hrow | hold
      · exact Or.inl (hsome _ (by rwa [hid]))
      · exact Or.inr (hholds hold)
    · exact Or.inr hholds
  · rcases hcopy h₁ with hrow | ⟨t, ht, hid₁, _⟩ | ⟨rfl, hid₁, _⟩
    · exact Or.inr (hsome _ (by rw [hrow]; rfl))
    · rcases hcopy h₂ with hrow | ⟨t', ht', hid₂, _⟩ | ⟨rfl, hid₂, _⟩
      · exact Or.inr (hsome _ (by rw [hid, hrow]; rfl))
      · rcases hs.apart e₁ e₂ t t' ht ht' (by rw [← hid₁, hid, hid₂]) with heq | hrow
        · exact Or.inl heq
        · exact Or.inr (hsome _ (by rwa [hid₁]))
      · exact absurd (by rw [← hid₁, hid, hid₂]) (hold_ne ht)
    · rcases hcopy h₂ with hrow | ⟨t', ht', hid₂, _⟩ | ⟨rfl, _⟩
      · exact Or.inr (hsome _ (by rw [hid, hrow]; rfl))
      · exact absurd (by rw [← hid₂, ← hid, hid₁]) (hold_ne ht')
      · exact Or.inl rfl
  · rcases hs.rows hadv with hsame | ⟨event, t, _, _, hlock, hins⟩
    · rw [hsame] at hk hk'
      exact hs.unique k k' badge hk hk'
    · rw [hins] at hk hk'
      split at hk <;> split at hk'
      · next heq heq' => rw [heq, heq']
      · rw [← Option.some.inj hk] at hk'
        exact absurd hk' (hs.locked e t.badge k' hlock)
      · rw [← Option.some.inj hk'] at hk
        exact absurd hk (hs.locked e t.badge k hlock)
      · exact hs.unique k k' badge hk hk'
  · have hbefore : s.world.badgeOf k ≠ some badge := by
      by_cases he : e' = e
      · subst he
        rcases advance_takes hadv hlock with hold | hnone
        · exact hs.locked e' badge k hold
        · exact hnone k
      · exact hs.locked e' badge k ((hlocks he _).mp hlock)
    rcases hs.rows hadv with hsame | ⟨event, t, hpc, _, hheld, hins⟩
    · rwa [hsame]
    · -- the insert releases the lock on its badge, and nobody else can have it
      rw [hins]
      split
      · intro heq
        rw [← Option.some.inj heq] at hlock
        rw [hpc] at hadv
        by_cases he : e' = e
        · rw [he] at hlock
          exact (commit_releases hadv).2 _ hlock
        · have hold := (hlocks he _).mp hlock
          rw [World.locksBadge, hold, Option.some.injEq] at hheld
          exact he hheld
      · exact hbefore

end Run

theorem reaches_badgeRows {cfg : Config} {tr : List (Move State Label)} {s : State}
    (h : Reaches cfg tr s) : BadgeRows s := by
  refine Run.invariant BadgeRows ?_ h badgeRows_initial
  intro s l s' hs hstep
  rcases step_cases hstep with ⟨e, o, th', rfl, hadv, _, hth⟩ | ⟨_, hl, _⟩
  · exact badgeRows_run hs hadv hth
  · exact badgeRows_ambient hstep hl hs

/-- Only a handler goes on as a handler. -/
theorem advance_handled {cfg : Config} {w w' : World} {e : ℕ} {th th' : Thread} {o : Outcome}
    (h : advance cfg w e th o = some (w', th')) {event : BadgeUnlockedEvent}
    {t : CashbackTransaction} (ht : th'.handled = some (event, t)) :
    ∃ pc, th = .badge pc ∧ handleBadgeUnlocked cfg w e pc o = some (w', th') := by
  obtain ⟨pc', rfl⟩ : ∃ pc', th' = .badge pc' := by
    unfold Thread.handled at ht
    split at ht
    all_goals first | exact ⟨_, rfl⟩ | cases ht
  cases th with
  | done => cases h
  | badge pc => exact ⟨pc, rfl, h⟩
  | payment r pc => simpa using processPayment_thread h
  | retry caller k event pc => simpa using (retryPayment_frame h).2.2
  | manual pc => simpa using (retryFailedTransaction_frame h).2
  | scan pc => simpa using retryEligibleFailedTransactions_thread h
  | webhook hook pc => simpa using (handleWebhook_frame h).2.2

/-- A handler's transaction has the badge of its event. -/
theorem reaches_handled {cfg : Config} {tr : List (Move State Label)} {s : State}
    (h : Reaches cfg tr s) {e : ℕ} {event : BadgeUnlockedEvent} {t : CashbackTransaction}
    (hth : (s.threads e).handled = some (event, t)) : t.badge = badgeOf event := by
  refine (threads_invariant (fun _ => True)
    (fun _ th => ∀ event t, th.handled = some (event, t) → t.badge = badgeOf event) trivial
    (fun _ _ _ h => by cases h) ?_ (fun _ _ _ => ⟨id, fun _ => id⟩) ?_ h (guarded_true tr)).2 e
    event t hth
  · rintro _ _ ⟨⟩ _ _ h <;> cases h
  · intro s e o w' th' _ _ hold hadv
    refine ⟨trivial, fun event t ht => ?_, fun _ => id⟩
    obtain ⟨pc, hpc, hstep⟩ := advance_handled hadv ht
    rw [hpc] at hold
    rcases handleBadgeUnlocked_handled hstep ht with ⟨hbefore, _⟩ | ⟨_, hbadge, _⟩
    · exact hold event t hbefore
    · exact hbadge

end Bumpa.Cashback
