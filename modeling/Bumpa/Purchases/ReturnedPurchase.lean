import Bumpa.Purchases.Consistency

/-! # Whose purchase a call returns

A call returns an id in three ways: it created the purchase, its look-up found one under its key,
or it lost the race for the key and read the winner's row. Neither look-up compares the body, so
the purchase is that of a call with the same key, and not always of the caller.

`returned_of_key`: what a call returns was created by a call with its key, the call itself if it
has none, and carries that call's user and amount in the table and in the outbox. It is the
caller's own where the calls that share the key agree. `returned_foreign`: two that do not.
-/
namespace Bumpa.Purchases
open Bumpa.Events Bumpa.Relational Bumpa.Transition
set_option autoImplicit false

/-- The requests made so far. -/
def calls (tr : List (Move State Label)) : List Call :=
  tr.filterMap fun x => match x.label with
    | .call call => some call
    | _ => none

def Purchase.Of (row : Purchase) (call : Call) : Prop :=
  row.userId = call.dto.userId ∧ row.amountKobo.val = call.dto.amountKobo ∧
    row.idempotencyKey = call.idempotencyKey

def OutboxEvent.Of (event : OutboxEvent) (call : Call) (purchaseId : ReadableId) : Prop :=
  event.payload.payload.purchaseId = purchaseId ∧
    event.payload.payload.userId = call.dto.userId ∧
    event.payload.payload.amountKobo = call.dto.amountKobo.toNat

/-- The purchase is committed and announced with the call's user and amount. -/
def Purchased (db : Database) (call : Call) (purchaseId : ReadableId) : Prop :=
  (∃ row ∈ db.purchases, row.id = purchaseId ∧ row.Of call) ∧
    ∃ event ∈ db.outbox, event.Of call purchaseId

/-- The purchase was created by a call with the same key, by this one if it is without. -/
def Answered (made : List Call) (db : Database) (call : Call) (purchaseId : ReadableId) : Prop :=
  ∃ creator ∈ made, creator.idempotencyKey = call.idempotencyKey ∧
    (truthy call.idempotencyKey = false → creator = call) ∧ Purchased db creator purchaseId

/-- The open transaction writes nothing but its call's purchase. -/
def Tx.Of (tx : Tx) (new : Creation) : Prop :=
  (∀ row, tx.purchase = some row → row.id = new.purchaseId ∧ row.Of new.call) ∧
    ∀ event, tx.outbox = some event → event.Of new.call new.purchaseId

def Thread.Creates (made : List Call) (db : Database) : Thread → Prop
  | .findExisting call _ | .findWinner call _ _ => call ∈ made ∧ truthy call.idempotencyKey = true
  | .transaction new tx _ => new.call ∈ made ∧ tx.Of new
  | .publish new => new.call ∈ made ∧ Purchased db new.call new.purchaseId
  | .returned call purchaseId => Answered made db call purchaseId
  | _ => True

/-- Every committed purchase is that of a call. -/
def Created (made : List Call) (db : Database) : Prop :=
  ∀ row ∈ db.purchases, ∃ call ∈ made, row.Of call ∧ Purchased db call row.id

/-! ## What later calls and commits add -/

section Mono
variable {made made' : List Call} {db db' : Database} (hmade : made ⊆ made')
  (hpurchases : db.purchases ⊆ db'.purchases) (houtbox : db.outbox ⊆ db'.outbox)
include hpurchases houtbox

theorem Purchased.mono {call : Call} {purchaseId : ReadableId} (h : Purchased db call purchaseId) :
    Purchased db' call purchaseId := by
  obtain ⟨⟨row, hrow, hof⟩, event, hevent, hannounced⟩ := h
  exact ⟨⟨row, hpurchases hrow, hof⟩, event, houtbox hevent, hannounced⟩

include hmade

theorem Answered.mono {call : Call} {purchaseId : ReadableId}
    (h : Answered made db call purchaseId) : Answered made' db' call purchaseId := by
  obtain ⟨creator, hcreator, hkey, hown, hpurchased⟩ := h
  exact ⟨creator, hmade hcreator, hkey, hown, hpurchased.mono hpurchases houtbox⟩

theorem Thread.Creates.mono {th : Thread} (h : th.Creates made db) : th.Creates made' db' := by
  cases th with
  | findExisting call key => exact ⟨hmade h.1, h.2⟩
  | findWinner call key error => exact ⟨hmade h.1, h.2⟩
  | transaction new tx pc => exact ⟨hmade h.1, h.2⟩
  | publish new => exact ⟨hmade h.1, h.2.mono hpurchases houtbox⟩
  | returned call purchaseId => exact Answered.mono hmade hpurchases houtbox h
  | _ => trivial

end Mono

/-! ## One step -/

theorem Tx.of_begin (new : Creation) : Tx.begin.Of new := by
  constructor
  · intro row h
    cases h
  · intro event h
    cases h

theorem begin_creates {made : List Call} {db : Database} {call : Call} (w : World)
    (h : call ∈ made) : (w.begin call).2.Creates made db :=
  ⟨h, Tx.of_begin _⟩

theorem caught_creates {made : List Call} {db : Database} {call : Call} (error : QueryFailedError)
    (h : call ∈ made) : (call.caught error).Creates made db := by
  rcases caught_eq call error with heq | ⟨key, hkey, hne, _, heq⟩
  · rw [heq]
    trivial
  · rw [heq]
    refine ⟨h, ?_⟩
    rw [hkey]
    simpa [truthy] using hne

theorem createPurchase_creates {made : List Call} {db : Database} {call : Call} (w : World)
    (h : call ∈ made) : (w.createPurchase call).2.Creates made db := by
  unfold World.createPurchase
  split
  · next key hkey =>
    split
    · exact begin_creates w h
    · next hne =>
      refine ⟨h, ?_⟩
      rw [hkey]
      simpa [truthy] using hne
  · exact begin_creates w h

/-- A statement short of the COMMIT leaves the database alone and keeps the writes its call's. -/
theorem statement_creates {made : List Call} {w w' : World} {others : List Tx} {new : Creation}
    {tx : Tx} {pc : Pc} {th' : Thread} (hpc : pc ≠ .commit)
    (h : statement w others new tx pc = some (w', th')) (hmade : new.call ∈ made)
    (htx : tx.Of new) : w' = w ∧ th'.Creates made w.db := by
  have hkept : ∀ user pc', (Thread.transaction new { tx with user := user } pc').Creates made w.db :=
    fun _ _ => ⟨hmade, htx⟩
  cases pc with
  | selectUser =>
    simp only [statement] at h
    split at h
    · cases h
      exact ⟨rfl, hkept _ _⟩
    · split at h <;> cases h <;> exact ⟨rfl, hkept _ _⟩
  | insertUser =>
    simp only [statement] at h
    split at h
    · cases h
    · split at h <;> cases h
      · exact ⟨rfl, caught_creates _ hmade⟩
      · exact ⟨rfl, hkept _ _⟩
  | updateUser selected =>
    simp only [statement] at h
    split at h
    · cases h
    · split at h <;> cases h <;> exact ⟨rfl, hkept _ _⟩
  | insertPurchase =>
    simp only [statement] at h
    split at h
    · cases h
      exact ⟨rfl, caught_creates _ hmade⟩
    · next amountKobo hamount =>
      split at h
      · cases h
      · split at h <;> cases h
        · exact ⟨rfl, caught_creates _ hmade⟩
        · refine ⟨rfl, hmade, fun row hrow => ?_, htx.2⟩
          obtain rfl := Option.some.inj hrow
          exact ⟨rfl, rfl, Int4.val_of_ofInt? hamount, rfl⟩
  | insertEvent =>
    cases h
    refine ⟨rfl, hmade, htx.1, fun event hevent => ?_⟩
    obtain rfl := Option.some.inj hevent
    exact ⟨rfl, rfl, rfl⟩
  | commit => exact absurd rfl hpc

/-- A COMMIT adds its call's purchase and event. -/
theorem commit_purchased {w : World} {new : Creation} {tx : Tx} (hwrote : Pc.commit.Wrote new tx)
    (htx : tx.Of new) : Purchased (w.commit tx).db new.call new.purchaseId := by
  obtain ⟨⟨row, hrow, _⟩, event, hevent, _⟩ := hwrote
  refine ⟨⟨row, ?_, htx.1 row hrow⟩, event, ?_, htx.2 event hevent⟩
  · rw [World.commit, Tx.view, hrow]
    exact List.mem_append_right _ List.mem_cons_self
  · rw [World.commit, Tx.view, hevent]
    exact List.mem_append_right _ List.mem_cons_self

theorem commit_created {made : List Call} {w : World} {new : Creation} {tx : Tx}
    (hcreated : Created made w.db) (hwrote : Pc.commit.Wrote new tx) (hmade : new.call ∈ made)
    (htx : tx.Of new) : Created made (w.commit tx).db := by
  have hpurchased := commit_purchased (w := w) hwrote htx
  intro row hrow
  rcases List.mem_append.mp hrow with hold | hnew
  · obtain ⟨call, hcall, hof, hannounced⟩ := hcreated row hold
    exact ⟨call, hcall, hof,
      hannounced.mono (List.subset_append_left _ _) (List.subset_append_left _ _)⟩
  · obtain ⟨hid, hof⟩ := htx.1 row (Option.mem_toList.mp hnew)
    exact ⟨new.call, hmade, hof, hid ▸ hpurchased⟩

/-- A purchase that a look-up found under the call's key answers the call. -/
theorem find_answered {made : List Call} {db : Database} {call : Call} {key : String}
    {existing : Purchase} (hcreated : Created made db)
    (hfind : db.findByIdempotencyKey key = some existing) (hkey : call.idempotencyKey = some key)
    (htruthy : truthy call.idempotencyKey = true) : Answered made db call existing.id := by
  obtain ⟨hmem, hrowKey⟩ := find_eq_some hfind
  obtain ⟨creator, hcreator, hof, hpurchased⟩ := hcreated existing hmem
  refine ⟨creator, hcreator, ?_, fun hfalse => ?_, hpurchased⟩
  · rw [← hof.2.2, hrowKey, hkey]
  · rw [htruthy] at hfalse
    cases hfalse

theorem advance_creates {made : List Call} {w w' : World} {others : List Tx} {th th' : Thread}
    {o : Outcome} (h : advance w others th o = some (w', th')) (hsound : th.Sound w.db)
    (hcreated : Created made w.db) (hth : th.Creates made w.db) :
    Created made w'.db ∧ th'.Creates made w'.db ∧ w.db.purchases ⊆ w'.db.purchases ∧
      w.db.outbox ⊆ w'.db.outbox := by
  have hsame : ∀ {v : World} {u : Thread}, v.db = w.db → u.Creates made w.db →
      Created made v.db ∧ u.Creates made v.db ∧ w.db.purchases ⊆ v.db.purchases ∧
        w.db.outbox ⊆ v.db.outbox := by
    intro v u hdb hu
    rw [hdb]
    exact ⟨hcreated, hu, List.Subset.refl _, List.Subset.refl _⟩
  cases o with
  | fails written =>
    obtain ⟨call, _, rfl, ⟨new, tx, rfl, rfl⟩ | rfl⟩ := advance_fails h
    · exact ⟨commit_created hcreated hsound hth.1 hth.2, trivial,
        List.subset_append_left _ _, List.subset_append_left _ _⟩
    · exact hsame rfl trivial
  | ok =>
    cases th with
    | findExisting call key =>
      simp only [advance] at h
      split at h
      · next existing hfind =>
        cases h
        exact hsame rfl (find_answered hcreated hfind hsound hth.2)
      · cases h
        exact hsame rfl (begin_creates w hth.1)
    | transaction new tx pc =>
      by_cases hpc : pc = .commit
      · subst hpc
        cases h
        exact ⟨commit_created hcreated hsound hth.1 hth.2, ⟨hth.1, commit_purchased hsound hth.2⟩,
          List.subset_append_left _ _, List.subset_append_left _ _⟩
      · obtain ⟨rfl, hnext⟩ := statement_creates hpc h hth.1 hth.2
        exact hsame rfl hnext
    | findWinner call key error =>
      simp only [advance] at h
      split at h
      · next existing hfind =>
        cases h
        exact hsame rfl (find_answered hcreated hfind hsound.1 hth.2)
      · cases h
        exact hsame rfl trivial
    | publish new =>
      cases h
      exact hsame rfl ⟨new.call, hth.1, rfl, fun _ => rfl, hth.2⟩
    | _ => cases h

/-! ## Every run -/

structure CallHistory (tr : List (Move State Label)) (s : State) : Prop where
  created : Created (calls tr) s.world.db
  threads : ∀ e, (s.threads e).Creates (calls tr) s.world.db

theorem calls_snoc (tr : List (Move State Label)) (x : Move State Label) :
    calls tr ⊆ calls (tr ++ [x]) := by
  rw [calls, calls, List.filterMap_append]
  exact List.subset_append_left _ _

theorem step_callHistory {tr : List (Move State Label)} {s s' : State} {l : Label}
    (hreach : Reaches tr s) (hJ : CallHistory tr s) (h : step s l = some s') :
    CallHistory (tr ++ [⟨s, l, s'⟩]) s' := by
  have hgrown := calls_snoc tr ⟨s, l, s'⟩
  have hcreated : Created (calls (tr ++ [⟨s, l, s'⟩])) s.world.db := fun row hrow =>
    have ⟨call, hcall, hof⟩ := hJ.created row hrow
    ⟨call, hgrown hcall, hof⟩
  have hthreads : ∀ e, (s.threads e).Creates (calls (tr ++ [⟨s, l, s'⟩])) s.world.db := fun e =>
    (hJ.threads e).mono hgrown (List.Subset.refl _) (List.Subset.refl _)
  cases l with
  | call call =>
    have hdb : s'.world.db = s.world.db := by
      cases h
      exact (createPurchase_quiet s.world [] call).db
    have hmem : call ∈ calls (tr ++ [⟨s, .call call, s'⟩]) := by
      rw [calls, List.filterMap_append]
      exact List.mem_append_right _ List.mem_cons_self
    refine ⟨hdb ▸ hcreated, fun e => ?_⟩
    rw [hdb]
    cases h
    simp only [Function.update_apply]
    split
    · exact createPurchase_creates s.world hmem
    · exact hthreads e
  | run e o =>
    obtain ⟨th', hadv, _, hth⟩ := step_run h
    obtain ⟨hcreated', hown, hpurchases, houtbox⟩ := advance_creates hadv
      ((reaches_consistent hreach).sound e) hcreated (hthreads e)
    refine ⟨hcreated', fun e' => ?_⟩
    rw [hth]
    split
    · exact hown
    · exact (hthreads e').mono (List.Subset.refl _) hpurchases houtbox
  | crash e =>
    obtain ⟨call, _, rfl⟩ := Option.map_eq_some_iff.mp h
    refine ⟨hcreated, fun e' => ?_⟩
    simp only [Function.update_apply]
    split
    · trivial
    · exact hthreads e'

theorem reaches_callHistory {tr : List (Move State Label)} {s : State} (h : Reaches tr s) :
    CallHistory tr s := by
  have hinit : CallHistory [] initial := by
    refine ⟨fun row hrow => ?_, fun e => ?_⟩
    · cases hrow
    · exact trivial
  refine Run.history CallHistory hinit ?_ h
  · intro tr s l s' hrun hJ hstep
    exact step_callHistory hrun hJ hstep

/-- A call returns the purchase of a call with its key, which is its own where the calls with the
key agree on user and amount. -/
theorem returned_of_key {tr : List (Move State Label)} {s : State} (h : Reaches tr s) {e : ℕ}
    {call : Call} {purchaseId : ReadableId} (hth : s.threads e = .returned call purchaseId) :
    s.world.db.purchaseIds.Nodup ∧ Answered (calls tr) s.world.db call purchaseId ∧
      ((∀ other ∈ calls tr, other.idempotencyKey = call.idempotencyKey →
          other.dto.userId = call.dto.userId ∧ other.dto.amountKobo = call.dto.amountKobo) →
        Purchased s.world.db call purchaseId) := by
  have hanswered := (reaches_callHistory h).threads e
  rw [hth] at hanswered
  refine ⟨(reaches_consistent h).purchaseIds, hanswered, fun hagree => ?_⟩
  obtain ⟨creator, hcreator, hkey, _, ⟨row, hrow, hid, huser, hamount, hrowKey⟩,
    event, hevent, hpurchase, heventUser, heventAmount⟩ := hanswered
  obtain ⟨hsameUser, hsameAmount⟩ := hagree creator hcreator hkey
  refine ⟨⟨row, hrow, hid, ?_, ?_, ?_⟩, event, hevent, hpurchase, ?_, ?_⟩
  · rw [huser, hsameUser]
  · rw [hamount, hsameAmount]
  · rw [hrowKey, hkey]
  · rw [heventUser, hsameUser]
  · rw [heventAmount, hsameAmount]

/-! ## Two requests with one key -/

/-- A request that is sent again gets its own purchase. -/
theorem returned_of_key_repeated : ∃ tr s, Reaches tr s ∧
    s.threads 1 = .returned ⟨aminaPurchase, 1, some "idem_key_1"⟩ 0 ∧
    Purchased s.world.db ⟨aminaPurchase, 1, some "idem_key_1"⟩ 0 := by
  obtain ⟨tr, s, h, hp⟩ := exists_run_of_trace step initial
    (.call ⟨aminaPurchase, 0, some "idem_key_1"⟩ :: Label.oks 0 7 ++
      .call ⟨aminaPurchase, 1, some "idem_key_1"⟩ :: Label.oks 1 1)
    (fun r => ((calls r.1).all fun other => decide (other.dto = aminaPurchase)) &&
      decide (r.2.threads 1 = .returned ⟨aminaPurchase, 1, some "idem_key_1"⟩ 0))
    (by decide +kernel)
  rw [Bool.and_eq_true, List.all_eq_true, decide_eq_true_eq] at hp
  refine ⟨tr, s, h, hp.2, (returned_of_key h hp.2).2.2 fun other hother _ => ?_⟩
  rw [of_decide_eq_true (hp.1 other hother)]
  exact ⟨rfl, rfl⟩

/-- The second request is for another user and amount, and gets the purchase of the first. -/
theorem returned_foreign : ¬∀ (tr : List (Move State Label)) (s : State) (e : ℕ) (call : Call)
    (purchaseId : ReadableId), Reaches tr s → s.threads e = .returned call purchaseId →
    Purchased s.world.db call purchaseId := by
  intro hall
  obtain ⟨tr, s, h, hp⟩ := exists_run_of_trace step initial
    (.call ⟨aminaPurchase, 0, some "idem_key_1"⟩ :: Label.oks 0 7 ++
      .call ⟨{ aminaPurchase with userId := "usr_2", amountKobo := 700000 }, 1, some "idem_key_1"⟩ ::
        Label.oks 1 1)
    (fun r => (r.2.world.db.purchases.all fun row => row.userId = "usr_1") &&
      decide (r.2.threads 1 = .returned
        ⟨{ aminaPurchase with userId := "usr_2", amountKobo := 700000 }, 1, some "idem_key_1"⟩ 0))
    (by decide +kernel)
  rw [Bool.and_eq_true, List.all_eq_true, decide_eq_true_eq] at hp
  obtain ⟨⟨row, hrow, _, huser, _⟩, _⟩ := hall tr s 1 _ _ h hp.2
  rw [of_decide_eq_true (hp.1 row hrow)] at huser
  exact absurd huser (by decide)

end Bumpa.Purchases
