import Bumpa.Cashback.BadgeRows

/-! # What may change a SUCCESSFUL row

A SUCCESSFUL transaction is settled; only Paystack's report that the transfer failed or was
reversed may change its status. The claim, the reset, the retries' flip and the reset of the count
are conditional or touch no status; four statements save a whole entity, which may have been read
long ago (`saved`): the commit of `handleBadgeUnlocked`, the attempt's result, the FAILED record of
its catch block, and a webhook's save.

Who reads the row after its success was saved does it no harm: an attempt and the retries stop, a
handler of the badge saves the success again, a webhook acts on the reference it has found. So the
harm is done by an operation that had read the row before (`savesLate`): an attempt that stores
PENDING or gives up in its catch block, the one that saved the success included, when publishing is
rejected or the answer to its commit is lost; a handler of the badge that commits an older copy; a
webhook about a reference that the success has replaced.

`success_terminal_iff`: these are all the ways (`NoLateSave`). The invariant is that a SUCCESSFUL
row has a latest save, and that every operation which holds a copy of the row had it when that save
was made or has read it since (`Settled`). `success_overwritten` is a run in which publishing fails
after the success was committed.
-/
namespace Bumpa.Cashback
open Bumpa.Events Bumpa.Relational Bumpa.Transition
set_option autoImplicit false

/-- The step is that of a webhook which reports the row's transfer as failed or reversed. -/
def ReportsFailure (s : State) (l : Label) (row : CashbackTransaction) : Prop :=
  ∃ e o hook t, l = .run e o ∧ s.threads e = .webhook hook (.save t) ∧
    hook.event.outcome = .failed ∧ row.providerReference = some hook.reference

/-- The transition changes the status of no SUCCESSFUL row, unless its transfer is reported. -/
def KeepsSuccess (x : Move State Label) : Prop :=
  ∀ k row, x.source.world.row k = some row → row.status = .successful →
    x.target.world.statusOf k = some .successful ∨ ReportsFailure x.source x.label row

/-- The row whose whole entity the step saves, and the status it has in the copy. -/
def saved (s : State) : Label → Option (ReadableId × CashbackTransactionStatus)
  | .run e o =>
    match s.threads e with
    | .badge (.commit _ t) =>
      if o.takesEffect && s.world.holdsRow e t then some (t.id, t.status) else none
    | .payment _ (.store t _ result) =>
      if o.takesEffect then some (t.id, .ofPayment result.status) else none
    | .payment r (.recover t error) =>
      if o.takesEffect && !handsBack r (classifyCashbackFailure error) then some (t.id, .failed)
      else none
    | .webhook hook (.save t) =>
      if o.takesEffect then some (t.id, .ofPayment hook.event.outcome) else none
    | _ => none
  | _ => none

/-- The transition saves row `k`. -/
def Saves (k : ReadableId) (x : Move State Label) : Prop :=
  ∃ status, saved x.source x.label = some (k, status)

/-- The thread holds a copy of row `k`. -/
def Thread.hasRead (k : ReadableId) (th : Thread) : Bool := th.loaded.any (·.id = k)

/-- What the thread is about to save is the FAILED record of a catch block, a result that is not a
success, a copy that `handleBadgeUnlocked` found before the row was SUCCESSFUL, or the failure of a
transfer that is not the row's. -/
def Thread.savesLate (w : World) : Thread → Bool
  | .payment _ (.recover _ _) => true
  | .payment _ (.store _ _ result) => result.status ≠ .successful
  | .badge (.commit _ t) => t.status ≠ .successful
  | .webhook hook (.save t) => hook.event.outcome = .failed &&
      (w.row t.id).any fun row => row.providerReference ≠ some hook.reference
  | _ => false

/-- No operation that had read a row before a success of it was committed makes the next save of
that row, be it from its catch block, with another result, with its older copy, or about another
transfer. -/
def NoLateSave (tr : List (Move State Label)) : Prop :=
  ∀ k y x e o, Consecutive (Saves k) y x tr → saved y.source y.label = some (k, .successful) →
    x.label = .run e o → (y.source.threads e).hasRead k = true →
    (x.source.threads e).savesLate x.source.world = false

/-! ## One step -/

theorem holdsRow_iff {w : World} {e : ℕ} {t : CashbackTransaction} :
    w.holdsRow e t = true ↔ w.db.locks (.badge t.userId t.badgeName) = some e ∨
      w.db.locks (.row t.id) = some e := by
  simp [World.holdsRow]

theorem hasRead_iff {k : ReadableId} {th : Thread} :
    th.hasRead k = true ↔ ∃ t, th.loaded = some t ∧ t.id = k := by
  simp [Thread.hasRead, Option.any_eq_true]

/-- Whoever saves a row holds a copy of it. -/
theorem hasRead_of_saved {s : State} {e : ℕ} {o : Outcome} {k : ReadableId}
    {status : CashbackTransactionStatus} (h : saved s (.run e o) = some (k, status)) :
    (s.threads e).hasRead k = true := by
  unfold saved at h
  grind [Thread.hasRead, Thread.loaded, Thread.copy]

theorem saved_run {s : State} {l : Label} {k : ReadableId} {status : CashbackTransactionStatus}
    (h : saved s l = some (k, status)) : ∃ e o, l = .run e o := by
  cases l with
  | run e o => exact ⟨e, o, rfl⟩
  | _ => cases h

/-- A save leaves the row with the status of the copy. -/
theorem saved_status {cfg : Config} {s s' : State} {l : Label} {k : ReadableId}
    {status : CashbackTransactionStatus} (h : step cfg s l = some s')
    (hsaved : saved s l = some (k, status)) : s'.world.statusOf k = some status := by
  obtain ⟨e, o, rfl⟩ := saved_run hsaved
  obtain ⟨th', hadv, _, _⟩ := step_run h
  unfold saved at hsaved
  cases hth : s.threads e with
  | badge pc =>
    cases pc with
    | commit event t =>
      simp only [hth, Option.ite_none_right_eq_some, Option.some.injEq, Prod.mk.injEq] at hsaved
      obtain ⟨hmade, rfl, rfl⟩ := hsaved
      rw [hth] at hadv
      exact statusOf_eq ((commit_rows hadv t.id).trans (if_pos ⟨hmade, rfl⟩))
    | _ => simp [hth] at hsaved
  | payment r pc =>
    cases pc with
    | store t account result =>
      simp only [hth, Option.ite_none_right_eq_some, Option.some.injEq, Prod.mk.injEq] at hsaved
      obtain ⟨hmade, rfl, rfl⟩ := hsaved
      rw [hth] at hadv
      exact statusOf_eq ((store_rows hadv t.id).trans (if_pos ⟨hmade, rfl⟩))
    | recover t error =>
      simp only [hth, Option.ite_none_right_eq_some, Option.some.injEq, Prod.mk.injEq] at hsaved
      obtain ⟨hmade, rfl, rfl⟩ := hsaved
      rw [hth] at hadv
      have hrows := recover_rows hadv t.id
      have hrecords : (Thread.payment r (.recover t error)).recordsFailure o = true := hmade
      rw [if_pos hrecords, if_pos rfl] at hrows
      exact statusOf_eq hrows
    | _ => simp [hth] at hsaved
  | webhook hook pc =>
    cases pc with
    | save t =>
      simp only [hth, Option.ite_none_right_eq_some, Option.some.injEq, Prod.mk.injEq] at hsaved
      obtain ⟨hmade, rfl, rfl⟩ := hsaved
      rw [hth] at hadv
      rw [statusOf_eq ((webhookSave_rows hadv t.id).trans (if_pos ⟨hmade, rfl⟩)), mark_status]
    | _ => simp [hth] at hsaved
  | _ => simp [hth] at hsaved

/-- The row is SUCCESSFUL under this reference. -/
def World.settledUnder (w : World) (k : ReadableId) (reference : Option Reference) : Prop :=
  ∃ row, w.row k = some row ∧ row.status = .successful ∧ row.providerReference = reference

theorem settledUnder_congr {w w' : World} {k : ReadableId} (h : w'.row k = w.row k)
    (reference : Option Reference) : w'.settledUnder k reference ↔ w.settledUnder k reference := by
  rw [World.settledUnder, h, World.settledUnder]

theorem settledUnder_row {w : World} {k : ReadableId} {row : CashbackTransaction}
    (h : w.row k = some row) (reference : Option Reference) :
    w.settledUnder k reference ↔ row.status = .successful ∧ row.providerReference = reference := by
  simp only [World.settledUnder, h, Option.some.injEq, exists_eq_left']

/-- What a thread writes is a save, or leaves a row SUCCESSFUL exactly if it was, under the
reference it had. -/
theorem RowWrite.saved_or {cfg : Config} {s : State} {e : ℕ} {o : Outcome} {k : ReadableId}
    {v : CashbackTransaction} (hv : RowWrite cfg s.world e (s.threads e) k v)
    (ho : o.takesEffect = true) :
    saved s (.run e o) = some (k, v.status) ∨ ∃ row, s.world.row k = some row ∧
      ∀ reference, (v.status = .successful ∧ v.providerReference = reference) ↔
        row.status = .successful ∧ row.providerReference = reference := by
  generalize hth : s.threads e = th at hv
  cases hv with
  | @commit event t held =>
    exact Or.inl (by simp [saved, hth, ho, holdsRow_iff.mpr held])
  | @claim r t row found pending =>
    refine Or.inr ⟨row, found, fun reference => ?_⟩
    simp [CashbackTransaction.claimed, pending]
  | @store r t account result free => exact Or.inl (by simp [saved, hth, ho]; rfl)
  | @reset r t row error found processing back =>
    refine Or.inr ⟨row, found, fun reference => ?_⟩
    simp [processing]
  | @failure r t error final free => exact Or.inl (by simp [saved, hth, ho, final]; rfl)
  | @revive caller k event row found failed =>
    refine Or.inr ⟨row, found, fun reference => ?_⟩
    simp [CashbackTransaction.revived, failed]
  | @resetCount t row account found => exact Or.inr ⟨row, found, fun reference => Iff.rfl⟩
  | @webhook hook t free => exact Or.inl (by simp [saved, hth, ho, mark_status])

/-- Only saves make a row SUCCESSFUL, put another reference on a SUCCESSFUL row or end its
status. -/
theorem settledUnder_iff {cfg : Config} {s s' : State} {l : Label} {k : ReadableId}
    (h : step cfg s l = some s') (hk : ∀ status, saved s l ≠ some (k, status))
    (reference : Option Reference) :
    s'.world.settledUnder k reference ↔ s.world.settledUnder k reference := by
  rcases step_cases h with ⟨e, o, th', rfl, hadv, _, _⟩ | ⟨hw, _, _⟩
  · rcases advance_writes hadv with hsame | ⟨ho, j, v, hv, hwritten⟩
    · exact settledUnder_congr (hsame k) reference
    · by_cases hj : k = j
      · subst hj
        rcases hv.saved_or ho with hsaved | ⟨row, hrow, hiff⟩
        · exact absurd hsaved (hk v.status)
        · rw [settledUnder_row ((hwritten k).trans (if_pos rfl)), settledUnder_row hrow]
          exact hiff reference
      · exact settledUnder_congr ((hwritten k).trans (if_neg hj)) reference
  · exact settledUnder_congr (by rw [World.row, hw.transactions]) reference

/-! ## Who has read the row -/

/-- The thread has read the row while it was SUCCESSFUL under this reference. -/
def Thread.ReadSettled (reference : Option Reference) : Thread → Prop
  | .payment _ _ => False
  | th => ∀ t, th.loaded = some t → t.status = .successful ∧ t.providerReference = reference

/-- An attempt takes a copy only of a PENDING row. -/
theorem processPayment_reads {cfg : Config} {w w' : World} {e : ℕ} {r : PaymentRun}
    {pc : PaymentPc} {o : Outcome} {th' : Thread}
    (h : processPayment cfg w e r pc o = some (w', th')) {t' : CashbackTransaction}
    (ht' : th'.loaded = some t') :
    (w.row t'.id = some t' ∧ t'.status = .pending) ∨
      ∃ t, (Thread.payment r pc).loaded = some t ∧ t'.id = t.id := by
  have hkey : ∀ t, w.db.transactions.row r.transactionId = some t → t.id = r.transactionId :=
    fun t ht => w.db.transactions.key_eq ht
  have hresult : ∀ (t row : CashbackTransaction) (result : CashbackPaymentResult),
      (t.withResult row result).id = t.id := fun _ _ _ => rfl
  have hclaim : ∀ (t : CashbackTransaction) reference, (t.claimed reference).id = t.id :=
    fun _ _ => rfl
  cases pc
  all_goals
    simp only [processPayment, findTransaction, claim, findAccount, saveAccount, sendCashback,
      initiateTransfer, receive, store, publish, recover, publishFailure] at h
    grind [Thread.loaded, Thread.copy]

theorem handleBadgeUnlocked_reads {cfg : Config} {w w' : World} {e : ℕ} {pc : BadgePc}
    {o : Outcome} {th' : Thread} (h : handleBadgeUnlocked cfg w e pc o = some (w', th'))
    {t' : CashbackTransaction} (ht' : th'.loaded = some t') :
    w.row t'.id = some t' ∨ t'.id = w.nextId ∨ (Thread.badge pc).loaded = some t' := by
  have hfound : ∀ userId badgeName t, w.findByBadge userId badgeName = some t →
      w.row t.id = some t := fun userId badgeName t ht => (Table.find?_eq_some ht).1
  have hnew : ∀ id event, (createTransaction cfg id event).id = id := fun _ _ => rfl
  unfold handleBadgeUnlocked at h
  grind [Thread.loaded, Thread.copy]

/-- Who holds a copy of a SUCCESSFUL row after the step held one before, or has just read it. -/
theorem advance_reads {cfg : Config} {w w' : World} {e : ℕ} {th th' : Thread} {o : Outcome}
    (h : advance cfg w e th o = some (w', th')) {k : ReadableId} {reference : Option Reference}
    (hsettled : w.settledUnder k reference) (hfresh : k ≠ w.nextId) (hread : th'.hasRead k = true) :
    th.hasRead k = true ∧ (th.ReadSettled reference → th'.ReadSettled reference) ∨
      th'.ReadSettled reference := by
  obtain ⟨row, hrow, hstatus, href⟩ := hsettled
  obtain ⟨t', ht', hid⟩ := hasRead_iff.mp hread
  -- a copy that was read just now is the row
  have hnow : w.row t'.id = some t' → t'.status = .successful ∧ t'.providerReference = reference := by
    intro hsame
    rw [hid, hrow, Option.some.injEq] at hsame
    rw [← hsame]
    exact ⟨hstatus, href⟩
  cases th with
  | done => cases h
  | badge pc =>
    obtain rfl | ⟨pc', rfl⟩ := (handleBadgeUnlocked_frame h).2.2
    · cases ht'
    · rcases handleBadgeUnlocked_reads h ht' with hsame | hnew | hold
      · refine Or.inr fun t ht => ?_
        rw [ht', Option.some.injEq] at ht
        rw [← ht]
        exact hnow hsame
      · exact absurd (hid.symm.trans hnew) hfresh
      · refine Or.inl ⟨hasRead_iff.mpr ⟨t', hold, hid⟩, fun hs t ht => ?_⟩
        rw [ht', Option.some.injEq] at ht
        rw [← ht]
        exact hs t' hold
  | payment r pc =>
    rcases processPayment_reads h ht' with ⟨hsame, hpending⟩ | ⟨t, ht, hold⟩
    · rw [(hnow hsame).1] at hpending
      cases hpending
    · exact Or.inl ⟨hasRead_iff.mpr ⟨t, ht, hold.symm.trans hid⟩, False.elim⟩
  | retry caller k event pc =>
    rcases (retryPayment_frame h).2.2 with rfl | ⟨pc', rfl⟩ | ⟨pc', rfl⟩ <;> cases ht'
  | manual pc =>
    rcases (retryFailedTransaction_frame h).2 with rfl | ⟨pc', rfl⟩ | ⟨k, event, rfl⟩ <;> cases ht'
  | scan pc =>
    rcases retryEligibleFailedTransactions_thread h with rfl | ⟨pc', rfl⟩ | ⟨_, _, _, rfl⟩ <;>
      cases ht'
  | webhook hook pc =>
    obtain rfl | ⟨pc', rfl⟩ := (handleWebhook_frame h).2.2
    · cases ht'
    · refine Or.inr fun t ht => ?_
      have hcopy : (Thread.webhook hook pc').copy = some t := ht
      have hsame := handleWebhook_copy h hcopy
      rw [ht', Option.some.injEq] at ht
      rw [← ht] at hsame ⊢
      exact hnow hsame

/-! ## The run -/

/-- A SUCCESSFUL row has a latest save, a success, and whoever holds a copy of the row held one
when that save was made, or has read the row since. -/
def Settled (tr : List (Move State Label)) (s : State) : Prop :=
  ∀ k reference, s.world.settledUnder k reference → ∃ y, Latest (Saves k) y tr ∧
    saved y.source y.label = some (k, .successful) ∧
    ∀ e, (s.threads e).hasRead k = true →
      (y.source.threads e).hasRead k = true ∨ (s.threads e).ReadSettled reference

theorem hasRead_step {cfg : Config} {s s' : State} {l : Label} (h : step cfg s l = some s')
    {k : ReadableId} {reference : Option Reference} (hsettled : s.world.settledUnder k reference)
    (hfresh : k ≠ s.world.nextId) {e : ℕ} (hread : (s'.threads e).hasRead k = true) :
    (s.threads e).hasRead k = true ∧
        ((s.threads e).ReadSettled reference → (s'.threads e).ReadSettled reference) ∨
      (s'.threads e).ReadSettled reference := by
  rcases step_cases h with ⟨e', o, th', rfl, hadv, _, hth⟩ | ⟨_, hl, _⟩
  · rw [hth] at hread ⊢
    split at hread
    · next he =>
      rw [if_pos he, he]
      exact advance_reads hadv hsettled hfresh hread
    · next he =>
      rw [if_neg he]
      exact Or.inl ⟨hread, id⟩
  · rcases step_threads h hl e with hsame | hdone | hstarted
    · rw [hsame] at hread ⊢
      exact Or.inl ⟨hread, id⟩
    · rw [hdone] at hread
      cases hread
    · generalize s'.threads e = th at hread hstarted
      cases hstarted <;> cases hread

theorem reaches_settled {cfg : Config} {tr : List (Move State Label)} {s : State}
    (h : Reaches cfg tr s) : Settled tr s := by
  have hinit : Settled [] initial := by
    rintro k reference ⟨row, hrow, _⟩
    cases hrow
  refine Run.history Settled hinit ?_ h
  intro tr t l u hrun ht hstep k reference hu
  by_cases hk : ∃ status, saved t l = some (k, status)
  · -- this is the latest save, and it is of SUCCESSFUL
    obtain ⟨status, hsaved⟩ := hk
    obtain ⟨row, hrow, hstatus, _⟩ := hu
    have hrow' := saved_status hstep hsaved
    rw [statusOf_eq hrow, hstatus, Option.some.injEq] at hrow'
    subst hrow'
    refine ⟨⟨t, l, u⟩, Latest.of_snoc ⟨_, hsaved⟩, hsaved, fun e he => Or.inl ?_⟩
    obtain ⟨e', o, rfl⟩ := saved_run hsaved
    obtain ⟨th', _, _, hth⟩ := step_run hstep
    rw [hth] at he
    split at he
    · next heq =>
      rw [heq]
      exact hasRead_of_saved hsaved
    · exact he
  · have hnone := not_exists.mp hk
    have hbefore := (settledUnder_iff hstep hnone reference).mp hu
    obtain ⟨y, hlatest, hsaved, hthreads⟩ := ht k reference hbefore
    refine ⟨y, hlatest.snoc hk, hsaved, fun e he => ?_⟩
    obtain ⟨row, hrow, _⟩ := hbefore
    have hfresh : k ≠ t.world.nextId := Nat.ne_of_lt
      ((reaches_badgeRows hrun).fresh k row.badge (Or.inl (badgeOf_of_row hrow)))
    rcases hasRead_step hstep ((settledUnder_iff hstep hnone reference).mp hu) hfresh he with
      ⟨hread, hkept⟩ | hnow
    · rcases hthreads e hread with hold | hsettled
      · exact Or.inl hold
      · exact Or.inr (hkept hsettled)
    · exact Or.inr hnow

/-- Between two consecutive saves of a row, the first a success, the row stays SUCCESSFUL. -/
theorem consecutive_settled {cfg : Config} {s : State} {k : ReadableId} {y x : Move State Label}
    {tr : List (Move State Label)} (h : Reaches cfg tr s) (hyx : Consecutive (Saves k) y x tr)
    (hy : saved y.source y.label = some (k, .successful)) :
    ∃ row, x.source.world.row k = some row ∧ row.status = .successful := by
  obtain ⟨before, after, ⟨earlier, rest, rfl, _, hrest⟩, _, rfl⟩ := hyx
  have hrun : Reaches cfg (earlier ++ y :: rest) x.source := h.before
  clear h
  generalize x.source = t at hrun
  induction rest using List.reverseRecOn generalizing t with
  | nil =>
    generalize htr : earlier ++ [y] = tr at hrun
    cases hrun with
    | nil => exact absurd htr (by simp)
    | snoc prev last =>
      obtain ⟨_, hlast⟩ := List.append_inj' htr rfl
      rw [List.singleton_inj.mp hlast] at hy
      have hstatus := saved_status last hy
      rw [World.statusOf, Option.map_eq_some_iff] at hstatus
      exact hstatus
  | append_singleton rest z ih =>
    generalize htr : earlier ++ y :: (rest ++ [z]) = tr at hrun
    cases hrun with
    | nil => exact absurd htr (by simp)
    | snoc prev last =>
      rw [← List.cons_append, ← List.append_assoc] at htr
      obtain ⟨rfl, hlast⟩ := List.append_inj' htr rfl
      obtain ⟨row, hrow, hstatus⟩ := ih (fun z hz => hrest z (List.mem_append_left _ hz)) _ prev
      have hz := hrest z (List.mem_append_right _ (.head _))
      rw [List.singleton_inj.mp hlast] at hz
      obtain ⟨row', hrow', hstatus', _⟩ := (settledUnder_iff last (not_exists.mp hz)
        row.providerReference).mpr ⟨row, hrow, hstatus, rfl⟩
      exact ⟨row', hrow', hstatus'⟩

/-- A save does no harm that is one of a success, or of a webhook about the row's reference. -/
theorem saved_keeps {cfg : Config} {s s' : State} {e : ℕ} {o : Outcome} {k : ReadableId}
    {row : CashbackTransaction} {status : CashbackTransactionStatus}
    (h : step cfg s (.run e o) = some s') (hsaved : saved s (.run e o) = some (k, status))
    (hstatus : status = .successful ∨ ∃ hook t, s.threads e = .webhook hook (.save t) ∧
      row.providerReference = some hook.reference) :
    s'.world.statusOf k = some .successful ∨ ReportsFailure s (.run e o) row := by
  rcases hstatus with rfl | ⟨hook, t, hth, href⟩
  · exact Or.inl (saved_status h hsaved)
  rcases outcome_cases hook.event with hsuccess | hfailed
  · refine Or.inl ?_
    rw [saved_status h hsaved]
    simp only [saved, hth, hsuccess, Option.ite_none_right_eq_some, Option.some.injEq,
      Prod.mk.injEq] at hsaved
    rw [← hsaved.2.2]
    rfl
  · exact Or.inr ⟨e, o, hook, t, rfl, hth, hfailed, href⟩

/-- Who has read the row while it was SUCCESSFUL saves a success, or is a webhook about the
reference it had. -/
theorem saved_of_readSettled {s : State} {e : ℕ} {o : Outcome} {k : ReadableId}
    {status : CashbackTransactionStatus} {reference : Option Reference}
    (hsaved : saved s (.run e o) = some (k, status))
    (hsettled : (s.threads e).ReadSettled reference) (hco : (s.threads e).Coherent) :
    status = .successful ∨
      ∃ hook t, s.threads e = .webhook hook (.save t) ∧ reference = some hook.reference := by
  cases hth : s.threads e with
  | badge pc =>
    cases pc with
    | commit event t =>
      have hstatus : t.status = .successful := by
        rw [hth] at hsettled
        exact (hsettled t rfl).1
      simp only [saved, hth, hstatus, Option.ite_none_right_eq_some, Option.some.injEq,
        Prod.mk.injEq] at hsaved
      exact Or.inl hsaved.2.2.symm
    | _ => simp [saved, hth] at hsaved
  | payment r pc =>
    rw [hth] at hsettled
    exact hsettled.elim
  | webhook hook pc =>
    cases pc with
    | save t =>
      rw [hth] at hsettled hco
      exact Or.inr ⟨hook, t, rfl, by rw [← (hsettled t rfl).2, hco]⟩
    | _ => simp [saved, hth] at hsaved
  | _ => simp [saved, hth] at hsaved

/-- Whoever saves a row and not late saves a success, or is a webhook about the row's reference. -/
theorem savesLate_eq_false {s : State} {e : ℕ} {o : Outcome} {k : ReadableId}
    {row : CashbackTransaction} {status : CashbackTransactionStatus}
    (hsaved : saved s (.run e o) = some (k, status)) (hrow : s.world.row k = some row) :
    (s.threads e).savesLate s.world = false ↔ status = .successful ∨
      ∃ hook t, s.threads e = .webhook hook (.save t) ∧
        row.providerReference = some hook.reference := by
  have hsaver := hsaved
  cases hth : s.threads e with
  | badge pc =>
    cases pc with
    | commit event t =>
      simp only [saved, hth, Option.ite_none_right_eq_some, Option.some.injEq,
        Prod.mk.injEq] at hsaver
      simp [Thread.savesLate, hsaver.2.2]
    | _ => simp [saved, hth] at hsaver
  | payment r pc =>
    cases pc with
    | store t account result =>
      simp only [saved, hth, Option.ite_none_right_eq_some, Option.some.injEq,
        Prod.mk.injEq] at hsaver
      rw [← hsaver.2.2]
      simp [Thread.savesLate, CashbackTransactionStatus.ofPayment_eq_successful]
    | recover t error =>
      simp only [saved, hth, Option.ite_none_right_eq_some, Option.some.injEq,
        Prod.mk.injEq] at hsaver
      rw [← hsaver.2.2]
      simp [Thread.savesLate]
    | _ => simp [saved, hth] at hsaver
  | webhook hook pc =>
    cases pc with
    | save t =>
      simp only [saved, hth, Option.ite_none_right_eq_some, Option.some.injEq,
        Prod.mk.injEq] at hsaver
      rw [← hsaver.2.2]
      rw [← hsaver.2.1] at hrow
      rcases outcome_cases hook.event with houtcome | houtcome
      · simp [Thread.savesLate, houtcome, CashbackTransactionStatus.ofPayment]
      · simp [Thread.savesLate, houtcome, hrow, CashbackTransactionStatus.ofPayment]
    | _ => simp [saved, hth] at hsaver
  | _ => simp [saved, hth] at hsaver

/-- A run keeps its SUCCESSFUL rows exactly if no operation that had read a row before its success
was saved makes the next save of it late. -/
theorem success_terminal_iff {cfg : Config} {tr : List (Move State Label)} {s : State}
    (h : Reaches cfg tr s) : (∀ x ∈ tr, KeepsSuccess x) ↔ NoLateSave tr := by
  constructor
  · intro hkeeps k y x e o hyx hy hl _
    obtain ⟨row, hrow, hstatus⟩ := consecutive_settled h hyx hy
    obtain ⟨before, after, _, ⟨status, hsaved⟩, htr⟩ := hyx
    have hx : x ∈ tr := by simp [htr]
    refine (savesLate_eq_false (hl ▸ hsaved) hrow).mpr ?_
    rcases hkeeps x hx k row hrow hstatus with hafter | ⟨e', o', hook, t, hl', hth, _, href⟩
    · rw [saved_status (h.step_of_mem x hx) hsaved, Option.some.injEq] at hafter
      exact Or.inl hafter
    · rw [hl, Label.run.injEq] at hl'
      exact Or.inr ⟨hook, t, by rw [hl'.1, hth], href⟩
  · intro hlate x hx k row hrow hstatus
    have hstep := h.step_of_mem x hx
    by_cases hk : Saves k x
    · obtain ⟨before, after, rfl⟩ := List.append_of_mem hx
      have hrun : Reaches cfg before x.source := h.before
      obtain ⟨y, hlatest, hy, hthreads⟩ := reaches_settled hrun k row.providerReference
        ⟨row, hrow, hstatus, rfl⟩
      have hyx : Consecutive (Saves k) y x (before ++ x :: after) :=
        ⟨before, after, hlatest, hk, rfl⟩
      obtain ⟨status, hsaved⟩ := hk
      obtain ⟨e, o, hl⟩ := saved_run hsaved
      have hnotLate := hlate k y x e o hyx hy hl
      rw [hl] at hsaved hstep ⊢
      refine saved_keeps hstep hsaved ?_
      rcases hthreads e (hasRead_of_saved hsaved) with hread | hsettled
      · exact (savesLate_eq_false hsaved hrow).mp (hnotLate hread)
      · exact saved_of_readSettled hsaved hsettled (reaches_coherent hrun e)
    · obtain ⟨row', hrow', hstatus', _⟩ := (settledUnder_iff hstep (not_exists.mp hk)
        row.providerReference).mpr ⟨row, hrow, hstatus, rfl⟩
      exact Or.inl (by rw [statusOf_eq hrow', hstatus'])

/-! ## Schedules -/

/-- Thread 1 runs job 0 up to the commit of its SUCCESSFUL result. -/
def paidByMock : List Label :=
  deliver 0 (badgeEvent 0 "Bronze" "0123456789") ++ .takeJob 0 :: Label.oks 1 6

/-- The transition saves a success. -/
def savesSuccess (x : Move State Label) : Bool :=
  (saved x.source x.label).any (·.2 = .successful)

/-- The transition is a late save. -/
def isLate (x : Move State Label) : Bool :=
  match x.label with
  | .run e _ => (x.source.threads e).savesLate x.source.world
  | _ => false

/-- Nothing is saved late after a success. -/
theorem noLateSave_of_followed {tr : List (Move State Label)}
    (h : followed savesSuccess isLate tr = false) : NoLateSave tr := by
  intro k y x e o hyx hy hl _
  have hfirst : savesSuccess y = true := by simp [savesSuccess, hy]
  have hlast : isLate x = (x.source.threads e).savesLate x.source.world := by rw [isLate, hl]
  rw [← hlast, ← Bool.not_eq_true]
  intro hlate
  rw [hyx.followed hfirst hlate] at h
  cases h

theorem success_terminal_published : ∃ tr s, Reaches mockConfig tr s ∧
    s.world.statusOf 0 = some .successful ∧ ∀ x ∈ tr, KeepsSuccess x := by
  obtain ⟨tr, s, h, hp⟩ := exists_run_of_trace (step mockConfig) initial
    (paidByMock ++ Label.oks 1 1)
    (fun r => !followed savesSuccess isLate r.1 &&
      decide (r.2.world.statusOf 0 = some .successful)) (by decide +kernel)
  rw [Bool.and_eq_true, Bool.not_eq_true', decide_eq_true_eq] at hp
  exact ⟨tr, s, h, hp.2, (success_terminal_iff h).mpr (noLateSave_of_followed hp.1)⟩

/-- Publishing fails after the success was committed, and the catch block records FAILED. -/
theorem success_overwritten : ¬ ∀ (cfg : Config) (tr : List (Move State Label)) (s : State),
    Reaches cfg tr s → ∀ x ∈ tr, KeepsSuccess x := by
  intro hall
  obtain ⟨tr, s, h, hp⟩ := exists_run_of_trace (step mockConfig) initial
    (paidByMock ++ [.run 1 (.fails (.other "read ECONNRESET") false), .run 1 .ok])
    (fun r => r.1.any fun x =>
      (x.source.world.row 0).any (·.status = .successful) &&
        x.target.world.statusOf 0 ≠ some .successful && stepOf 1 Thread.recordsFailure x)
    (by decide +kernel)
  obtain ⟨x, hx, hbad⟩ := List.any_eq_true.mp hp
  simp only [Bool.and_eq_true, Option.any_eq_true, decide_eq_true_eq] at hbad
  obtain ⟨⟨⟨row, hrow, hstatus⟩, hafter⟩, hfailure⟩ := hbad
  rcases hall mockConfig tr s h x hx 0 row hrow hstatus with hkept | ⟨e, o, hook, t, hl, hth, _⟩
  · exact hafter hkept
  · rw [stepOf, hl, Bool.and_eq_true, decide_eq_true_eq] at hfailure
    obtain ⟨rfl, hrecords⟩ := hfailure
    rw [hth] at hrecords
    cases hrecords

end Bumpa.Cashback
