import Bumpa.Cashback.Writes

/-! # The recipient a transfer is paid to

A payout account caches the recipient code that Paystack created for its bank details, and a
request carries both. `upsertPayoutAccount` and the override of `retryFailedTransaction` put new
bank details on the stored account and leave the code as it is.

`pays_account_on_record`: if details are put on an account with a code only when they are the ones
it has, every transfer goes to a recipient created from exactly the details of its request.
`pays_previous_account` is a run that breaks the condition: a user's second badge comes with a new
account number, and the money goes to the old one.

The invariant follows a code from where it is stored, through the local variables of the attempts,
to the transfer: wherever details and a code travel together, the code denotes the details.
-/
namespace Bumpa.Cashback
open Bumpa.Events Bumpa.Relational Bumpa.Transition
set_option autoImplicit false

/-- Paystack created the recipient from exactly the bank details of the request. -/
def World.PaysRequested (w : World) (request : CashbackPaymentRequest) (code : String) : Prop :=
  w.paystack.recipients code = some (request.bankAccountNumber, request.bankCode)

/-- Every transfer that is being initiated or has been accepted. -/
def State.PaysAccountOnRecord (s : State) : Prop :=
  (∀ e r t account request code,
    s.threads e = .payment r (.initiateTransfer t account request code) →
      s.world.PaysRequested request code) ∧
  ∀ tr ∈ s.world.paystack.transfers, s.world.PaysRequested tr.request tr.recipientCode

/-- Complete bank details put on an account with a recipient code are the ones it has. -/
def PayoutAccount.keeps (account : PayoutAccount) (bankAccountNumber bankCode : Option String) :
    Bool :=
  account.providerRecipientCode = none || !(truthy bankAccountNumber && truthy bankCode) ||
    (bankAccountNumber = some account.bankAccountNumber && bankCode = some account.bankCode)

/-- `upsertPayoutAccount` and the override of a manual retry keep the details that a stored
recipient code was created from. -/
def keepsDetails (s : State) : Label → Bool
  | .run e .ok =>
    match s.threads e with
    | .payment r (.findAccount _ _) =>
      (s.world.account r.event.payload.user.id).all
        (·.keeps r.event.payload.user.bankAccountNumber r.event.payload.user.bankCode)
    | .manual (.findAccount t override) =>
      (s.world.account t.userId).all (·.keeps override.bankAccountNumber override.bankCode)
    | _ => true
  | _ => true

/-! ## Codes that denote the details they travel with -/

def World.Denotes (w : World) (code : Option String) (bankAccountNumber bankCode : String) : Prop :=
  ∀ c, code = some c → w.paystack.recipients c = some (bankAccountNumber, bankCode)

def PayoutAccount.Denoted (w : World) (account : PayoutAccount) : Prop :=
  w.Denotes account.providerRecipientCode account.bankAccountNumber account.bankCode

def CashbackPaymentRequest.IsFor (request : CashbackPaymentRequest) (account : PayoutAccount) :
    Prop :=
  request.bankAccountNumber = account.bankAccountNumber ∧ request.bankCode = account.bankCode

/-- The local variables of a thread. -/
def Thread.Denoted (w : World) : Thread → Prop
  | .payment _ (.saveAccount _ _ account _) => account.Denoted w
  | .payment _ (.sendCashback _ account request) =>
    request.IsFor account ∧
      w.Denotes request.providerRecipientCode request.bankAccountNumber request.bankCode
  | .payment _ (.initiateTransfer _ account request code) =>
    request.IsFor account ∧ w.PaysRequested request code
  | .payment _ (.receive _ account result) =>
    w.Denotes result.providerRecipientCode account.bankAccountNumber account.bankCode
  | .payment _ (.store _ account result) =>
    w.Denotes result.providerRecipientCode account.bankAccountNumber account.bankCode
  | .manual (.saveAccount _ account _) => account.Denoted w
  | _ => True

/-- The stored accounts and the accepted transfers. -/
structure RecipientsDenote (w : World) : Prop where
  accounts : ∀ userId account, w.account userId = some account → account.Denoted w
  transfers : ∀ tr ∈ w.paystack.transfers, w.PaysRequested tr.request tr.recipientCode

/-! ## Paystack forgets no recipient -/

/-- The recipients of `w` exist in `w'`, and denote the same details. -/
def Retains (w w' : World) : Prop :=
  ∀ code details, w.paystack.recipients code = some details →
    w'.paystack.recipients code = some details

theorem Retains.of_eq {w w' : World} (h : w'.paystack.recipients = w.paystack.recipients) :
    Retains w w' := by
  intro code details hcode
  rw [h]
  exact hcode

theorem Retains.thread {w w' : World} (h : Retains w w') {th : Thread} (hth : th.Denoted w) :
    th.Denoted w' := by
  have hdenotes : ∀ code number bank, w.Denotes code number bank → w'.Denotes code number bank :=
    fun code number bank hd c hc => h c _ (hd c hc)
  unfold Thread.Denoted at hth ⊢
  split at hth
  · exact hdenotes _ _ _ hth
  · exact ⟨hth.1, hdenotes _ _ _ hth.2⟩
  · exact ⟨hth.1, h _ _ hth.2⟩
  · exact hdenotes _ _ _ hth
  · exact hdenotes _ _ _ hth
  · exact hdenotes _ _ _ hth
  · exact trivial

/-- A recipient that Paystack creates has a new code, or one that denotes the same details. -/
theorem createRecipient_retains {w : World} {code number bank : String}
    (h : (w.paystack.recipients code).all (· = (number, bank)) = true) :
    Retains w (w.createRecipient code number bank) := by
  intro c details hc
  simp only [World.createRecipient, Function.update_apply]
  split
  · next heq =>
    rw [heq] at hc
    rw [hc, Option.all_some, decide_eq_true_eq] at h
    rw [h]
  · exact hc

theorem createRecipient_pays (w : World) (code number bank : String) :
    (w.createRecipient code number bank).paystack.recipients code = some (number, bank) := by
  simp only [World.createRecipient, Function.update_self]

/-- Recipients and accepted transfers that stay keep the part of the invariant about them. -/
theorem RecipientsDenote.retain {w w' : World} (hw : RecipientsDenote w) (h : Retains w w')
    (haccounts : ∀ userId account, w'.account userId = some account →
      w.account userId = some account ∨ account.Denoted w')
    (htransfers : ∀ tr ∈ w'.paystack.transfers,
      (∃ tr₀ ∈ w.paystack.transfers, tr₀.request = tr.request ∧
        tr₀.recipientCode = tr.recipientCode) ∨ w'.PaysRequested tr.request tr.recipientCode) :
    RecipientsDenote w' where
  accounts := by
    intro userId account haccount
    rcases haccounts userId account haccount with hold | hnew
    · exact fun c hc => h c _ (hw.accounts userId account hold c hc)
    · exact hnew
  transfers := by
    intro tr htr
    rcases htransfers tr htr with ⟨tr₀, htr₀, hreq, hcode⟩ | hnew
    · have hpays := h _ _ (hw.transfers tr₀ htr₀)
      rw [hreq, hcode] at hpays
      exact hpays
    · exact hnew

/-- An operation that calls no Paystack endpoint and writes no account. -/
theorem RecipientsDenote.frame {w w' : World} (hw : RecipientsDenote w)
    (hpaystack : w'.paystack = w.paystack)
    (haccounts : w'.db.payoutAccounts = w.db.payoutAccounts) : RecipientsDenote w' := by
  refine hw.retain (Retains.of_eq (by rw [hpaystack])) (fun userId account h => ?_) fun tr h => ?_
  · rw [World.account, haccounts] at h
    exact Or.inl h
  · rw [hpaystack] at h
    exact Or.inl ⟨tr, h, rfl, rfl⟩

theorem mem_notifyTransfer {w : World} {reference : Reference} {tr : Transfer}
    (h : tr ∈ (w.notifyTransfer reference).paystack.transfers) :
    ∃ tr₀ ∈ w.paystack.transfers, tr₀.request = tr.request ∧
      tr₀.recipientCode = tr.recipientCode := by
  obtain ⟨tr₀, htr₀, rfl⟩ := List.mem_map.mp h
  refine ⟨tr₀, htr₀, ?_⟩
  split <;> exact ⟨rfl, rfl⟩

theorem mem_reportTransfer {w : World} {reference : Reference} {tr : Transfer}
    (h : tr ∈ (w.reportTransfer reference).paystack.transfers) :
    ∃ tr₀ ∈ w.paystack.transfers, tr₀.request = tr.request ∧
      tr₀.recipientCode = tr.recipientCode := by
  obtain ⟨tr₀, htr₀, rfl⟩ := List.mem_map.mp h
  refine ⟨tr₀, htr₀, ?_⟩
  split <;> exact ⟨rfl, rfl⟩

/-! ## The operations -/

theorem saveAccount_denotes {w : World} (hw : RecipientsDenote w) {account : PayoutAccount}
    (h : account.Denoted w) : RecipientsDenote (w.saveAccount account) := by
  refine hw.retain (Retains.of_eq rfl) (fun userId a ha => ?_) fun tr htr =>
    Or.inl ⟨tr, htr, rfl, rfl⟩
  rw [World.account, World.saveAccount, Table.put_row] at ha
  split at ha
  · rw [Option.some.injEq] at ha
    subst ha
    exact Or.inr h
  · exact Or.inl ha

theorem storeResult_denotes {w : World} (hw : RecipientsDenote w) {r : PaymentRun}
    {t : CashbackTransaction} {account : PayoutAccount} {result : CashbackPaymentResult}
    (h : w.Denotes result.providerRecipientCode account.bankAccountNumber account.bankCode) :
    RecipientsDenote (w.storeResult r t account result) := by
  have hsaved : RecipientsDenote (w.saveTransaction (t.withResult (w.rowOf t) result)) :=
    hw.frame rfl rfl
  have hrecorded := saveAccount_denotes hsaved (show PayoutAccount.Denoted _
    { account with providerRecipientCode := result.providerRecipientCode } from h)
  unfold World.storeResult
  split <;> split
  · exact hrecorded.frame rfl rfl
  · exact hrecorded
  · exact hsaved.frame rfl rfl
  · exact hsaved

/-- Details that keep the ones on a stored account still go with its code. -/
theorem RecipientsDenote.overwrite {w : World} (hw : RecipientsDenote w) {userId : String}
    {account : PayoutAccount} (haccount : w.account userId = some account)
    {number bank : Option String} (htruthy : (truthy number && truthy bank) = true)
    (hkeeps : account.keeps number bank = true) :
    w.Denotes account.providerRecipientCode (number.getD "") (bank.getD "") := by
  intro c hc
  simp only [PayoutAccount.keeps, hc, htruthy, reduceCtorEq, decide_false, Bool.not_true,
    Bool.or_self, Bool.false_or, Bool.and_eq_true, decide_eq_true_eq] at hkeeps
  rw [hkeeps.1, hkeeps.2]
  exact hw.accounts userId account haccount c hc

/-- What an attempt's step keeps, given that its upsert keeps the details a code was made from. -/
theorem processPayment_denotes {cfg : Config} {w w' : World} {e : ℕ} {r : PaymentRun}
    {pc : PaymentPc} {o : Outcome} {th' : Thread}
    (h : processPayment cfg w e r pc o = some (w', th')) (hw : RecipientsDenote w)
    (hth : (Thread.payment r pc).Denoted w)
    (hkeeps : o = .ok → ∀ t reference, pc = .findAccount t reference →
      ∀ account, w.account r.event.payload.user.id = some account →
        account.keeps r.event.payload.user.bankAccountNumber r.event.payload.user.bankCode = true) :
    RecipientsDenote w' ∧ th'.Denoted w' ∧ Retains w w' := by
  -- a step that leaves accounts and Paystack alone and goes on without a code
  have hquiet : w'.paystack = w.paystack → w'.db.payoutAccounts = w.db.payoutAccounts →
      th'.Denoted w' → RecipientsDenote w' ∧ th'.Denoted w' ∧ Retains w w' := fun hp ha ht =>
    ⟨hw.frame hp ha, ht, Retains.of_eq (by rw [hp])⟩
  cases pc with
  | find =>
    simp only [processPayment, findTransaction] at h
    grind [failJob_paystack, completeJob_paystack, failJob_db, completeJob_db, Thread.Denoted]
  | claim t =>
    have hclaim : ∀ j reference,
        ((w.drawIds 1).claimTransaction j reference).paystack = w.paystack ∧
        ((w.drawIds 1).claimTransaction j reference).db.payoutAccounts = w.db.payoutAccounts :=
      fun _ _ => ⟨rfl, rfl⟩
    simp only [processPayment, claim] at h
    grind [failJob_paystack, completeJob_paystack, drawIds_paystack, failJob_db, completeJob_db,
      drawIds_db, Thread.Denoted]
  | findAccount t reference =>
    simp only [processPayment, findAccount] at h
    cases o with
    | ok =>
      simp only at h
      split at h
      · next htruthy =>
        split at h
        · next existing hexisting =>
          obtain ⟨rfl, rfl⟩ := some_pair_inj h
          exact ⟨hw, hw.overwrite hexisting htruthy (hkeeps rfl t reference rfl existing hexisting),
            Retains.of_eq rfl⟩
        · obtain ⟨rfl, rfl⟩ := some_pair_inj h
          exact hquiet rfl rfl (fun c hc => by cases hc)
      · obtain ⟨rfl, rfl⟩ := some_pair_inj h
        exact hquiet rfl rfl trivial
    | fails error written =>
      simp only at h
      split at h
      · obtain ⟨rfl, rfl⟩ := some_pair_inj h
        exact hquiet rfl rfl trivial
      · cases h
    | recipient code => cases h
  | saveAccount t reference account isNew =>
    have hsave := saveAccount_denotes hw hth
    have hretains : Retains w (w.saveAccount account) := Retains.of_eq rfl
    have hrequest : (Thread.payment r (.sendCashback t account
        (cashbackPaymentRequest r.event t account reference))).Denoted (w.saveAccount account) :=
      ⟨⟨rfl, rfl⟩, hretains.thread hth⟩
    simp only [processPayment, saveAccount] at h
    grind [Thread.Denoted]
  | sendCashback t account request =>
    obtain ⟨hfor, hcode⟩ := hth
    simp only [processPayment, sendCashback] at h
    cases o with
    | ok =>
      simp only at h
      split_ifs at h
      · obtain ⟨rfl, rfl⟩ := some_pair_inj h
        exact hquiet rfl rfl (fun c hc => by cases hc)
      · obtain ⟨rfl, rfl⟩ := some_pair_inj h
        exact hquiet rfl rfl trivial
      · split at h
        · next code hsome =>
          obtain ⟨rfl, rfl⟩ := some_pair_inj h
          exact hquiet rfl rfl ⟨hfor, hcode code hsome⟩
        · cases h
    | recipient code =>
      simp only at h
      split_ifs at h with hcalls
      obtain ⟨rfl, rfl⟩ := some_pair_inj h
      have hretains := createRecipient_retains (Bool.and_eq_true_iff.mp hcalls).2
      refine ⟨hw.retain hretains (fun _ _ ha => Or.inl ha) fun tr htr => Or.inl ⟨tr, htr, rfl, rfl⟩,
        ⟨hfor, createRecipient_pays _ _ _ _⟩, hretains⟩
    | fails error written =>
      simp only at h
      split_ifs at h
      obtain ⟨rfl, rfl⟩ := some_pair_inj h
      exact hquiet rfl rfl trivial
  | initiateTransfer t account request recipientCode =>
    obtain ⟨hfor, hpays⟩ := hth
    simp only [processPayment, initiateTransfer] at h
    cases o with
    | ok =>
      obtain ⟨rfl, rfl⟩ := some_pair_inj h
      refine ⟨hw.retain (Retains.of_eq rfl) (fun _ _ ha => Or.inl ha) fun tr htr => ?_, ?_,
        Retains.of_eq rfl⟩
      · rcases List.mem_append.mp htr with hold | hnew
        · exact Or.inl ⟨tr, hold, rfl, rfl⟩
        · rw [List.mem_singleton.mp hnew]
          exact Or.inr hpays
      · intro c hc
        rw [← hfor.1, ← hfor.2, ← Option.some.inj hc]
        exact hpays
    | fails error written =>
      obtain ⟨rfl, rfl⟩ := some_pair_inj h
      exact hquiet rfl rfl trivial
    | recipient code => cases h
  | receive t account result =>
    simp only [processPayment, receive] at h
    grind [Thread.Denoted]
  | store t account result =>
    have hstore : RecipientsDenote (w.storeResult r t account result) := storeResult_denotes hw hth
    have hretains : Retains w (w.storeResult r t account result) :=
      Retains.of_eq (by rw [storeResult_paystack])
    simp only [processPayment, store] at h
    grind [Thread.Denoted]
  | publish t eventIds =>
    simp only [processPayment, publish] at h
    grind [completeJob_paystack, completeJob_db, Thread.Denoted]
  | recover t error =>
    have hreset : (w.resetTransaction r.transactionId).paystack = w.paystack ∧
        (w.resetTransaction r.transactionId).db.payoutAccounts = w.db.payoutAccounts := ⟨rfl, rfl⟩
    have hfail : ∀ failure, (w.storeFailure cfg r t failure).paystack = w.paystack ∧
        (w.storeFailure cfg r t failure).db.payoutAccounts = w.db.payoutAccounts :=
      fun _ => ⟨rfl, rfl⟩
    simp only [processPayment, recover] at h
    grind [failJob_paystack, failJob_db, Thread.Denoted]
  | publishFailure eventId =>
    simp only [processPayment, publishFailure] at h
    grind [completeJob_paystack, failJob_paystack, completeJob_db, failJob_db, Thread.Denoted]

theorem retryFailedTransaction_denotes {cfg : Config} {w w' : World} {pc : ManualPc}
    {o : Outcome} {th' : Thread} (h : retryFailedTransaction cfg w pc o = some (w', th'))
    (hw : RecipientsDenote w) (hth : (Thread.manual pc).Denoted w)
    (hkeeps : o = .ok → ∀ t override, pc = .findAccount t override →
      ∀ account, w.account t.userId = some account →
        account.keeps override.bankAccountNumber override.bankCode = true) :
    RecipientsDenote w' ∧ th'.Denoted w' := by
  cases pc with
  | find k override =>
    unfold retryFailedTransaction at h
    grind [Thread.Denoted]
  | findAccount t override =>
    cases o with
    | ok =>
      simp only [retryFailedTransaction] at h
      split at h
      · next hcomplete =>
        obtain ⟨rfl, rfl⟩ := some_pair_inj h
        refine ⟨hw.frame rfl rfl, fun c hc => ?_⟩
        obtain ⟨account, haccount, hcode⟩ := Option.bind_eq_some_iff.mp hc
        exact hw.overwrite haccount hcomplete (hkeeps rfl t override rfl account haccount) c hcode
      · have hdrawn : ∀ n, RecipientsDenote (w.drawIds n) := fun n => hw.frame rfl rfl
        grind [Thread.Denoted]
    | fails error written =>
      obtain ⟨rfl, rfl⟩ := some_pair_inj h
      exact ⟨hw, trivial⟩
    | recipient code => cases h
  | saveAccount t account isNew =>
    have hsave := saveAccount_denotes hw hth
    unfold retryFailedTransaction at h
    grind [Thread.Denoted]
  | resetCount t account =>
    have hreset : ∀ k, RecipientsDenote (w.resetRetryCount k) := fun k => hw.frame rfl rfl
    have hdrawn : ∀ k n, RecipientsDenote ((w.resetRetryCount k).drawIds n) :=
      fun k n => hw.frame rfl rfl
    unfold retryFailedTransaction at h
    grind [Thread.Denoted]

theorem handleWebhook_denotes {w w' : World} {hook : TransferWebhook} {pc : WebhookPc}
    {o : Outcome} {th' : Thread} (h : handleWebhook w hook pc o = some (w', th'))
    (hw : RecipientsDenote w) : RecipientsDenote w' ∧ Retains w w' := by
  obtain ⟨hpaystack, haccounts, _⟩ := handleWebhook_frame h
  rcases hpaystack with heq | heq
  · exact ⟨hw.frame heq haccounts, Retains.of_eq (by rw [heq])⟩
  · have hretains : Retains w w' := Retains.of_eq (by rw [heq, notifyTransfer_recipients])
    refine ⟨hw.retain hretains (fun userId account ha => ?_) fun tr htr => ?_, hretains⟩
    · rw [World.account, haccounts] at ha
      exact Or.inl ha
    · rw [heq] at htr
      exact Or.inl (mem_notifyTransfer htr)

/-! ## The service -/

theorem keepsDetails_payment {s : State} {e : ℕ} {r : PaymentRun} {pc : PaymentPc} {o : Outcome}
    (hth : s.threads e = .payment r pc) (hG : keepsDetails s (.run e o) = true) :
    o = .ok → ∀ t reference, pc = .findAccount t reference →
      ∀ account, s.world.account r.event.payload.user.id = some account →
        account.keeps r.event.payload.user.bankAccountNumber
          r.event.payload.user.bankCode = true := by
  rintro rfl t reference rfl account haccount
  simpa only [keepsDetails, hth, haccount, Option.all_some] using hG

theorem keepsDetails_manual {s : State} {e : ℕ} {pc : ManualPc} {o : Outcome}
    (hth : s.threads e = .manual pc) (hG : keepsDetails s (.run e o) = true) :
    o = .ok → ∀ t override, pc = .findAccount t override →
      ∀ account, s.world.account t.userId = some account →
        account.keeps override.bankAccountNumber override.bankCode = true := by
  rintro rfl t override rfl account haccount
  simpa only [keepsDetails, hth, haccount, Option.all_some] using hG

theorem recipients_run {cfg : Config} (s : State) (e : ℕ) (o : Outcome) (w' : World)
    (th' : Thread) (hG : keepsDetails s (.run e o) = true) (hw : RecipientsDenote s.world)
    (hth : (s.threads e).Denoted s.world)
    (hadv : advance cfg s.world e (s.threads e) o = some (w', th')) :
    RecipientsDenote w' ∧ th'.Denoted w' ∧ Retains s.world w' := by
  cases hpc : s.threads e with
  | done =>
    rw [hpc] at hadv
    cases hadv
  | badge pc =>
    rw [hpc] at hadv
    obtain ⟨hpaystack, haccounts, hth'⟩ := handleBadgeUnlocked_frame hadv
    refine ⟨hw.frame hpaystack haccounts, ?_, Retains.of_eq (by rw [hpaystack])⟩
    rcases hth' with rfl | ⟨pc', rfl⟩ <;> exact trivial
  | payment r pc =>
    rw [hpc] at hadv hth
    exact processPayment_denotes hadv hw hth (keepsDetails_payment hpc hG)
  | retry caller k event pc =>
    rw [hpc] at hadv
    obtain ⟨hpaystack, haccounts, hth'⟩ := retryPayment_frame hadv
    refine ⟨hw.frame hpaystack haccounts, ?_, Retains.of_eq (by rw [hpaystack])⟩
    rcases hth' with rfl | ⟨pc', rfl⟩ | ⟨pc', rfl⟩ <;> exact trivial
  | manual pc =>
    rw [hpc] at hadv hth
    obtain ⟨hw', hth'⟩ := retryFailedTransaction_denotes hadv hw hth (keepsDetails_manual hpc hG)
    exact ⟨hw', hth', Retains.of_eq (by rw [(retryFailedTransaction_frame hadv).1])⟩
  | scan pc =>
    rw [hpc] at hadv
    obtain ⟨hdb, _, hpaystack⟩ := retryEligibleFailedTransactions_world hadv
    refine ⟨hw.frame hpaystack (by rw [hdb]), ?_, Retains.of_eq (by rw [hpaystack])⟩
    rcases retryEligibleFailedTransactions_thread hadv with rfl | ⟨pc', rfl⟩ | ⟨_, _, _, rfl⟩ <;>
      exact trivial
  | webhook hook pc =>
    rw [hpc] at hadv
    obtain ⟨hw', hretains⟩ := handleWebhook_denotes hadv hw
    refine ⟨hw', ?_, hretains⟩
    rcases (handleWebhook_frame hadv).2.2 with rfl | ⟨pc', rfl⟩ <;> exact trivial

theorem ambient_denotes (w w' : World) (h : Ambient w w') :
    (RecipientsDenote w → RecipientsDenote w') ∧
      ∀ th : Thread, th.Denoted w → th.Denoted w' := by
  have hretains : Retains w w' := Retains.of_eq h.recipients
  refine ⟨fun hw => hw.retain hretains (fun userId account ha => ?_) fun tr htr => ?_,
    fun th hth => hretains.thread hth⟩
  · rw [World.account, h.payoutAccounts] at ha
    exact Or.inl ha
  · cases h with
    | report reference => exact Or.inl (mem_reportTransfer htr)
    | _ => exact Or.inl ⟨tr, htr, rfl, rfl⟩

/-- In every run in which details put on an account with a recipient code are the ones it has,
every transfer is paid to a recipient created from exactly the details of its request. -/
theorem pays_account_on_record {cfg : Config} {tr : List (Move State Label)} {s : State}
    (h : Reaches cfg tr s) (hG : Guarded (fun s l => keepsDetails s l = true) tr) :
    s.PaysAccountOnRecord := by
  have hinit : RecipientsDenote initialWorld :=
    ⟨fun userId account ha => (Option.some_ne_none account ha.symm).elim,
      fun tr htr => (List.not_mem_nil htr).elim⟩
  have hstart : ∀ w th, Started th → th.Denoted w := by
    rintro w th ⟨⟩ <;> exact trivial
  obtain ⟨hw, hth⟩ := threads_invariant RecipientsDenote (fun w th => th.Denoted w) hinit
    (fun _ => trivial) hstart ambient_denotes
    (fun s e o w' th' hg hw hth hadv =>
      have ⟨hw', hth', hretains⟩ := recipients_run s e o w' th' hg hw hth hadv
      ⟨hw', hth', fun _ hother => hretains.thread hother⟩) h hG
  refine ⟨fun e r t account request code he => ?_, hw.transfers⟩
  have hpays := hth e
  rw [he] at hpays
  exact hpays.2

/-- Two badges with the same details: the second transfer reuses the code of the first. -/
theorem pays_account_on_record_twice : ∃ tr s, Reaches paystackConfig tr s ∧
    s.world.paystack.transfers.length = 2 ∧ s.PaysAccountOnRecord := by
  obtain ⟨tr, s, h, hp⟩ := exists_run_of_trace (step paystackConfig) initial
    (deliver 0 (badgeEvent 0 "Bronze" "0123456789") ++ payNewRecipient 1 0 "RCP_1" ++
      Label.oks 1 3 ++ deliver 2 (badgeEvent 1 "Silver" "0123456789") ++
      .takeJob 1 :: Label.oks 3 6)
    (fun r => (r.1.all fun x => keepsDetails x.source x.label) &&
      decide (r.2.world.paystack.transfers.length = 2)) (by decide +kernel)
  rw [Bool.and_eq_true, decide_eq_true_eq] at hp
  exact ⟨tr, s, h, hp.2, pays_account_on_record h (guarded_of_all hp.1)⟩

/-- The second badge comes with a new account number; its transfer is paid to the old one. -/
theorem pays_previous_account : ¬ ∀ (cfg : Config) (tr : List (Move State Label)) (s : State),
    Reaches cfg tr s → s.PaysAccountOnRecord := by
  intro hall
  obtain ⟨tr, s, h, hp⟩ := exists_run_of_trace (step paystackConfig) initial
    (deliver 0 (badgeEvent 0 "Bronze" "0123456789") ++ payNewRecipient 1 0 "RCP_1" ++
      Label.oks 1 3 ++ deliver 2 (badgeEvent 1 "Silver" "9876543210") ++
      .takeJob 1 :: Label.oks 3 6)
    (fun r => r.2.world.paystack.transfers.any fun tr =>
      tr.request.bankAccountNumber = "9876543210" &&
        r.2.world.paystack.recipients tr.recipientCode = some ("0123456789", "058"))
    (by decide +kernel)
  obtain ⟨transfer, hmem, htransfer⟩ := List.any_eq_true.mp hp
  simp only [Bool.and_eq_true, decide_eq_true_eq] at htransfer
  have hpays := (hall paystackConfig tr s h).2 transfer hmem
  rw [World.PaysRequested, htransfer.2, htransfer.1] at hpays
  simp at hpays

end Bumpa.Cashback
