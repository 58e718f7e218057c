import Bumpa.Cashback.Writes

/-! # Bank details that are on file

`processPayment` looks up what it can pay to once, in `upsertPayoutAccount`. Both details of the
event come first, and else both details of the stored account would do (`World.bankDetails`); but
an event without details is turned down before the account is read.

`UsesDetails` is about the lookups of a history (`found`): a transaction is given up for missing
details only after a lookup that had none, and after any other the provider is called with them.
`missing_details_iff`: this is so exactly if no lookup has a complete account and an incomplete
event (`bringsDetails`).
-/
namespace Bumpa.Cashback
open Bumpa.Events Bumpa.Relational Bumpa.Transition
set_option autoImplicit false

/-! ## Lookups -/

/-- The number and the code of an account. -/
def PayoutAccount.details (account : PayoutAccount) : String × String :=
  (account.bankAccountNumber, account.bankCode)

def CashbackPaymentRequest.details (request : CashbackPaymentRequest) : String × String :=
  (request.bankAccountNumber, request.bankCode)

/-- The event has both details. -/
def completeDetails (user : UserSnapshot) : Bool :=
  truthy user.bankAccountNumber && truthy user.bankCode

/-- What there is to pay to: what the event says, or else what is stored for the user. -/
def World.bankDetails (w : World) (user : UserSnapshot) : Option (String × String) :=
  if completeDetails user then some (user.bankAccountNumber.getD "", user.bankCode.getD "")
  else ((w.db.payoutAccounts.row user.id).filter (·.hasBankDetails)).map (·.details)

/-- What attempt `e` looks up in this transition, if it does. -/
def lookup (e : ℕ) (x : Move State Label) : Option (Option (String × String)) :=
  match x.label, x.source.threads e with
  | .run e' .ok, .payment r (.findAccount _ _) =>
    if e' = e then some (x.source.world.bankDetails r.event.payload.user) else none
  | _, _ => none

def found (e : ℕ) (tr : List (Move State Label)) : List (Option (String × String)) :=
  tr.filterMap (lookup e)

/-- `ends`: an attempt that gives up for missing details had found none. `calls`: a provider is
called with what was found. `proceeds`: what was found is not given up, but saved. -/
structure UsesDetails (tr : List (Move State Label)) (s : State) : Prop where
  ends : ∀ e r t error, s.threads e = .payment r (.recover t error) →
    (classifyCashbackFailure error).code = .missingBankDetails → found e tr = [none]
  calls : ∀ e r t account request, s.threads e = .payment r (.sendCashback t account request) →
    found e tr = [some request.details]
  proceeds : ∀ x ∈ tr, ∀ e d, lookup e x = some (some d) → ∃ r t reference account isNew,
    x.target.threads e = .payment r (.saveAccount t reference account isNew) ∧ account.details = d

/-- A lookup that could fall back on a stored account does not have to. -/
def bringsDetails (s : State) : Label → Bool
  | .run e .ok =>
    match s.threads e with
    | .payment r (.findAccount _ _) =>
      completeDetails r.event.payload.user ||
        !(s.world.db.payoutAccounts.row r.event.payload.user.id).any (·.hasBankDetails)
    | _ => true
  | _ => true

/-- What the database, the queue and Paystack reject a call with is no `MissingBankDetailsError`. -/
def failsOutside (_ : State) : Label → Bool
  | .run _ (.fails (.payment failure) _) => failure.code ≠ .missingBankDetails
  | _ => true

/-! ## What an attempt knows of its lookup -/

def Thread.Informed (lookups : List (Option (String × String))) : Thread → Prop
  | .payment _ .find => lookups = []
  | .payment _ (.claim _) => lookups = []
  | .payment _ (.findAccount _ _) => lookups = []
  | .payment _ (.saveAccount _ _ account _) =>
    lookups = [some account.details] ∧ account.hasBankDetails = true
  | .payment _ (.sendCashback _ _ request) => lookups = [some request.details] ∧
    request.bankAccountNumber ≠ "" ∧ request.bankCode ≠ ""
  | _ => True

theorem truthy_getD {value : Option String} (h : truthy value = true) : value.getD "" ≠ "" := by
  cases value with
  | none => cases h
  | some text => simpa [truthy] using h

theorem complete_nonempty {user : UserSnapshot} (h : completeDetails user = true) :
    user.bankAccountNumber.getD "" ≠ "" ∧ user.bankCode.getD "" ≠ "" := by
  rw [completeDetails, Bool.and_eq_true] at h
  exact ⟨truthy_getD h.1, truthy_getD h.2⟩

theorem bankDetails_stored {w : World} {user : UserSnapshot} (h : completeDetails user = false) :
    w.bankDetails user =
      ((w.db.payoutAccounts.row user.id).filter (·.hasBankDetails)).map (·.details) := by
  rw [World.bankDetails, h, if_neg Bool.false_ne_true]

/-- The account is read only for an event with both details, and they are saved on it. -/
theorem findAccount_proceeds {cfg : Config} {w w' : World} {r : PaymentRun}
    {t : CashbackTransaction} {reference : Reference} {th' : Thread}
    (h : findAccount cfg w r t reference .ok = some (w', th')) :
    (completeDetails r.event.payload.user = true ∧ ∃ account isNew,
      th' = .payment r (.saveAccount t reference account isNew) ∧
      w.bankDetails r.event.payload.user = some account.details ∧
      account.hasBankDetails = true) ∨
    completeDetails r.event.payload.user = false ∧ ∃ error,
      th' = .payment r (.recover t error) ∧
      (classifyCashbackFailure error).code = .missingBankDetails := by
  unfold findAccount at h
  cases hcomplete : completeDetails r.event.payload.user with
  | false =>
    rw [completeDetails] at hcomplete
    simp only [hcomplete, Bool.false_eq_true, if_false] at h
    cases h
    exact Or.inr ⟨rfl, _, rfl, rfl⟩
  | true =>
    obtain ⟨hnumber, hcode⟩ := complete_nonempty hcomplete
    have hfound : w.bankDetails r.event.payload.user =
        some (r.event.payload.user.bankAccountNumber.getD "",
          r.event.payload.user.bankCode.getD "") := if_pos hcomplete
    rw [completeDetails] at hcomplete
    simp only [hcomplete, if_true] at h
    refine Or.inl ⟨rfl, ?_⟩
    split at h <;> cases h
    all_goals
      refine ⟨_, _, rfl, hfound, ?_⟩
      simp [PayoutAccount.hasBankDetails, hnumber, hcode]

section Step
variable {cfg : Config} {w w' : World} {e : ℕ} {r : PaymentRun} {pc pc' : PaymentPc} {o : Outcome}

/-- Whoever is not at its lookup knows afterwards what it knew before. -/
theorem informed_elsewhere {lookups : List (Option (String × String))}
    (h : processPayment cfg w e r pc o = some (w', .payment r pc'))
    (hpc : ∀ t reference, pc ≠ .findAccount t reference)
    (hinformed : (Thread.payment r pc).Informed lookups) :
    (Thread.payment r pc').Informed lookups := by
  have hdetails : ∀ t account reference,
      (cashbackPaymentRequest r.event t account reference).details = account.details :=
    fun _ _ _ => rfl
  cases pc with
  | findAccount t reference => exact absurd rfl (hpc t reference)
  | saveAccount t reference account isNew =>
    obtain ⟨hfound, hbank⟩ := hinformed
    simp only [PayoutAccount.hasBankDetails, Bool.and_eq_true, decide_eq_true_eq] at hbank
    simp only [processPayment, saveAccount] at h
    cases o with
    | ok =>
      simp only at h
      split at h <;> cases h
      · trivial
      · exact ⟨hdetails t account reference ▸ hfound, hbank⟩
    | fails error written =>
      cases h
      trivial
    | recipient code => cases h
  | _ =>
    simp only [processPayment, findTransaction, claim, sendCashback, initiateTransfer, receive,
      store, publish, recover, publishFailure] at h
    grind [Thread.Informed]

/-- Where an error that is given up for comes from. -/
theorem recover_origin {t : CashbackTransaction} {error : Thrown}
    (h : processPayment cfg w e r pc o = some (w', .payment r (.recover t error))) :
    (∃ t reference, pc = .findAccount t reference) ∨ (∃ written, o = .fails error written) ∨
      (∃ text, error = .other text) ∨ ∃ t account request, pc = .sendCashback t account request ∧
        (request.bankAccountNumber = "" ∨ request.bankCode = "") := by
  cases pc with
  | findAccount t reference => exact Or.inl ⟨t, reference, rfl⟩
  | saveAccount t reference account isNew =>
    cases o with
    | ok =>
      simp only [processPayment, saveAccount] at h
      split at h <;> cases h
      exact Or.inr (Or.inr (Or.inl ⟨_, rfl⟩))
    | fails error' written =>
      cases h
      exact Or.inr (Or.inl ⟨written, rfl⟩)
    | recipient code => cases h
  | sendCashback t account request =>
    cases o with
    | ok =>
      simp only [processPayment, sendCashback, Bool.or_eq_true, decide_eq_true_eq] at h
      split at h
      · cases h
      · split at h
        · next hempty => exact Or.inr (Or.inr (Or.inr ⟨t, account, request, rfl, hempty⟩))
        · split at h <;> cases h
    | fails error' written =>
      simp only [processPayment, sendCashback] at h
      split at h <;> cases h
      exact Or.inr (Or.inl ⟨written, rfl⟩)
    | recipient code =>
      simp only [processPayment, sendCashback] at h
      split at h <;> cases h
  | find =>
    simp only [processPayment, findTransaction] at h
    grind
  | claim t =>
    simp only [processPayment, claim] at h
    grind
  | initiateTransfer t account request recipientCode =>
    simp only [processPayment, initiateTransfer] at h
    grind
  | receive t account result =>
    simp only [processPayment, receive] at h
    grind
  | store t account result =>
    simp only [processPayment, store] at h
    grind
  | publish t eventIds =>
    simp only [processPayment, publish] at h
    grind
  | recover t error =>
    simp only [processPayment, recover] at h
    grind
  | publishFailure eventId =>
    simp only [processPayment, publishFailure] at h
    grind

/-- Away from its lookup, no attempt gives up for missing details. -/
theorem recover_not_missing {lookups : List (Option (String × String))}
    {t : CashbackTransaction} {error : Thrown}
    (h : processPayment cfg w e r pc o = some (w', .payment r (.recover t error)))
    (hpc : ∀ t reference, pc ≠ .findAccount t reference)
    (hinformed : (Thread.payment r pc).Informed lookups)
    (ho : ∀ failure written, o = .fails (.payment failure) written →
      failure.code ≠ .missingBankDetails) :
    (classifyCashbackFailure error).code ≠ .missingBankDetails := by
  rcases recover_origin h with ⟨t, reference, rfl⟩ | ⟨written, rfl⟩ | ⟨text, rfl⟩ |
    ⟨t, account, request, rfl, hempty⟩
  · exact absurd rfl (hpc t reference)
  · cases error with
    | payment failure => exact ho failure written rfl
    | other text => exact other_not_missing text
  · exact other_not_missing text
  · obtain ⟨-, hnumber, hcode⟩ := hinformed
    rcases hempty with hempty | hempty
    · exact absurd hempty hnumber
    · exact absurd hempty hcode

end Step

/-! ## Every run -/

theorem found_snoc (e : ℕ) (tr : List (Move State Label)) (x : Move State Label) :
    found e (tr ++ [x]) = found e tr ++ (lookup e x).toList := filterMap_snoc _ _ _

theorem lookup_eq_none {e : ℕ} {s s' : State} {l : Label}
    (h : ∀ r t reference, l = .run e .ok → s.threads e ≠ .payment r (.findAccount t reference)) :
    lookup e ⟨s, l, s'⟩ = none := by
  unfold lookup
  split
  · next e' r t reference hl hth =>
    rw [if_neg]
    rintro rfl
    exact h r t reference hl hth
  · rfl

theorem lookup_at {e : ℕ} {s s' : State} {r : PaymentRun} {t : CashbackTransaction}
    {reference : Reference} (h : s.threads e = .payment r (.findAccount t reference)) :
    lookup e ⟨s, .run e .ok, s'⟩ = some (s.world.bankDetails r.event.payload.user) := by
  simp only [lookup, h, if_true]

theorem lookup_eq_some {e : ℕ} {s s' : State} {l : Label} {d : Option (String × String)}
    (h : lookup e ⟨s, l, s'⟩ = some d) : ∃ r t reference, l = .run e .ok ∧
      s.threads e = .payment r (.findAccount t reference) ∧
      s.world.bankDetails r.event.payload.user = d := by
  unfold lookup at h
  split at h
  · next e' r t reference hl hth =>
    split at h
    · next he =>
      subst he
      exact ⟨r, t, reference, hl, hth, Option.some.inj h⟩
    · cases h
  · cases h

/-- Every attempt knows its lookup; a thread that has not started has none. -/
def Knows (tr : List (Move State Label)) (s : State) : Prop :=
  ∀ e, (s.threads e).Informed (found e tr) ∧ (s.nextThread ≤ e → found e tr = [])

section Step
variable {cfg : Config} {tr : List (Move State Label)} {s s' : State} {l : Label} {e : ℕ}
  {o : Outcome} {th' : Thread}

theorem informed_run (hinformed : (s.threads e).Informed (found e tr))
    (hadv : advance cfg s.world e (s.threads e) o = some (s'.world, th')) :
    th'.Informed (found e (tr ++ [⟨s, .run e o, s'⟩])) := by
  cases th' with
  | payment r pc' =>
    obtain ⟨pc, hth, hpay⟩ := advance_payment hadv
    rw [hth] at hinformed
    by_cases hpc : ∃ t reference, pc = .findAccount t reference
    · obtain ⟨t, reference, rfl⟩ := hpc
      cases o with
      | ok =>
        rw [found_snoc, lookup_at hth]
        rcases findAccount_proceeds hpay with ⟨-, account, isNew, heq, hfound, hbank⟩ |
          ⟨-, error, heq, -⟩
        · cases heq
          rw [hinformed, hfound]
          exact ⟨rfl, hbank⟩
        · cases heq
          trivial
      | fails error written =>
        simp only [processPayment, findAccount] at hpay
        split at hpay
        · obtain ⟨-, heq⟩ := some_pair_inj hpay
          rw [heq]
          trivial
        · cases hpay
      | recipient code => cases hpay
    · have hnone : lookup e ⟨s, .run e o, s'⟩ = none := by
        refine lookup_eq_none fun r' t reference _ heq => hpc ⟨t, reference, ?_⟩
        rw [hth] at heq
        exact (Thread.payment.inj heq).2
      rw [found_snoc, hnone, Option.toList_none, List.append_nil]
      exact informed_elsewhere hpay (fun t reference heq => hpc ⟨t, reference, heq⟩) hinformed
  | _ => trivial

theorem knows_step (hbeyond : ∀ e, s.nextThread ≤ e → s.threads e = .done) (hs : Knows tr s)
    (h : step cfg s l = some s') : Knows (tr ++ [⟨s, l, s'⟩]) s' := by
  have hkeeps : ∀ {e}, (∀ o, l ≠ .run e o) → found e (tr ++ [⟨s, l, s'⟩]) = found e tr := by
    intro e hl
    rw [found_snoc, lookup_eq_none fun _ _ _ heq => absurd heq (hl .ok), Option.toList_none,
      List.append_nil]
  intro e'
  rcases step_cases h with ⟨e, o, th', rfl, hadv, hnext, hth⟩ | ⟨-, hl, hrest⟩
  · by_cases he : e' = e
    · subst he
      rw [hth, if_pos rfl]
      refine ⟨informed_run (hs e').1 hadv, fun hle => ?_⟩
      rw [hbeyond e' (hnext ▸ hle)] at hadv
      cases hadv
    · rw [hth, if_neg he, hnext, hkeeps fun o' heq => he (Label.run.inj heq).1.symm]
      exact hs e'
  · rw [hkeeps fun o => hl e' o]
    rcases hrest with ⟨th, hstarted, hnext, hth⟩ | ⟨hnext, hth⟩
    · rw [hth, hnext]
      refine ⟨?_, fun hle => (hs e').2 (by omega)⟩
      split
      · next heq =>
        cases hstarted with
        | payment r => exact (hs e').2 (Nat.le_of_eq heq.symm)
        | _ => trivial
      · exact (hs e').1
    · refine ⟨?_, fun hle => (hs e').2 (hnext ▸ hle)⟩
      rcases hth e' with heq | heq
      · rw [heq]
        exact (hs e').1
      · rw [heq]
        trivial

theorem reaches_knows (h : Reaches cfg tr s) : Knows tr s := by
  have hinit : Knows [] initial := fun e => ⟨by unfold Thread.Informed; trivial, fun _ => rfl⟩
  refine Run.history Knows hinit ?_ h
  intro tr s l s' hrun hs hstep
  exact knows_step (thread_beyond hrun) hs hstep

/-! ## The result -/

theorem bankDetails_eq_none_iff {w : World} {user : UserSnapshot}
    (h : completeDetails user = false) : w.bankDetails user = none ↔
      (w.db.payoutAccounts.row user.id).any (·.hasBankDetails) = false := by
  rw [bankDetails_stored h]
  cases w.db.payoutAccounts.row user.id with
  | none => simp
  | some account => cases hbank : account.hasBankDetails <;> simp [Option.filter, hbank]

/-- A lookup that brings its details, or finds none, proceeds with what there is. -/
theorem lookup_proceeds {r : PaymentRun} {t : CashbackTransaction} {reference : Reference}
    {d : String × String} (hg : bringsDetails s (.run e .ok) = true)
    (hth : s.threads e = .payment r (.findAccount t reference))
    (hadv : findAccount cfg s.world r t reference .ok = some (s'.world, th'))
    (hfound : s.world.bankDetails r.event.payload.user = some d) :
    ∃ account isNew, th' = .payment r (.saveAccount t reference account isNew) ∧
      account.details = d := by
  rcases findAccount_proceeds hadv with ⟨-, account, isNew, heq, hdetails, -⟩ | ⟨hno, -⟩
  · rw [hfound, Option.some.injEq] at hdetails
    exact ⟨account, isNew, heq, hdetails.symm⟩
  · simp only [bringsDetails, hth, hno, Bool.false_or, Bool.not_eq_true'] at hg
    rw [(bankDetails_eq_none_iff hno).mpr hg] at hfound
    cases hfound

/-- A lookup that falls back on a stored account is given up. -/
theorem brings_of_proceeds (huses : UsesDetails (tr ++ [⟨s, l, s'⟩]) s')
    (h : step cfg s l = some s') : bringsDetails s l = true := by
  unfold bringsDetails
  split
  · next e =>
    split
    · next r t reference hth =>
      by_contra hno
      simp only [Bool.or_eq_true, Bool.not_eq_true', not_or, Bool.not_eq_true,
        Bool.not_eq_false] at hno
      obtain ⟨hcomplete, hstored⟩ := hno
      obtain ⟨d, hfound⟩ : ∃ d, s.world.bankDetails r.event.payload.user = some d := by
        rw [← Option.ne_none_iff_exists', Ne, bankDetails_eq_none_iff hcomplete, hstored]
        simp
      obtain ⟨th', hadv, -, hth'⟩ := step_run h
      obtain ⟨r', t', reference', account, isNew, htarget, -⟩ := huses.proceeds _
        (List.mem_append_right _ (List.mem_singleton_self _)) e d (by rw [lookup_at hth, hfound])
      rw [hth] at hadv
      rw [hth', if_pos rfl] at htarget
      subst htarget
      rcases findAccount_proceeds hadv with ⟨hyes, -⟩ | ⟨-, error, heq, -⟩
      · rw [hcomplete] at hyes
        cases hyes
      · cases heq
    · rfl
  · rfl

/-- An attempt that now gives up for missing details has just looked up none. -/
theorem ends_run {r : PaymentRun} {t : CashbackTransaction} {error : Thrown}
    (hinformed : (s.threads e).Informed (found e tr)) (ho : failsOutside s (.run e o) = true)
    (hg : bringsDetails s (.run e o) = true)
    (hadv : advance cfg s.world e (s.threads e) o =
      some (s'.world, .payment r (.recover t error)))
    (hmissing : (classifyCashbackFailure error).code = .missingBankDetails) :
    found e (tr ++ [⟨s, .run e o, s'⟩]) = [none] := by
  obtain ⟨pc, hth, hpay⟩ := advance_payment hadv
  rw [hth] at hinformed
  have houtside : ∀ failure written, o = .fails (.payment failure) written →
      failure.code ≠ .missingBankDetails := by
    rintro failure written rfl
    exact of_decide_eq_true ho
  by_cases hpc : ∃ t reference, pc = .findAccount t reference
  · obtain ⟨t', reference, rfl⟩ := hpc
    cases o with
    | ok =>
      rcases findAccount_proceeds hpay with ⟨-, account, isNew, heq, -⟩ | ⟨hno, -⟩
      · cases heq
      · simp only [bringsDetails, hth, hno, Bool.false_or, Bool.not_eq_true'] at hg
        rw [found_snoc, lookup_at hth, hinformed, (bankDetails_eq_none_iff hno).mpr hg]
        rfl
    | fails error' written =>
      simp only [processPayment, findAccount] at hpay
      split at hpay
      · obtain ⟨-, heq⟩ := some_pair_inj hpay
        cases heq
        cases error with
        | payment failure => exact absurd hmissing (houtside failure written rfl)
        | other text => exact absurd hmissing (other_not_missing text)
      · cases hpay
    | recipient code => cases hpay
  · exact absurd hmissing (recover_not_missing hpay
      (fun t reference heq => hpc ⟨t, reference, heq⟩) hinformed houtside)

theorem ends_step (hknows : Knows tr s) (hs : UsesDetails tr s) (ho : failsOutside s l = true)
    (hg : bringsDetails s l = true) (h : step cfg s l = some s') {r : PaymentRun}
    {t : CashbackTransaction} {error : Thrown} (hth : s'.threads e = .payment r (.recover t error))
    (hmissing : (classifyCashbackFailure error).code = .missingBankDetails) :
    found e (tr ++ [⟨s, l, s'⟩]) = [none] := by
  have hother : (∀ o, l ≠ .run e o) → s.threads e = .payment r (.recover t error) →
      found e (tr ++ [⟨s, l, s'⟩]) = [none] := by
    intro hl hbefore
    rw [found_snoc, lookup_eq_none fun _ _ _ heq => absurd heq (hl _), Option.toList_none,
      List.append_nil]
    exact hs.ends e r t error hbefore hmissing
  rcases step_cases h with ⟨e', o, th', rfl, hadv, -, hth'⟩ | ⟨-, hl, hrest⟩
  · rw [hth'] at hth
    split at hth
    · next he =>
      subst he hth
      exact ends_run (hknows e).1 ho hg hadv hmissing
    · next he => exact hother (fun o' heq => he (Label.run.inj heq).1.symm) hth
  · refine hother (fun o => hl e o) ?_
    rcases hrest with ⟨th, hstarted, -, hth'⟩ | ⟨-, hth'⟩
    · rw [hth'] at hth
      split at hth
      · subst hth
        cases hstarted
      · exact hth
    · rcases hth' e with heq | heq <;> rw [heq] at hth
      · exact hth
      · cases hth

/-- A step keeps to the details that there are exactly if its lookup brings them or finds none. -/
theorem usesDetails_step_iff (hrun : Reaches cfg tr s) (ho : failsOutside s l = true)
    (hs : UsesDetails tr s) (h : step cfg s l = some s') :
    UsesDetails (tr ++ [⟨s, l, s'⟩]) s' ↔ bringsDetails s l = true := by
  refine ⟨fun huses => brings_of_proceeds huses h, fun hg => ⟨fun e r t error hth hmissing => ?_,
    fun e r t account request hth => ?_, fun x hx e d hlookup => ?_⟩⟩
  · exact ends_step (reaches_knows hrun) hs ho hg h hth hmissing
  · have hinformed := (reaches_knows (Run.snoc hrun h) e).1
    rw [hth] at hinformed
    exact hinformed.1
  · rcases List.mem_append.mp hx with hx | hx
    · exact hs.proceeds x hx e d hlookup
    · obtain rfl := List.mem_singleton.mp hx
      obtain ⟨r, t, reference, rfl, hth, hfound⟩ := lookup_eq_some hlookup
      obtain ⟨th', hadv, -, hth'⟩ := step_run h
      rw [hth] at hadv
      obtain ⟨account, isNew, rfl, hdetails⟩ := lookup_proceeds hg hth hadv hfound
      exact ⟨r, t, reference, account, isNew, by rw [hth', if_pos rfl], hdetails⟩

end Step

/-- All along a run, missing details mean that there were none and others are what the provider is
called with, exactly if every lookup that could fall back on a stored account brings its own. -/
theorem missing_details_iff {cfg : Config} {tr : List (Move State Label)} {s : State}
    (h : Reaches cfg tr s) (ho : Guarded (fun s l => failsOutside s l = true) tr) :
    (∀ tr' s', Reaches cfg tr' s' → tr' <+: tr → UsesDetails tr' s') ↔
      Guarded (fun s l => bringsDetails s l = true) tr := by
  have hinit : UsesDetails [] initial :=
    ⟨fun e r t error hth => (by cases hth), fun e r t account request hth => (by cases hth),
      List.forall_mem_nil _⟩
  refine Run.guarded_prefix_iff UsesDetails hinit ?_ h ho
  intro tr s l s' hrun houtside hs hstep
  exact usesDetails_step_iff hrun houtside hs hstep

/-- A badge of the same user from a purchase without bank details. -/
def plainEvent : BadgeUnlockedEvent :=
  createDomainEvent .badgeUnlocked
    { badgeName := "Silver"
      rewardAmountKobo := none
      rewardCurrency := "NGN"
      user := ⟨"usr_1", "ada@example.com", "Ada", none, none⟩ } 9 9

/-- The details come with the event and the provider is called with them; a badge without any
waits for the operator, who supplies them. -/
theorem missing_details_supplied : ∃ tr s, Reaches mockConfig tr s ∧
    s.world.statusOf 0 = some .successful ∧ UsesDetails tr s := by
  obtain ⟨tr, s, h, hp⟩ := exists_run_of_trace (step mockConfig) initial
    (deliver 0 plainEvent ++ .takeJob 0 :: Label.oks 1 5 ++
      .retryRequest 0 ⟨some "0123456789", some "058"⟩ :: Label.oks 2 7 ++
      .takeJob 1 :: Label.oks 3 6)
    (fun r => (r.1.all fun x => failsOutside x.source x.label) &&
      (r.1.all fun x => bringsDetails x.source x.label) &&
      decide (r.2.world.statusOf 0 = some .successful)) (by decide +kernel)
  simp only [Bool.and_eq_true, decide_eq_true_eq] at hp
  obtain ⟨⟨houtside, hbrings⟩, hstatus⟩ := hp
  exact ⟨tr, s, h, hstatus, (missing_details_iff h (guarded_of_all houtside)).mpr
    (guarded_of_all hbrings) tr s h (List.prefix_refl tr)⟩

/-- The attempt gives up for missing details. -/
def Thread.endsMissing : Thread → Bool
  | .payment _ (.recover _ error) => (classifyCashbackFailure error).code = .missingBankDetails
  | _ => false

/-- The account is on file since the first badge; the second comes without details, and is given up
for missing them. -/
theorem stored_account_missed : ¬ ∀ (cfg : Config) (tr : List (Move State Label)) (s : State),
    Reaches cfg tr s → Guarded (fun s l => failsOutside s l = true) tr → UsesDetails tr s := by
  intro hall
  obtain ⟨tr, s, h, hp⟩ := exists_run_of_trace (step mockConfig) initial
    (deliver 0 (badgeEvent 0 "Bronze" "0123456789") ++ .takeJob 0 :: Label.oks 1 7 ++
      deliver 2 plainEvent ++ .takeJob 1 :: Label.oks 3 3)
    (fun r => (r.1.all fun x => failsOutside x.source x.label) &&
      decide (found 3 r.1 = [some ("0123456789", "058")]) && (r.2.threads 3).endsMissing)
    (by decide +kernel)
  simp only [Bool.and_eq_true, decide_eq_true_eq] at hp
  obtain ⟨⟨houtside, hfound⟩, hends⟩ := hp
  have huses := hall mockConfig tr s h (guarded_of_all houtside)
  unfold Thread.endsMissing at hends
  split at hends
  · next r t error hth =>
    rw [huses.ends 3 r t error hth (of_decide_eq_true hends)] at hfound
    cases hfound
  · cases hends

end Bumpa.Cashback
