import Bumpa.Cashback.Attempts

/-! # Every call to the provider is paid for by a claim

`claim_accounting`: in every run, the calls of `sendCashback` for a transaction are at most the
times its row entered PENDING; each call follows the winning claim of the same execution, which
stored the reference the call passes; and no two calls pass the same reference.

The row's entries into PENDING are the budget. While the row is PENDING one unit is unspent, a
winning claim takes it along (`Thread.claimed`), and the call spends it. Whoever else writes the
row, with however old a copy, can enter PENDING only as an entry or leave it.
-/
namespace Bumpa.Cashback
open Bumpa.Events Bumpa.Relational Bumpa.Transition
set_option autoImplicit false

/-- The execution has reached `provider.sendCashback` and passes the reference. -/
def Thread.calls : Thread → Option (PaymentRun × Reference)
  | .payment r (.sendCashback _ _ request) => some (r, request.reference)
  | _ => none

/-- The execution has won its claim and not called the provider yet. -/
def Thread.claimed : Thread → Option (PaymentRun × Reference)
  | .payment r (.findAccount _ reference) => some (r, reference)
  | .payment r (.saveAccount _ reference _ _) => some (r, reference)
  | _ => none

/-- The call that the step makes. -/
def providerCall (x : Move State Label) : Option (PaymentRun × Reference) :=
  match x.label with
  | .run e _ => (x.target.threads e).calls
  | _ => none

/-- The step calls the provider for transaction `k`. -/
def callsFor (k : ReadableId) (x : Move State Label) : Bool :=
  (providerCall x).any fun c => c.1.transactionId = k

/-- The references passed to the provider, in the order of the calls. -/
def passedReferences (tr : List (Move State Label)) : List Reference :=
  tr.filterMap fun x => (providerCall x).map Prod.snd

/-- The row of `k` enters PENDING: it is created so, or a write changes its status to it. -/
def entersPending (k : ReadableId) (x : Move State Label) : Bool :=
  x.source.world.statusOf k ≠ some .pending && x.target.world.statusOf k = some .pending

/-- Thread `e` wins the claim of `r`'s transaction, and the row has the reference from then on. -/
def WinsClaim (e : ℕ) (r : PaymentRun) (reference : Reference) (x : Move State Label) : Prop :=
  x.label = .run e .ok ∧ (∃ t, x.source.threads e = .payment r (.claim t)) ∧
    x.source.world.statusOf r.transactionId = some .pending ∧
    ∃ row, x.target.world.row r.transactionId = some row ∧ row.status = .processing ∧
      row.providerReference = some reference

/-- The claims of `k` that have won and not called the provider yet. -/
def Thread.holdsClaim (k : ReadableId) (th : Thread) : Bool :=
  th.claimed.any fun c => c.1.transactionId = k

/-! ## How an execution comes to its call -/

theorem processPayment_calls {cfg : Config} {w w' : World} {e : ℕ} {r : PaymentRun}
    {pc : PaymentPc} {o : Outcome} {th' : Thread}
    (h : processPayment cfg w e r pc o = some (w', th')) {c : PaymentRun × Reference}
    (hc : th'.calls = some c) :
    (Thread.payment r pc).claimed = some c ∧ th'.claimed = none := by
  cases pc
  all_goals
    simp only [processPayment, findTransaction, claim, findAccount, saveAccount, sendCashback,
      initiateTransfer, receive, store, publish, recover, publishFailure] at h
    grind [Thread.calls, Thread.claimed, cashbackPaymentRequest]

theorem processPayment_claimed {cfg : Config} {w w' : World} {e : ℕ} {r : PaymentRun}
    {pc : PaymentPc} {o : Outcome} {th' : Thread}
    (h : processPayment cfg w e r pc o = some (w', th')) {c : PaymentRun × Reference}
    (hc : th'.claimed = some c) :
    (Thread.payment r pc).claimed = some c ∨
      (∃ t, pc = .claim t) ∧ o = .ok ∧ c = (r, ⟨getProvider cfg, w.nextId⟩) ∧
        w.statusOf r.transactionId = some .pending ∧
        w' = (w.drawIds 1).claimTransaction r.transactionId ⟨getProvider cfg, w.nextId⟩ := by
  cases pc
  all_goals
    simp only [processPayment, findTransaction, claim, findAccount, saveAccount, sendCashback,
      initiateTransfer, receive, store, publish, recover, publishFailure] at h
    grind [Thread.claimed]

theorem advance_calls {cfg : Config} {w w' : World} {e : ℕ} {th th' : Thread} {o : Outcome}
    (h : advance cfg w e th o = some (w', th')) {c : PaymentRun × Reference}
    (hc : th'.calls = some c) : th.claimed = some c ∧ th'.claimed = none := by
  obtain ⟨r, pc', rfl⟩ : ∃ r pc', th' = .payment r pc' := by
    unfold Thread.calls at hc
    split at hc
    · exact ⟨_, _, rfl⟩
    · cases hc
  obtain ⟨pc, rfl, hstep⟩ := advance_payment h
  exact processPayment_calls hstep hc

theorem advance_claimed {cfg : Config} {w w' : World} {e : ℕ} {th th' : Thread} {o : Outcome}
    (h : advance cfg w e th o = some (w', th')) {c : PaymentRun × Reference}
    (hc : th'.claimed = some c) :
    th.claimed = some c ∨ ∃ r t, th = .payment r (.claim t) ∧ o = .ok ∧
      c = (r, ⟨getProvider cfg, w.nextId⟩) ∧ w.statusOf r.transactionId = some .pending ∧
      w' = (w.drawIds 1).claimTransaction r.transactionId ⟨getProvider cfg, w.nextId⟩ := by
  obtain ⟨r, pc', rfl⟩ : ∃ r pc', th' = .payment r pc' := by
    unfold Thread.claimed at hc
    split at hc
    · exact ⟨_, _, rfl⟩
    · exact ⟨_, _, rfl⟩
    · cases hc
  obtain ⟨pc, rfl, hstep⟩ := advance_payment h
  rcases processPayment_claimed hstep hc with hold | ⟨⟨t, rfl⟩, hwon⟩
  · exact Or.inl hold
  · exact Or.inr ⟨r, t, rfl, hwon⟩

/-- A claim that finds its row PENDING leaves it PROCESSING under its reference. -/
theorem claimTransaction_wins {w : World} {k : ReadableId} (reference : Reference)
    (h : w.statusOf k = some .pending) :
    ∃ row, ((w.drawIds 1).claimTransaction k reference).row k = some row ∧
      row.status = .processing ∧ row.providerReference = some reference := by
  obtain ⟨row, hrow, hstatus⟩ := Option.map_eq_some_iff.mp h
  have hrow' : (w.drawIds 1).row k = some row := hrow
  have hid : ∀ t : CashbackTransaction, (t.claimed reference).id = t.id := fun _ => rfl
  refine ⟨row.claimed reference, (updateTransaction_row _ hid hrow').trans ?_, rfl, rfl⟩
  rw [if_pos (decide_eq_true hstatus)]

/-! ## The budget -/

/-- The row of `k` is PENDING: one unit of its entries is unspent. -/
def World.unclaimed (w : World) (k : ReadableId) : Bool := w.statusOf k = some .pending

theorem unclaimed_le (k : ReadableId) (x : Move State Label) :
    (x.target.world.unclaimed k).toNat ≤
      (x.source.world.unclaimed k).toNat + (entersPending k x).toNat := by
  unfold World.unclaimed entersPending
  by_cases hsource : x.source.world.statusOf k = some .pending <;>
    by_cases htarget : x.target.world.statusOf k = some .pending <;>
    simp [hsource, htarget]

theorem holdsClaim_iff {th : Thread} {k : ReadableId} :
    th.holdsClaim k = true ↔ ∃ r reference, th.claimed = some (r, reference) ∧
      r.transactionId = k := by
  unfold Thread.holdsClaim
  rw [Option.any_eq_true]
  simp

theorem callsFor_run {s s' : State} {e : ℕ} {o : Outcome} {k : ReadableId} :
    callsFor k ⟨s, .run e o, s'⟩ = true ↔ ∃ r reference,
      (s'.threads e).calls = some (r, reference) ∧ r.transactionId = k := by
  unfold callsFor providerCall
  rw [Option.any_eq_true]
  simp

/-- What a step spends, it took along or found unspent. -/
theorem budget_run {cfg : Config} {s s' : State} {e : ℕ} {o : Outcome} {th' : Thread}
    (k : ReadableId) (hself : s'.threads e = th')
    (hadv : advance cfg s.world e (s.threads e) o = some (s'.world, th')) :
    (th'.holdsClaim k).toNat + (callsFor k ⟨s, .run e o, s'⟩).toNat +
        (s'.world.unclaimed k).toNat ≤
      ((s.threads e).holdsClaim k).toNat + (s.world.unclaimed k).toNat +
        (entersPending k ⟨s, .run e o, s'⟩).toNat := by
  have hrow := unclaimed_le k ⟨s, .run e o, s'⟩
  have hlast := Bool.toNat_le (th'.holdsClaim k)
  cases hcall : callsFor k ⟨s, .run e o, s'⟩ with
  | true =>
    obtain ⟨r, reference, hc, hk⟩ := callsFor_run.mp hcall
    rw [hself] at hc
    obtain ⟨hclaimed, hnone⟩ := advance_calls hadv hc
    have hbefore : (s.threads e).holdsClaim k = true := holdsClaim_iff.mpr ⟨r, reference, hclaimed, hk⟩
    have hafter : th'.holdsClaim k = false := by
      rw [Thread.holdsClaim, hnone]
      rfl
    rw [hbefore, hafter, Bool.toNat_true, Bool.toNat_false]
    simp only at hrow
    omega
  | false =>
    cases hafter : th'.holdsClaim k with
    | false =>
      rw [Bool.toNat_false]
      simp only at hrow
      omega
    | true =>
      obtain ⟨r, reference, hclaimed, hk⟩ := holdsClaim_iff.mp hafter
      rcases advance_claimed hadv hclaimed with hold | ⟨r', t, _, _, hc, hpending, hw⟩
      · have hbefore : (s.threads e).holdsClaim k = true :=
          holdsClaim_iff.mpr ⟨r, reference, hold, hk⟩
        rw [hbefore, Bool.toNat_false]
        simp only at hrow
        omega
      · -- the claim takes the unit that the PENDING row was
        obtain ⟨rfl, _⟩ := Prod.mk.inj hc
        subst hk
        obtain ⟨row, hrow', hstatus, _⟩ := claimTransaction_wins
          ⟨getProvider cfg, s.world.nextId⟩ hpending
        have hbefore : s.world.unclaimed r.transactionId = true := decide_eq_true hpending
        have hleft : s'.world.unclaimed r.transactionId = false := by
          rw [World.unclaimed, hw, World.statusOf, ← World.row, hrow', Option.map_some, hstatus]
          rfl
        rw [hbefore, hleft, Bool.toNat_true, Bool.toNat_false]
        omega

/-! ## What the moves so far say about calls -/

/-- Every call in `tr` follows the winning claim of the same execution and passes its reference. -/
def CallsFollowClaims (tr : List (Move State Label)) : Prop :=
  ∀ before x after e o r reference, tr = before ++ x :: after → x.label = .run e o →
    (x.target.threads e).calls = some (r, reference) → ∃ y ∈ before, WinsClaim e r reference y

structure CallHistory (tr : List (Move State Label)) (s : State) : Prop where
  budget : ∀ k, tr.countP (callsFor k) + s.count (Thread.holdsClaim k) +
    (s.world.unclaimed k).toNat ≤ tr.countP (entersPending k)
  won : ∀ e r reference, (s.threads e).claimed = some (r, reference) →
    ∃ y ∈ tr, WinsClaim e r reference y
  follow : CallsFollowClaims tr
  passed : (passedReferences tr).Nodup
  used : ∀ reference ∈ passedReferences tr, reference.id < s.world.nextId
  held : ∀ e c, (s.threads e).claimed = some c →
    c.2.id < s.world.nextId ∧ c.2 ∉ passedReferences tr
  apart : ∀ e e' c c', (s.threads e).claimed = some c → (s.threads e').claimed = some c' →
    c.2 = c'.2 → e = e'

theorem callHistory_initial : CallHistory [] initial where
  budget := fun k => Nat.le_refl 0
  won := fun e r reference h => by cases h
  follow := fun before x after _ _ _ _ h => by
    exact absurd h.symm (List.append_ne_nil_of_right_ne_nil _ (List.cons_ne_nil x after))
  passed := List.nodup_nil
  used := fun reference h => absurd h List.not_mem_nil
  held := fun e c h => by cases h
  apart := fun e e' c c' h => by cases h

theorem passedReferences_snoc (tr : List (Move State Label)) (x : Move State Label) :
    passedReferences (tr ++ [x]) =
      passedReferences tr ++ ((providerCall x).map Prod.snd).toList :=
  filterMap_snoc _ _ _

theorem CallsFollowClaims.snoc {tr : List (Move State Label)} {x : Move State Label}
    (h : CallsFollowClaims tr)
    (hx : ∀ e o r reference, x.label = .run e o → (x.target.threads e).calls = some (r, reference) →
      ∃ y ∈ tr, WinsClaim e r reference y) : CallsFollowClaims (tr ++ [x]) := by
  intro before y after e o r reference htr hlabel hcall
  rcases List.eq_nil_or_concat after with rfl | ⟨after', z, rfl⟩
  · obtain ⟨rfl, hlast⟩ := List.append_inj' htr rfl
    rw [← List.singleton_inj.mp hlast] at hlabel hcall
    exact hx e o r reference hlabel hcall
  · rw [List.concat_eq_append, ← List.cons_append, ← List.append_assoc] at htr
    obtain ⟨rfl, _⟩ := List.append_inj' htr rfl
    exact h before y after' e o r reference rfl hlabel hcall

/-- The threads' claims after a step that is not a run are claims before it. -/
theorem claimed_ambient {cfg : Config} {s s' : State} {l : Label} (h : step cfg s l = some s')
    (hl : ∀ e o, l ≠ .run e o) {e : ℕ} {c : PaymentRun × Reference}
    (hc : (s'.threads e).claimed = some c) : (s.threads e).claimed = some c := by
  rcases step_cases h with ⟨e', o, _, rfl, _⟩ | ⟨_, _, hrest⟩
  · exact absurd rfl (hl e' o)
  · rcases hrest with ⟨th, hstarted, _, hth⟩ | ⟨_, hth⟩
    · rw [hth] at hc
      split at hc
      · cases hstarted <;> cases hc
      · exact hc
    · rcases hth e with heq | heq
      · rwa [heq] at hc
      · rw [heq] at hc
        cases hc

theorem callHistory_ambient {cfg : Config} {tr : List (Move State Label)} {s s' : State}
    {l : Label} (hreach : Reaches cfg tr s) (hJ : CallHistory tr s) (h : step cfg s l = some s')
    (hl : ∀ e o, l ≠ .run e o) : CallHistory (tr ++ [⟨s, l, s'⟩]) s' := by
  have hcall : providerCall ⟨s, l, s'⟩ = none := by
    cases l with
    | run e o => exact absurd rfl (hl e o)
    | _ => rfl
  have hnone : ∀ k, callsFor k ⟨s, l, s'⟩ = false := fun k => by rw [callsFor, hcall]; rfl
  have hpassed : passedReferences (tr ++ [⟨s, l, s'⟩]) = passedReferences tr := by
    rw [passedReferences_snoc, hcall]
    exact List.append_nil _
  obtain ⟨hw, hnext⟩ : Ambient s.world s'.world ∧ s'.world.nextId = s.world.nextId := by
    rcases step_cases h with ⟨e, o, _, rfl, _⟩ | ⟨hw, _, _⟩
    · exact absurd rfl (hl e o)
    · exact ⟨hw, hw.nextId⟩
  refine ⟨fun k => ?_, fun e r reference hc => ?_, hJ.follow.snoc fun e o _ _ hlabel => ?_, ?_, ?_,
    fun e c hc => ?_, fun e e' c c' hc hc' => ?_⟩
  · have hstart : ∀ th, Started th → th.holdsClaim k = false := by
      rintro th ⟨⟩ <;> rfl
    have hold := hJ.budget k
    have hrow := unclaimed_le k ⟨s, l, s'⟩
    simp only at hrow
    rcases step_count hreach h rfl hstart with ⟨e, o, _, rfl, _⟩ | ⟨_, _, hle⟩
    · exact absurd rfl (hl e o)
    · rw [countP_snoc, countP_snoc, hnone, Bool.toNat_false]
      omega
  · obtain ⟨y, hy, hwin⟩ := hJ.won e r reference (claimed_ambient h hl hc)
    exact ⟨y, List.mem_append_left _ hy, hwin⟩
  · exact absurd hlabel (hl e o)
  · rw [hpassed]
    exact hJ.passed
  · rw [hpassed, hnext]
    exact hJ.used
  · rw [hpassed, hnext]
    exact hJ.held e c (claimed_ambient h hl hc)
  · exact hJ.apart e e' c c' (claimed_ambient h hl hc) (claimed_ambient h hl hc')

section Run
variable {cfg : Config} {tr : List (Move State Label)} {s s' : State} {e : ℕ} {o : Outcome}
  {th' : Thread} (hJ : CallHistory tr s)
  (hadv : advance cfg s.world e (s.threads e) o = some (s'.world, th'))
  (hth : ∀ e', s'.threads e' = if e' = e then th' else s.threads e')
include hJ hadv hth

omit hJ in
/-- A claim held after the step was held before it, or has just been won under a fresh reference. -/
theorem claimed_run {e' : ℕ} {c : PaymentRun × Reference}
    (hc : (s'.threads e').claimed = some c) :
    (s.threads e').claimed = some c ∨
      e' = e ∧ c.2.id = s.world.nextId ∧ s'.world.nextId = s.world.nextId + 1 ∧
        WinsClaim e c.1 c.2 ⟨s, .run e o, s'⟩ := by
  by_cases he : e' = e
  · rw [he, hth, if_pos rfl] at hc
    rcases advance_claimed hadv hc with hold | ⟨r, t, hpc, rfl, rfl, hpending, hw⟩
    · exact Or.inl (he ▸ hold)
    · refine Or.inr ⟨he, rfl, by rw [hw]; rfl, rfl, ⟨t, hpc⟩, hpending, ?_⟩
      simp only [hw]
      exact claimTransaction_wins _ hpending
  · rw [hth, if_neg he] at hc
    exact Or.inl hc

/-- The call of the step spends a claim whose reference has not been passed yet. -/
theorem CallHistory.call {c : PaymentRun × Reference}
    (hc : providerCall ⟨s, .run e o, s'⟩ = some c) :
    (s.threads e).claimed = some c ∧ th'.claimed = none ∧ c.2.id < s.world.nextId ∧
      c.2 ∉ passedReferences tr := by
  have hself : s'.threads e = th' := by rw [hth, if_pos rfl]
  have hcalls : th'.calls = some c := by
    rw [← hc, ← hself]
    rfl
  obtain ⟨hclaimed, hnone⟩ := advance_calls hadv hcalls
  exact ⟨hclaimed, hnone, hJ.held e c hclaimed⟩

/-- A reference that some thread holds after the step has not been passed by then. -/
theorem CallHistory.unpassed {e' : ℕ} {c : PaymentRun × Reference}
    (hc : (s'.threads e').claimed = some c) :
    c.2 ∉ passedReferences (tr ++ [⟨s, .run e o, s'⟩]) := by
  have hbefore : c.2 ∉ passedReferences tr := by
    rcases claimed_run hadv hth hc with hold | ⟨_, hid, _, _⟩
    · exact (hJ.held e' c hold).2
    · intro hmem
      have hlt := hJ.used _ hmem
      rw [hid] at hlt
      exact Nat.lt_irrefl _ hlt
  rw [passedReferences_snoc, List.mem_append]
  rintro (hmem | hmem)
  · exact hbefore hmem
  · rw [Option.mem_toList, Option.map_eq_some_iff] at hmem
    obtain ⟨c₀, hc₀, heq⟩ := hmem
    obtain ⟨hclaimed, hnone, hlt, _⟩ := hJ.call hadv hth hc₀
    -- the thread that calls holds nothing any more, and no other thread holds its reference
    by_cases he : e' = e
    · rw [he, hth, if_pos rfl, hnone] at hc
      cases hc
    · rcases claimed_run hadv hth hc with hold | ⟨rfl, _⟩
      · exact he (hJ.apart e' e c c₀ hold hclaimed heq.symm)
      · exact he rfl

theorem callHistory_run (hreach : Reaches cfg tr s) (h : step cfg s (.run e o) = some s') :
    CallHistory (tr ++ [⟨s, .run e o, s'⟩]) s' := by
  have hself : s'.threads e = th' := by rw [hth, if_pos rfl]
  have hnext := advance_nextId hadv
  refine ⟨fun k => ?_, fun e' r reference hc => ?_,
    hJ.follow.snoc fun e' o' r reference hlabel hcall => ?_, ?_, fun reference hmem => ?_,
    fun e' c hc => ⟨?_, hJ.unpassed hadv hth hc⟩, fun e₁ e₂ c₁ c₂ h₁ h₂ heq => ?_⟩
  · have hstart : ∀ th, Started th → th.holdsClaim k = false := by
      rintro th ⟨⟩ <;> rfl
    have hold := hJ.budget k
    have hspent := budget_run (o := o) k hself hadv
    rcases step_count hreach h rfl hstart with ⟨e', o', th'', hl, hself', _, hcount⟩ | ⟨hl, _⟩
    · obtain ⟨rfl, rfl⟩ := Label.run.inj hl
      rw [← hself', hself] at hcount
      rw [countP_snoc, countP_snoc]
      omega
    · exact absurd rfl (hl e o)
  · rcases claimed_run hadv hth hc with hold | ⟨rfl, _, _, hwin⟩
    · obtain ⟨y, hy, hwin⟩ := hJ.won e' r reference hold
      exact ⟨y, List.mem_append_left _ hy, hwin⟩
    · exact ⟨_, List.mem_append_right _ (.head _), hwin⟩
  · obtain ⟨rfl, rfl⟩ := Label.run.inj hlabel
    exact hJ.won e r reference (hJ.call hadv hth hcall).1
  · rw [passedReferences_snoc]
    cases hc : providerCall ⟨s, .run e o, s'⟩ with
    | none => simpa using hJ.passed
    | some c =>
      have hnew := (hJ.call hadv hth hc).2.2.2
      simpa [List.nodup_append] using ⟨hJ.passed, fun a ha heq => hnew (heq ▸ ha)⟩
  · rw [passedReferences_snoc, List.mem_append, Option.mem_toList, Option.map_eq_some_iff] at hmem
    rcases hmem with hmem | ⟨c, hc, rfl⟩
    · exact Nat.lt_of_lt_of_le (hJ.used reference hmem) hnext
    · exact Nat.lt_of_lt_of_le (hJ.call hadv hth hc).2.2.1 hnext
  · rcases claimed_run hadv hth hc with hold | ⟨_, hid, hsucc, _⟩
    · exact Nat.lt_of_lt_of_le (hJ.held e' c hold).1 hnext
    · rw [hid, hsucc]
      exact Nat.lt_succ_self _
  · have hfresh : ∀ {e'} {c c' : PaymentRun × Reference}, (s.threads e').claimed = some c →
        c'.2.id = s.world.nextId → c.2 ≠ c'.2 := by
      intro e' c c' hc hid heq
      have hlt := (hJ.held e' c hc).1
      rw [heq, hid] at hlt
      exact Nat.lt_irrefl _ hlt
    rcases claimed_run hadv hth h₁ with hold₁ | ⟨rfl, hid₁, _⟩ <;>
      rcases claimed_run hadv hth h₂ with hold₂ | ⟨he₂, hid₂, _⟩
    · exact hJ.apart e₁ e₂ c₁ c₂ hold₁ hold₂ heq
    · exact absurd heq (hfresh hold₁ hid₂)
    · exact absurd heq.symm (hfresh hold₂ hid₁)
    · exact he₂.symm

end Run

theorem reaches_callHistory {cfg : Config} {tr : List (Move State Label)} {s : State}
    (h : Reaches cfg tr s) : CallHistory tr s := by
  refine Run.history CallHistory callHistory_initial ?_ h
  intro tr s l s' hrun hJ hstep
  rcases step_cases hstep with ⟨e, o, th', rfl, hadv, _, hth⟩ | ⟨_, hl, _⟩
  · exact callHistory_run hJ hadv hth hrun hstep
  · exact callHistory_ambient hrun hJ hstep hl

/-- A transaction has at most as many provider calls as its row entered PENDING, each after the
winning claim of its own execution and under that claim's reference, and no reference twice. -/
theorem claim_accounting {cfg : Config} {tr : List (Move State Label)} {s : State}
    (h : Reaches cfg tr s) :
    (∀ k, tr.countP (callsFor k) ≤ tr.countP (entersPending k)) ∧ CallsFollowClaims tr ∧
      (passedReferences tr).Nodup := by
  have hJ := reaches_callHistory h
  refine ⟨fun k => ?_, hJ.follow, hJ.passed⟩
  have hbudget := hJ.budget k
  omega

/-- Two attempts of one job, the first of which handed the transaction back: two calls, two
entries into PENDING. -/
theorem claim_accounting_reattempt : ∃ tr s, Reaches paystackConfig tr s ∧
    tr.countP (callsFor 0) = 2 ∧
    (∀ k, tr.countP (callsFor k) ≤ tr.countP (entersPending k)) ∧ CallsFollowClaims tr ∧
      (passedReferences tr).Nodup := by
  obtain ⟨tr, s, h, hp⟩ := exists_run_of_trace (step paystackConfig) initial
    (deliver 0 (badgeEvent 0 "Bronze" "0123456789") ++ .takeJob 0 :: Label.oks 1 4 ++
      [.run 1 (.fails fetchFailed false), .run 1 .ok] ++ payNewRecipient 2 0 "RCP_1")
    (fun r => decide (r.1.countP (callsFor 0) = 2)) (by decide +kernel)
  exact ⟨tr, s, h, of_decide_eq_true hp, claim_accounting h⟩

end Bumpa.Cashback
