import Bumpa.Cashback.Attempts

/-! # A webhook about an attempt that has been superseded

A webhook handler looks the row up by its reference and saves the entity it loaded later, without
looking again. In between, a retry may have put another reference on the row, and then the handler
overwrites an attempt that it knows nothing about.

`webhooks_own_attempt`: as long as nobody replaces the reference of a row that a handler is about to
save (`leavesMarked`), a webhook changes only a row that still has its reference. The invariant is
that every handler's row does (`Current`). `superseded_overwritten`: a webhook overwrites the
attempt after its own.
-/
namespace Bumpa.Cashback
open Bumpa.Events Bumpa.Relational Bumpa.Transition
set_option autoImplicit false

/-- A webhook handler that has looked transaction `k` up and not saved it yet. -/
def Thread.marks (k : ReadableId) : Thread → Bool
  | .webhook _ (.save t) => t.id = k
  | _ => false

/-- The row has another reference than the copy. -/
def World.supersedes (w : World) (t : CashbackTransaction) : Bool :=
  (w.row t.id).any fun row => row.providerReference ≠ t.providerReference

/-- The step does not put another reference on a row that a webhook handler is about to save, by a
claim or with a copy that is older than the row's claim. -/
def leavesMarked (s : State) : Label → Bool
  | .run e o =>
    match s.threads e with
    | .badge (.commit _ t) =>
      !(o.takesEffect && s.world.holdsRow e t && s.world.supersedes t &&
        s.anyThread (Thread.marks t.id))
    | .payment r (.claim _) =>
      !(o.takesEffect && s.world.statusOf r.transactionId = some .pending &&
        s.anyThread (Thread.marks r.transactionId))
    | .payment r (.store t account result) =>
      !((Thread.payment r (.store t account result)).storesResult o && s.world.supersedes t &&
        s.anyThread (Thread.marks t.id))
    | .payment r (.recover t error) =>
      !((Thread.payment r (.recover t error)).recordsFailure o && s.world.supersedes t &&
        s.anyThread (Thread.marks t.id))
    | _ => true
  | _ => true

/-- A webhook changes a row only if the row has its reference. -/
def OwnAttempt (x : Move State Label) : Prop :=
  ∀ e o hook pc k, x.label = .run e o → x.source.threads e = .webhook hook pc →
    x.target.world.row k ≠ x.source.world.row k →
    ∃ row, x.source.world.row k = some row ∧ row.providerReference = some hook.reference

/-- The row that a webhook handler is about to save has the webhook's reference. -/
def Current (s : State) : Prop :=
  ∀ e hook t, s.threads e = .webhook hook (.save t) →
    ∃ row, s.world.row t.id = some row ∧ row.providerReference = some hook.reference

/-! ## One step -/

theorem supersedes_eq {w : World} {t row : CashbackTransaction} (h : w.row t.id = some row) :
    w.supersedes t = decide (row.providerReference ≠ t.providerReference) := by
  rw [World.supersedes, h, Option.any_some]

/-- A handler that is about to save has just found the row by the webhook's reference. -/
theorem handleWebhook_found {w w' : World} {hook : TransferWebhook} {pc : WebhookPc} {o : Outcome}
    {t : CashbackTransaction}
    (h : handleWebhook w hook pc o = some (w', .webhook hook (.save t))) :
    w' = w ∧ w.row t.id = some t ∧ t.providerReference = some hook.reference := by
  have hfound : ∀ t, w.findByReference hook.reference = some t →
      w.row t.id = some t ∧ t.providerReference = some hook.reference := fun t ht =>
    ⟨(Table.find?_eq_some ht).1, of_decide_eq_true (Table.find?_eq_some ht).2⟩
  unfold handleWebhook at h
  grind

/-- A row that a handler is about to save keeps its reference. -/
theorem RowWrite.keeps_reference {cfg : Config} {s : State} {e : ℕ} {o : Outcome} {k : ReadableId}
    {row v : CashbackTransaction} (hv : RowWrite cfg s.world e (s.threads e) k v)
    (ho : o.takesEffect = true) (hG : leavesMarked s (.run e o) = true)
    (hmarked : s.anyThread (Thread.marks k) = true) (hcurrent : Current s)
    (hco : (s.threads e).Coherent) (hrow : s.world.row k = some row) :
    v.providerReference = row.providerReference := by
  generalize hth : s.threads e = th at hv hco
  cases hv with
  | @commit event t held =>
    have hheld : s.world.holdsRow e v = true := by simpa [World.holdsRow] using held
    simpa [leavesMarked, hth, ho, hheld, hmarked, supersedes_eq hrow, eq_comm] using hG
  | @claim r t row' found pending =>
    have hstatus := statusOf_eq found
    rw [pending] at hstatus
    simp [leavesMarked, hth, ho, hstatus, hmarked] at hG
  | @store r t account result free =>
    have hsame : row.providerReference = t.providerReference := by
      simpa [leavesMarked, hth, Thread.storesResult, ho, hmarked, supersedes_eq hrow] using hG
    rw [hsame, hco.2.1]
    rfl
  | @reset r t row' error found processing back =>
    rw [found, Option.some.injEq] at hrow
    rw [← hrow]
  | @failure r t error final free =>
    have hsame : row.providerReference = t.providerReference := by
      simpa [leavesMarked, hth, Thread.recordsFailure, ho, final, hmarked, supersedes_eq hrow]
        using hG
    exact hsame.symm
  | @revive caller k event row' found failed =>
    rw [found, Option.some.injEq] at hrow
    rw [← hrow]
    rfl
  | @resetCount t row' account found =>
    rw [found, Option.some.injEq] at hrow
    rw [← hrow]
  | @webhook hook t free =>
    obtain ⟨row', hrow', href⟩ := hcurrent e hook t hth
    rw [hrow, Option.some.injEq] at hrow'
    rw [mark_reference, hco, hrow', href]

theorem current_step {cfg : Config} {tr : List (Move State Label)} {s s' : State} {l : Label}
    (hreach : Reaches cfg tr s) (hG : leavesMarked s l = true) (hs : Current s)
    (h : step cfg s l = some s') : Current s' := by
  intro e' hook t ht
  rcases step_cases h with ⟨e, o, th', rfl, hadv, _, hth⟩ | ⟨hw, _, hrest⟩
  · by_cases he : e' = e
    · rw [hth, if_pos he] at ht
      rw [ht] at hadv
      obtain ⟨pc, _, hfind⟩ := advance_webhook hadv
      obtain ⟨hw, hrow, href⟩ := handleWebhook_found hfind
      rw [hw]
      exact ⟨t, hrow, href⟩
    · rw [hth, if_neg he] at ht
      obtain ⟨row, hrow, href⟩ := hs e' hook t ht
      have hmarked : s.anyThread (Thread.marks t.id) = true :=
        anyThread_of_thread hreach rfl (e := e') (by rw [ht]; exact decide_eq_true rfl)
      rcases advance_writes hadv with hsame | ⟨ho, k, v, hv, hwritten⟩
      · exact ⟨row, (hsame _).trans hrow, href⟩
      · by_cases hk : t.id = k
        · refine ⟨v, (hwritten _).trans (if_pos hk), ?_⟩
          rw [hk] at hmarked hrow
          rw [hv.keeps_reference ho hG hmarked hs (reaches_coherent hreach e) hrow, href]
        · exact ⟨row, ((hwritten _).trans (if_neg hk)).trans hrow, href⟩
  · have hbefore : s.threads e' = .webhook hook (.save t) := by
      rcases hrest with ⟨th, hstarted, _, hth⟩ | ⟨_, hth⟩
      · rw [hth] at ht
        split at ht
        · rw [ht] at hstarted
          cases hstarted
        · exact ht
      · rcases hth e' with heq | heq
        · rwa [heq] at ht
        · rw [heq] at ht
          cases ht
    rw [World.row, hw.transactions]
    exact hs e' hook t hbefore

theorem ownAttempt_of_current {cfg : Config} {s s' : State} {l : Label} (hs : Current s)
    (h : step cfg s l = some s') : OwnAttempt ⟨s, l, s'⟩ := by
  rintro e o hook pc k rfl hth hchanged
  obtain ⟨th', hadv, _⟩ := step_run h
  rw [hth] at hadv
  rcases advance_rows hadv with hsame | ⟨k', v, hv, hwritten⟩
  · exact absurd (hsame k) hchanged
  · have hk : k = k' := by
      by_contra hne
      exact hchanged ((hwritten k).trans (if_neg hne))
    subst hk
    cases hv with
    | @webhook _ t free => exact hs e hook t hth

/-! ## Every run -/

/-- A webhook that changes a row is about the row's own attempt, if every step leaves the
references of the rows that handlers are about to save. -/
theorem webhooks_own_attempt {cfg : Config} {tr : List (Move State Label)} {s : State}
    (h : Reaches cfg tr s) (hG : Guarded (fun s l => leavesMarked s l = true) tr) :
    ∀ x ∈ tr, OwnAttempt x := by
  refine (Run.guarded_history (fun tr s => Current s ∧ ∀ x ∈ tr, OwnAttempt x)
    ⟨(fun _ _ _ hth => by cases hth), List.forall_mem_nil _⟩ ?_ h hG).2
  rintro tr s l s' hreach hl ⟨hs, hall⟩ hstep
  refine ⟨current_step hreach hl hs hstep, fun x hx => ?_⟩
  rcases List.mem_append.mp hx with hx | hx
  · exact hall x hx
  · rw [List.mem_singleton.mp hx]
    exact ownAttempt_of_current hs hstep

/-! ## Schedules -/

/-- A webhook that finds its row and saves it before anything else happens. -/
theorem webhooks_own_attempt_undisturbed : ∃ tr s, Reaches paystackConfig tr s ∧
    s.world.statusOf 0 = some .failed ∧ ∀ x ∈ tr, OwnAttempt x := by
  obtain ⟨tr, s, h, hp⟩ := exists_run_of_trace (step paystackConfig) initial
    (deliver 0 (badgeEvent 0 "Bronze" "0123456789") ++ payNewRecipient 1 0 "RCP_1" ++
      Label.oks 1 3 ++ .webhook (firstWebhook .failed) :: Label.oks 2 3)
    (fun r => (r.1.all fun x => leavesMarked x.source x.label) &&
      decide (r.2.world.statusOf 0 = some .failed)) (by decide +kernel)
  rw [Bool.and_eq_true, decide_eq_true_eq] at hp
  exact ⟨tr, s, h, hp.2, webhooks_own_attempt h (guarded_of_all hp.1)⟩

/-- The move is one of thread `e`, which handles the webhook. -/
def handles (hook : TransferWebhook) (e : ℕ) (x : Move State Label) : Bool :=
  match x.label, x.source.threads e with
  | .run e' _, .webhook hook' _ => e' = e && hook' = hook
  | _, _ => false

theorem handles_spec {hook : TransferWebhook} {e : ℕ} {x : Move State Label}
    (h : handles hook e x = true) :
    ∃ o pc, x.label = .run e o ∧ x.source.threads e = .webhook hook pc := by
  unfold handles at h
  split at h
  · next o _ pc hlabel hth =>
    rw [Bool.and_eq_true, decide_eq_true_eq, decide_eq_true_eq] at h
    obtain ⟨rfl, rfl⟩ := h
    exact ⟨o, pc, hlabel, hth⟩
  · cases h

/-- The handler has found the row, the attempt loses Paystack's answer and goes back to the queue,
the next attempt claims the row under a reference of its own, and then the handler saves FAILED. -/
theorem superseded_overwritten : ¬ ∀ (cfg : Config) (tr : List (Move State Label)) (s : State),
    Reaches cfg tr s → ∀ x ∈ tr, OwnAttempt x := by
  intro hall
  obtain ⟨tr, s, h, hp⟩ := exists_run_of_trace (step paystackConfig) initial
    (deliver 0 (badgeEvent 0 "Bronze" "0123456789") ++ payNewRecipient 1 0 "RCP_1" ++
      [.webhook (firstWebhook .failed), .run 2 .ok, .run 1 (.fails fetchFailed false), .run 1 .ok,
        .takeJob 0, .run 3 .ok, .run 3 .ok, .run 2 .ok])
    (fun r => r.1.any fun x => handles (firstWebhook .failed) 2 x &&
      x.target.world.statusOf 0 ≠ x.source.world.statusOf 0 &&
      (x.source.world.row 0).all (·.providerReference ≠ some (firstWebhook .failed).reference))
    (by decide +kernel)
  obtain ⟨x, hx, hbad⟩ := List.any_eq_true.mp hp
  simp only [Bool.and_eq_true, decide_eq_true_eq] at hbad
  obtain ⟨⟨hhandles, hstatus⟩, hother⟩ := hbad
  obtain ⟨o, pc, hlabel, hth⟩ := handles_spec hhandles
  have hchanged : x.target.world.row 0 ≠ x.source.world.row 0 := fun hsame =>
    hstatus (congrArg (Option.map CashbackTransaction.status) hsame)
  obtain ⟨row, hrow, href⟩ := hall _ tr s h x hx 2 o _ pc 0 hlabel hth hchanged
  rw [hrow, Option.all_some, decide_eq_true_eq] at hother
  exact hother href

end Bumpa.Cashback
