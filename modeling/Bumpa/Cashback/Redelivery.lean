import Bumpa.Cashback.CashbackProcessed
import Bumpa.Cashback.WebhookRace

/-! # Redelivery of a webhook

`markTransferSuccessful` and `markTransferFailed` ignore a webhook whose outcome is the row's
status already, and any other webhook changes the row and is announced. So a repeated delivery is
ignored if the one before it said the same, and not if another outcome has been recorded since.

`deliverAll` is what deliveries handled one after the other do to the row, and how many of them
are announced; `handled_spec` says that the service does just that. `redelivery_iff`: a repeated
delivery can be taken out of a sequence exactly if it is ignored, or if it takes the place of the
next one, which says the same (`repeatsSilently`). `redelivery_applied` is a success that is
delivered again after a failure.
-/
namespace Bumpa.Cashback
open Bumpa.Events Bumpa.Relational Bumpa.Transition
set_option autoImplicit false

/-! ## What a sequence of deliveries does -/

/-- The row after a delivery, and how many deliveries have been announced. -/
def TransferWebhook.deliver (hook : TransferWebhook) (p : CashbackTransaction × ℕ) :
    CashbackTransaction × ℕ :=
  if p.1.status = .ofPayment hook.event.outcome then p else (hook.mark p.1, p.2 + 1)

def deliverAll (hooks : List TransferWebhook) (p : CashbackTransaction × ℕ) :
    CashbackTransaction × ℕ :=
  hooks.foldl (fun p hook => hook.deliver p) p

/-- A delivery `w` between `before` and `after` leaves no trace: the last one before reported the
same outcome, or the next one does, and what `w` records of a failure is the same or is cleared. -/
def repeatsSilently (before : List TransferWebhook) (w : TransferWebhook)
    (after : List TransferWebhook) : Bool :=
  before.getLast?.any (·.event.outcome = w.event.outcome) ||
    match after with
    | [] => false
    | next :: rest =>
      next.event.outcome = w.event.outcome &&
        (w.event.outcome = .successful || next.failure = w.failure ||
          rest.any (·.event.outcome = .successful))

section Deliveries
variable {hook : TransferWebhook} {hooks : List TransferWebhook} {p q : CashbackTransaction × ℕ}

theorem deliver_ignored (h : p.1.status = .ofPayment hook.event.outcome) : hook.deliver p = p :=
  if_pos h

theorem deliver_news (h : p.1.status ≠ .ofPayment hook.event.outcome) :
    hook.deliver p = (hook.mark p.1, p.2 + 1) := if_neg h

theorem deliver_status : (hook.deliver p).1.status = .ofPayment hook.event.outcome := by
  by_cases h : p.1.status = .ofPayment hook.event.outcome
  · rw [deliver_ignored h, h]
  · rw [deliver_news h, mark_status]

theorem deliverAll_append (xs ys : List TransferWebhook) :
    deliverAll (xs ++ ys) p = deliverAll ys (deliverAll xs p) := List.foldl_append

theorem deliverAll_cons : deliverAll (hook :: hooks) p = deliverAll hooks (hook.deliver p) := rfl

/-- The status is the outcome of the last delivery. -/
theorem deliverAll_status {last : TransferWebhook} (h : hooks.getLast? = some last) :
    (deliverAll hooks p).1.status = .ofPayment last.event.outcome := by
  obtain ⟨init, rfl⟩ := List.getLast?_eq_some_iff.mp h
  rw [deliverAll_append]
  exact deliver_status

/-- From rows with one status, as many deliveries are announced. -/
theorem deliverAll_count (hooks : List TransferWebhook) (h : p.1.status = q.1.status) :
    (deliverAll hooks p).2 + q.2 = (deliverAll hooks q).2 + p.2 := by
  induction hooks generalizing p q with
  | nil => exact Nat.add_comm _ _
  | cons hook hooks ih =>
    have hstatus : (hook.deliver p).1.status = (hook.deliver q).1.status :=
      deliver_status.trans deliver_status.symm
    have hnext := ih hstatus
    rw [deliverAll_cons, deliverAll_cons]
    by_cases hp : p.1.status = .ofPayment hook.event.outcome
    · rw [deliver_ignored hp, deliver_ignored (h.symm.trans hp)] at hnext ⊢
      exact hnext
    · have hq : q.1.status ≠ .ofPayment hook.event.outcome := h ▸ hp
      rw [deliver_news hp, deliver_news hq] at hnext ⊢
      simp only at hnext ⊢
      omega

end Deliveries

theorem markedFailed_inj {t : CashbackTransaction} {f g : CashbackPaymentError} :
    t.markedFailed f = t.markedFailed g ↔ f = g := by
  obtain ⟨message, code, retryable⟩ := f
  obtain ⟨message', code', retryable'⟩ := g
  simp [CashbackTransaction.markedFailed]

theorem mark_failed {hook : TransferWebhook} (h : hook.event.outcome = .failed)
    (t : CashbackTransaction) : hook.mark t = t.markedFailed hook.failure := by
  rw [TransferWebhook.mark, h]

theorem mark_successful {hook : TransferWebhook} (h : hook.event.outcome = .successful)
    (t : CashbackTransaction) : hook.mark t = t.markedSuccessful := by
  rw [TransferWebhook.mark, h]

/-- Two failures of one row stay apart until a success clears them. -/
theorem deliverAll_failures {hooks : List TransferWebhook} {t : CashbackTransaction}
    {f g : CashbackPaymentError} (n : ℕ) :
    deliverAll hooks (t.markedFailed f, n) = deliverAll hooks (t.markedFailed g, n) ↔
      f = g ∨ hooks.any (·.event.outcome = .successful) = true := by
  induction hooks with
  | nil => simp [deliverAll, markedFailed_inj]
  | cons hook hooks ih =>
    rw [deliverAll_cons, deliverAll_cons, List.any_cons]
    rcases outcome_cases hook.event with ho | ho
    · have hnews : ∀ f, hook.deliver (t.markedFailed f, n) =
          ((t.markedFailed f).markedSuccessful, n + 1) := fun f => by
        rw [deliver_news (by rw [ho]; simp [CashbackTransaction.markedFailed,
          CashbackTransactionStatus.ofPayment]), mark_successful ho]
      rw [hnews, hnews]
      exact iff_of_true rfl (Or.inr (by simp [ho]))
    · have hignored : ∀ f, hook.deliver (t.markedFailed f, n) = (t.markedFailed f, n) := fun f =>
        deliver_ignored (by rw [ho]; rfl)
      rw [hignored, hignored, ih]
      simp [ho]

/-- There are two outcomes. -/
theorem outcome_eq_of_ne {a b c : TransferEvent} (ha : ¬ a.outcome = c.outcome)
    (hb : ¬ b.outcome = c.outcome) : a.outcome = b.outcome := by
  cases a <;> cases b <;> cases c <;> simp_all [TransferEvent.outcome]

/-- A delivery can be taken out from behind others exactly if it repeats silently. -/
theorem deliverAll_erase_iff {before after : List TransferWebhook} {w : TransferWebhook}
    {p : CashbackTransaction × ℕ} (hbefore : before ≠ []) :
    deliverAll (before ++ w :: after) p = deliverAll (before ++ after) p ↔
      repeatsSilently before w after = true := by
  obtain ⟨last, hlast⟩ := Option.ne_none_iff_exists'.mp (mt List.getLast?_eq_none_iff.mp hbefore)
  have hstatus : (deliverAll before p).1.status = .ofPayment last.event.outcome :=
    deliverAll_status hlast
  unfold repeatsSilently
  rw [deliverAll_append, deliverAll_append, deliverAll_cons, hlast, Option.any_some]
  generalize deliverAll before p = p at hstatus ⊢
  by_cases hsame : last.event.outcome = w.event.outcome
  · rw [deliver_ignored (by rw [hstatus, hsame])]
    simp [hsame]
  · have hnews : p.1.status ≠ .ofPayment w.event.outcome := by
      rwa [hstatus, Ne, CashbackTransactionStatus.ofPayment_inj]
    rw [deliver_news hnews, decide_eq_false hsame, Bool.false_or]
    cases after with
    | nil =>
      refine iff_of_false (fun heq => ?_) Bool.false_ne_true
      have hmark := congrArg (·.1.status) heq
      simp only [deliverAll, List.foldl_nil, mark_status] at hmark
      exact hnews hmark.symm
    | cons next rest =>
      rw [deliverAll_cons, deliverAll_cons]
      by_cases hnext : next.event.outcome = w.event.outcome
      · -- with `w` the next one is ignored, without it takes the place of `w`
        have hignored : next.deliver (w.mark p.1, p.2 + 1) = (w.mark p.1, p.2 + 1) :=
          deliver_ignored (by rw [hnext]; exact mark_status w p.1)
        have happlied : next.deliver p = (next.mark p.1, p.2 + 1) :=
          deliver_news (by rwa [hnext])
        rw [hignored, happlied]
        rcases outcome_cases w.event with ho | ho
        · rw [mark_successful ho, mark_successful (hnext.trans ho)]
          exact iff_of_true rfl (by simp [hnext, ho])
        · rw [mark_failed ho, mark_failed (hnext.trans ho), deliverAll_failures]
          simp [hnext, ho, eq_comm (a := w.failure)]
      · -- with `w` the next one is news as well, without it is ignored
        have hignored : next.deliver p = p :=
          deliver_ignored (by rw [hstatus, outcome_eq_of_ne hsame hnext])
        have happlied : next.deliver (w.mark p.1, p.2 + 1) = (next.mark (w.mark p.1), p.2 + 1 + 1) :=
          deliver_news (by
            rw [mark_status, Ne, CashbackTransactionStatus.ofPayment_inj]
            exact Ne.symm hnext)
        have hcount := deliverAll_count rest (deliver_status.trans deliver_status.symm :
          (next.deliver (w.mark p.1, p.2 + 1)).1.status = (next.deliver p).1.status)
        rw [hignored, happlied] at hcount ⊢
        refine iff_of_false (fun heq => ?_) (by simp [hnext])
        rw [heq] at hcount
        simp only at hcount
        omega

/-! ## The service handles them one after the other -/

/-- The row of `k` and the number of its events as they stand. -/
def State.Shows (s : State) (k : ReadableId) (p : CashbackTransaction × ℕ) : Prop :=
  s.world.row k = some p.1 ∧ s.world.db.outboxEvents.length = p.2

/-- Handler `e` runs on, its read and save go through, and nobody else writes the row of `k` or an
event. -/
def HandlerMove (k : ReadableId) (e : ℕ) (x : Move State Label) : Prop :=
  (∃ o, x.label = .run e o ∧
    (o = .ok ∨ ∃ hook eventId, x.source.threads e = .webhook hook (.publish eventId))) ∨
  (x.target.threads e = x.source.threads e ∧ ∀ p, x.source.Shows k p → x.target.Shows k p)

/-- The deliveries arrive one by one, each when the handler of the one before is through. -/
inductive Handled (cfg : Config) (k : ReadableId) : State → List TransferWebhook → State → Prop
  | nil {s : State} : Handled cfg k s [] s
  | cons {s s₁ s₂ s' : State} {hook : TransferWebhook} {hooks : List TransferWebhook}
      {tr : List (Move State Label)} (arrives : step cfg s (.webhook hook) = some s₁)
      (run : Run (step cfg) s₁ tr s₂) (moves : ∀ x ∈ tr, HandlerMove k s.nextThread x)
      (through : s₂.threads s.nextThread = .done) (rest : Handled cfg k s₂ hooks s') :
      Handled cfg k s (hook :: hooks) s'

/-- The handler's program point, with what the row and the events are by then. -/
inductive HandlerServes (hook : TransferWebhook) (p : CashbackTransaction × ℕ) :
    Thread → CashbackTransaction × ℕ → Prop
  | find : HandlerServes hook p (.webhook hook .find) p
  | save (news : p.1.status ≠ .ofPayment hook.event.outcome) :
      HandlerServes hook p (.webhook hook (.save p.1)) p
  | publish {eventId : ReadableId} :
      HandlerServes hook p (.webhook hook (.publish eventId)) (hook.deliver p)
  | done : HandlerServes hook p .done (hook.deliver p)

/-- One move while the handler serves. -/
theorem handler_serves {cfg : Config} {s s' : State} {l : Label} {e : ℕ} {k : ReadableId}
    {hook : TransferWebhook} {p q : CashbackTransaction × ℕ} (hs : UniqueReferences s)
    (hmove : HandlerMove k e ⟨s, l, s'⟩) (href : p.1.providerReference = some hook.reference)
    (hserves : HandlerServes hook p (s.threads e) q) (hq : s.Shows k q)
    (h : step cfg s l = some s') :
    ∃ q', HandlerServes hook p (s'.threads e) q' ∧ s'.Shows k q' := by
  rcases hmove with ⟨o, rfl, hserved⟩ | ⟨hthread, hshows⟩
  · obtain ⟨th', hadv, _, hth⟩ := step_run h
    have hown : s'.threads e = th' := by rw [hth, if_pos rfl]
    rw [hown]
    generalize s.threads e = th at hserves hadv hserved
    cases hserves with
    | find =>
      obtain rfl : o = .ok := by
        rcases hserved with ho | ⟨_, _, hth⟩
        · exact ho
        · cases hth
      simp only [advance, handleWebhook, findByReference_eq hs hq.1 href] at hadv
      split_ifs at hadv with hsame
      · obtain ⟨hw, rfl⟩ := some_pair_inj hadv
        refine ⟨p, ?_, by rw [State.Shows, hw]; exact hq⟩
        have hdone : HandlerServes hook p .done (hook.deliver p) := .done
        rwa [deliver_ignored hsame] at hdone
      · obtain ⟨hw, rfl⟩ := some_pair_inj hadv
        exact ⟨p, .save hsame, by rw [State.Shows, hw]; exact hq⟩
    | save news =>
      obtain rfl : o = .ok := by
        rcases hserved with ho | ⟨_, _, hth⟩
        · exact ho
        · cases hth
      simp only [advance, handleWebhook] at hadv
      split_ifs at hadv
      obtain ⟨hw, rfl⟩ := some_pair_inj hadv
      have hid : p.1.id = k := s.world.db.transactions.key_eq hq.1
      refine ⟨hook.deliver p, .publish, ?_⟩
      rw [deliver_news news, State.Shows, hw, World.row, storeWebhook_transactions,
        saveTransaction_row, mark_id, if_pos hid.symm]
      refine ⟨rfl, ?_⟩
      rw [← hq.2]
      exact List.length_append
    | publish =>
      have hend : s'.world = s.world ∧ th' = .done := by
        simp only [advance, handleWebhook] at hadv
        grind
      rw [hend.2]
      refine ⟨_, .done, ?_⟩
      rw [State.Shows, hend.1]
      exact hq
    | done => cases hadv
  · rw [hthread]
    exact ⟨q, hserves, hshows q hq⟩

/-- One delivery, handled to completion. -/
theorem handled_delivery {cfg : Config} {s s₁ s₂ : State} {k : ReadableId} {hook : TransferWebhook}
    {p : CashbackTransaction × ℕ} {tr₀ tr : List (Move State Label)} (hreach : Reaches cfg tr₀ s)
    (href : p.1.providerReference = some hook.reference) (hp : s.Shows k p)
    (harrives : step cfg s (.webhook hook) = some s₁) (hrun : Run (step cfg) s₁ tr s₂)
    (hmoves : ∀ x ∈ tr, HandlerMove k s.nextThread x) (hdone : s₂.threads s.nextThread = .done) :
    s₂.Shows k (hook.deliver p) := by
  have hserves : ∃ q, HandlerServes hook p (s₂.threads s.nextThread) q ∧ s₂.Shows k q := by
    clear hdone
    induction hrun with
    | nil =>
      obtain ⟨hw, _, hth⟩ := receiveWebhook_spec harrives
      have hdb : s₁.world.db = s.world.db := by
        rcases hw with hw | ⟨_, hw⟩ <;> rw [hw]
        rfl
      rw [hth, if_pos rfl]
      refine ⟨p, .find, ?_⟩
      rw [State.Shows, World.row, hdb]
      exact hp
    | @snoc tr t u l prev last ih =>
      obtain ⟨q, hq, hshows⟩ := ih fun x hx => hmoves x (List.mem_append_left _ hx)
      exact handler_serves (reaches_uniqueReferences ((Run.snoc hreach harrives).trans prev))
        (hmoves _ (List.mem_append_right _ (List.mem_singleton_self _))) href hq hshows last
  obtain ⟨q, hq, hshows⟩ := hserves
  rw [hdone] at hq
  cases hq
  exact hshows

theorem deliver_reference (hook : TransferWebhook) (p : CashbackTransaction × ℕ) :
    (hook.deliver p).1.providerReference = p.1.providerReference := by
  unfold TransferWebhook.deliver
  split
  · rfl
  · exact mark_reference hook p.1

/-- Any number of them. -/
theorem handled_spec {cfg : Config} {s s' : State} {k : ReadableId} {reference : Reference}
    {hooks : List TransferWebhook} {p : CashbackTransaction × ℕ} {tr : List (Move State Label)}
    (hreach : Reaches cfg tr s) (hhandled : Handled cfg k s hooks s')
    (hhooks : ∀ hook ∈ hooks, hook.reference = reference)
    (href : p.1.providerReference = some reference) (hp : s.Shows k p) :
    s'.Shows k (deliverAll hooks p) := by
  induction hhandled generalizing p tr with
  | nil => exact hp
  | @cons s s₁ s₂ s' hook hooks tr₁ arrives run moves through rest ih =>
    obtain ⟨hhook, hhooks⟩ := List.forall_mem_cons.mp hhooks
    have hdelivered := handled_delivery hreach (href.trans (congrArg some hhook.symm)) hp arrives
      run moves through
    exact ih ((Run.snoc hreach arrives).trans run) hhooks ((deliver_reference hook p).trans href)
      hdelivered

/-! ## They can be handled -/

/-- Paystack has accepted a transfer under the reference. -/
def State.Accepted (s : State) (reference : Reference) : Prop :=
  s.world.paystack.transfers.any (·.request.reference = reference) = true

theorem accepted_report {w : World} {reference reference' : Reference}
    (h : w.paystack.transfers.any (·.request.reference = reference) = true) :
    (w.reportTransfer reference').paystack.transfers.any (·.request.reference = reference) = true ∧
    (w.notifyTransfer reference').paystack.transfers.any (·.request.reference = reference) =
      true := by
  obtain ⟨transfer, hmem, href⟩ := List.any_eq_true.mp h
  constructor <;>
    refine List.any_eq_true.mpr ⟨_, List.mem_map.mpr ⟨transfer, hmem, rfl⟩, ?_⟩ <;>
    split <;> exact href

theorem step_ok {cfg : Config} {s : State} {e : ℕ} {w' : World} {th' : Thread}
    (h : advance cfg s.world e (s.threads e) .ok = some (w', th')) :
    ∃ s', step cfg s (.run e .ok) = some s' ∧ s'.world = w' ∧ s'.threads e = th' :=
  ⟨_, Option.map_eq_some_iff.mpr ⟨_, h, rfl⟩, rfl, Function.update_self ..⟩

/-- While the row is not locked a delivery is handled in at most three calls. -/
theorem exists_handled_one {cfg : Config} {s : State} {k : ReadableId} {hook : TransferWebhook}
    {p : CashbackTransaction × ℕ} {tr₀ : List (Move State Label)} (hreach : Reaches cfg tr₀ s)
    (haccepted : s.Accepted hook.reference) (hfree : s.world.rowFree k = true)
    (href : p.1.providerReference = some hook.reference) (hp : s.Shows k p) :
    ∃ s₁ tr s₂, step cfg s (.webhook hook) = some s₁ ∧ Run (step cfg) s₁ tr s₂ ∧
      (∀ x ∈ tr, HandlerMove k s.nextThread x) ∧ s₂.threads s.nextThread = .done ∧
      s₂.Accepted hook.reference ∧ s₂.world.rowFree k = true := by
  have hok : ∀ {t u : State} {e : ℕ}, HandlerMove k e ⟨t, .run e .ok, u⟩ := fun {t u e} =>
    Or.inl ⟨.ok, rfl, Or.inl rfl⟩
  obtain ⟨s₁, harrives⟩ : ∃ s₁, step cfg s (.webhook hook) = some s₁ := ⟨_, if_pos haccepted⟩
  obtain ⟨hw, _, hth⟩ := receiveWebhook_spec harrives
  have hown : s₁.threads s.nextThread = .webhook hook .find := by rw [hth, if_pos rfl]
  have hdb : s₁.world.db = s.world.db := by
    rcases hw with hw | ⟨_, hw⟩ <;> rw [hw]
    rfl
  have haccepted₁ : s₁.Accepted hook.reference := by
    rcases hw with hw | ⟨_, hw⟩ <;> rw [State.Accepted, hw]
    · exact haccepted
    · exact (accepted_report haccepted).1
  have hfind : s₁.world.findByReference hook.reference = some p.1 := by
    rw [World.findByReference, hdb]
    exact findByReference_eq (reaches_uniqueReferences hreach) hp.1 href
  have hfree₁ : s₁.world.rowFree k = true := by
    rw [World.rowFree, hdb]
    exact hfree
  by_cases hsame : p.1.status = .ofPayment hook.event.outcome
  · have hignored : advance cfg s₁.world s.nextThread (s₁.threads s.nextThread) .ok =
        some (s₁.world.notifyTransfer hook.reference, .done) := by
      rw [hown]
      simp only [advance, handleWebhook, hfind, if_pos hsame]
    obtain ⟨s₂, h₂, hw₂, hth₂⟩ := step_ok hignored
    refine ⟨s₁, _, s₂, harrives, Run.single h₂, ?_, hth₂, ?_, ?_⟩
    · exact fun x hx => List.mem_singleton.mp hx ▸ hok
    · rw [State.Accepted, hw₂]
      exact (accepted_report haccepted₁).2
    · rw [hw₂]
      exact hfree₁
  · have hid : p.1.id = k := s.world.db.transactions.key_eq hp.1
    have hread : advance cfg s₁.world s.nextThread (s₁.threads s.nextThread) .ok =
        some (s₁.world, .webhook hook (.save p.1)) := by
      rw [hown]
      simp only [advance, handleWebhook, hfind, if_neg hsame]
    obtain ⟨s₂, h₂, hw₂, hth₂⟩ := step_ok hread
    have hsave : advance cfg s₂.world s.nextThread (s₂.threads s.nextThread) .ok =
        some (s₁.world.storeWebhook hook p.1,
          .webhook hook (.publish (s₁.world.nextId + 1))) := by
      rw [hth₂, hw₂]
      simp only [advance, handleWebhook, hid, hfree₁, if_true]
    obtain ⟨s₃, h₃, hw₃, hth₃⟩ := step_ok hsave
    have hpublish : advance cfg s₃.world s.nextThread (s₃.threads s.nextThread) .ok =
        some (s₃.world, .done) := by
      rw [hth₃]
      rfl
    obtain ⟨s₄, h₄, hw₄, hth₄⟩ := step_ok hpublish
    refine ⟨s₁, _, s₄, harrives, ((Run.single h₂).trans (Run.single h₃)).trans (Run.single h₄),
      ?_, hth₄, ?_, ?_⟩
    · intro x hx
      simp only [List.mem_append, List.mem_singleton] at hx
      rcases hx with (rfl | rfl) | rfl <;> exact hok
    · rw [State.Accepted, hw₄, hw₃]
      exact (accepted_report haccepted₁).2
    · rw [hw₄, hw₃]
      exact hfree₁

/-- While the row is not locked any sequence of deliveries about it can be handled. -/
theorem exists_handled {cfg : Config} {s : State} {k : ReadableId} {reference : Reference}
    {hooks : List TransferWebhook} {p : CashbackTransaction × ℕ} {tr : List (Move State Label)}
    (hreach : Reaches cfg tr s) (haccepted : s.Accepted reference)
    (hfree : s.world.rowFree k = true) (href : p.1.providerReference = some reference)
    (hp : s.Shows k p) (hhooks : ∀ hook ∈ hooks, hook.reference = reference) :
    ∃ s', Handled cfg k s hooks s' := by
  induction hooks generalizing s p tr with
  | nil => exact ⟨s, .nil⟩
  | cons hook hooks ih =>
    obtain ⟨rfl, hhooks⟩ := List.forall_mem_cons.mp hhooks
    obtain ⟨s₁, tr₁, s₂, harrives, hrun, hmoves, hdone, haccepted₂, hfree₂⟩ :=
      exists_handled_one hreach haccepted hfree href hp
    have hdelivered := handled_delivery hreach href hp harrives hrun hmoves hdone
    obtain ⟨s', hrest⟩ := ih ((Run.snoc hreach harrives).trans hrun) haccepted₂ hfree₂
      ((deliver_reference hook p).trans href) hdelivered hhooks
    exact ⟨s', .cons harrives hrun hmoves hdone hrest⟩

/-! ## A repeated delivery -/

/-- With and without a repeated delivery the row and the number of events come out the same exactly
if it repeats silently. -/
theorem redelivery_iff {cfg : Config} {tr : List (Move State Label)} {s s₁ s₂ : State}
    {k : ReadableId} {row : CashbackTransaction} {reference : Reference}
    {before after : List TransferWebhook} {w : TransferWebhook} (hreach : Reaches cfg tr s)
    (hrow : s.world.row k = some row) (href : row.providerReference = some reference)
    (hhooks : ∀ hook ∈ before ++ w :: after, hook.reference = reference) (hw : w ∈ before)
    (h₁ : Handled cfg k s (before ++ w :: after) s₁) (h₂ : Handled cfg k s (before ++ after) s₂) :
    (s₁.world.row k = s₂.world.row k ∧
      s₁.world.db.outboxEvents.length = s₂.world.db.outboxEvents.length) ↔
      repeatsSilently before w after = true := by
  have hp : s.Shows k (row, s.world.db.outboxEvents.length) := ⟨hrow, rfl⟩
  have hhooks₂ : ∀ hook ∈ before ++ after, hook.reference = reference := fun hook hmem =>
    hhooks hook (by grind)
  obtain ⟨hrow₁, hcount₁⟩ := handled_spec hreach h₁ hhooks href hp
  obtain ⟨hrow₂, hcount₂⟩ := handled_spec hreach h₂ hhooks₂ href hp
  rw [hrow₁, hrow₂, hcount₁, hcount₂, Option.some.injEq, ← Prod.ext_iff]
  exact deliverAll_erase_iff (List.ne_nil_of_mem hw)

/-! ## Schedules -/

/-- A payment of `usr_1` whose transfer Paystack has accepted. -/
theorem exists_transferred : ∃ tr s row, Reaches paystackConfig tr s ∧
    s.world.row 0 = some row ∧ row.providerReference = some (firstWebhook .success).reference ∧
    s.Accepted (firstWebhook .success).reference ∧ s.world.rowFree 0 = true := by
  obtain ⟨tr, s, h, hp⟩ := exists_run_of_trace (step paystackConfig) initial
    (deliver 0 (badgeEvent 0 "Bronze" "0123456789") ++ payNewRecipient 1 0 "RCP_1" ++
      Label.oks 1 3)
    (fun r => (r.2.world.row 0).any (fun row : CashbackTransaction =>
        row.providerReference = some (firstWebhook .success).reference) &&
      r.2.world.paystack.transfers.any (·.request.reference = (firstWebhook .success).reference) &&
      r.2.world.rowFree 0) (by decide +kernel)
  rw [Bool.and_eq_true, Bool.and_eq_true] at hp
  obtain ⟨row, hrow, href⟩ := (Option.any_eq_true _ _).mp hp.1.1
  exact ⟨tr, s, row, h, hrow, of_decide_eq_true href, hp.1.2, hp.2⟩

/-- A success that is delivered twice in a row. -/
theorem redelivery_silent : ∃ tr s s₁ s₂, Reaches paystackConfig tr s ∧
    Handled paystackConfig 0 s ([firstWebhook .success] ++ firstWebhook .success :: []) s₁ ∧
    Handled paystackConfig 0 s ([firstWebhook .success] ++ []) s₂ ∧
    s₁.world.row 0 = s₂.world.row 0 ∧
    s₁.world.db.outboxEvents.length = s₂.world.db.outboxEvents.length := by
  obtain ⟨tr, s, row, hreach, hrow, href, haccepted, hfree⟩ := exists_transferred
  have hp : s.Shows 0 (row, s.world.db.outboxEvents.length) := ⟨hrow, rfl⟩
  have hhooks : ∀ hook ∈ [firstWebhook .success] ++ firstWebhook .success :: [],
      hook.reference = (firstWebhook .success).reference := by simp
  have hhooks₂ : ∀ hook ∈ [firstWebhook .success] ++ [],
      hook.reference = (firstWebhook .success).reference := by simp
  obtain ⟨s₁, h₁⟩ := exists_handled hreach haccepted hfree href hp hhooks
  obtain ⟨s₂, h₂⟩ := exists_handled hreach haccepted hfree href hp hhooks₂
  exact ⟨tr, s, s₁, s₂, hreach, h₁, h₂,
    (redelivery_iff hreach hrow href hhooks (List.mem_singleton_self _) h₁ h₂).mpr (by decide)⟩

/-- A success, a failure, and the success again: without the third delivery the row stays FAILED. -/
theorem redelivery_applied : ¬ ∀ (cfg : Config) (tr : List (Move State Label)) (s s₁ s₂ : State)
    (k : ReadableId) (row : CashbackTransaction) (reference : Reference)
    (before after : List TransferWebhook) (w : TransferWebhook), Reaches cfg tr s →
    s.world.row k = some row → row.providerReference = some reference →
    (∀ hook ∈ before ++ w :: after, hook.reference = reference) → w ∈ before →
    Handled cfg k s (before ++ w :: after) s₁ → Handled cfg k s (before ++ after) s₂ →
    s₁.world.row k = s₂.world.row k ∧
      s₁.world.db.outboxEvents.length = s₂.world.db.outboxEvents.length := by
  intro hall
  obtain ⟨tr, s, row, hreach, hrow, href, haccepted, hfree⟩ := exists_transferred
  have hp : s.Shows 0 (row, s.world.db.outboxEvents.length) := ⟨hrow, rfl⟩
  have hhooks : ∀ hook ∈ [firstWebhook .success, firstWebhook .failed] ++ firstWebhook .success :: [],
      hook.reference = (firstWebhook .success).reference := by simp [firstWebhook]
  have hhooks₂ : ∀ hook ∈ [firstWebhook .success, firstWebhook .failed] ++ [],
      hook.reference = (firstWebhook .success).reference := by simp [firstWebhook]
  obtain ⟨s₁, h₁⟩ := exists_handled hreach haccepted hfree href hp hhooks
  obtain ⟨s₂, h₂⟩ := exists_handled hreach haccepted hfree href hp hhooks₂
  have hsame := (hall _ tr s s₁ s₂ 0 row _ _ _ _ hreach hrow href hhooks (.head _) h₁ h₂).1
  have hrow₁ := (handled_spec hreach h₁ hhooks href hp).1
  have hrow₂ := (handled_spec hreach h₂ hhooks₂ href hp).1
  rw [hrow₁, hrow₂, Option.some.injEq] at hsame
  have hstatus := congrArg CashbackTransaction.status hsame
  rw [deliverAll_status rfl, deliverAll_status rfl] at hstatus
  cases hstatus

end Bumpa.Cashback
