import Bumpa.Broker.ServerQueues
import Bumpa.Broker.Executions

/-! # Bounded redelivery

The retry count lives in the headers of a message, and the message in one queue after another. Its
history is a number of rounds, each a failed delivery whose copy comes back from the retry queue,
and then the part of the next one that its stage says; all the while it has one copy, which is where
its stage says, or none once it is acked (`Standing`).

`redelivery_bounded`: this is so for every message as long as handlers end while the channel of
their delivery is open and current, and no channel with deliveries out is lost (`channelStays`).
-/
namespace Bumpa.Broker.Redelivery
open Bumpa.Transition
set_option autoImplicit false

variable {Payload : Type}

/-! ## The chain of a message -/

inductive Stage where
  | ready
  | handling
  | waiting
  | acked
  | deadLettered
  deriving DecidableEq, Repr

/-- Delivery `n`, counted from 0, fails, and its copy comes back. -/
def round (content : Content Payload) (n : ℕ) : List (Event Payload) :=
  [.delivered n content, .failed, .scheduled (some (retryDelayMs n)), .acked, .returned]

def rounds (content : Content Payload) (k : ℕ) : List (Event Payload) :=
  (List.range k).flatMap (round content)

/-- What has happened since the message came back for the `k`-th time. -/
def Stage.tail (content : Content Payload) (k : ℕ) : Stage → List (Event Payload)
  | .ready => []
  | .handling => [.delivered k content]
  | .waiting => [.delivered k content, .failed, .scheduled (some (retryDelayMs k)), .acked]
  | .acked => [.delivered k content, .succeeded, .acked]
  | .deadLettered =>
    match content with
    | .malformed _ => [.delivered k content, .deadLettered]
    | .json _ =>
      if k < maxRetryAttempts then [.delivered k content, .failed, .unscheduled, .deadLettered]
      else [.delivered k content, .failed, .deadLettered]

/-- A payload that does not parse is dead-lettered at once; the others have a bounded number of
rounds. -/
def Stage.Allowed (content : Content Payload) (k : ℕ) (stage : Stage) : Prop :=
  match content with
  | .malformed _ => k = 0 ∧ (stage = .ready ∨ stage = .deadLettered)
  | .json _ => k ≤ maxRetryAttempts ∧ (stage = .waiting → k < maxRetryAttempts)

/-- All that the server has of one message. -/
structure View (Payload : Type) where
  history : List (Event Payload)
  ready : List (Copy Payload)
  taken : List (ℕ × Delivery Payload)
  retry : List (Copy Payload)
  dead : List (Copy Payload)

def View.empty : View Payload := ⟨[], [], [], [], []⟩

def View.noted (v : View Payload) (event : Event Payload) : View Payload :=
  { v with history := v.history ++ [event] }

def View.scheduled (v : View Payload) (o : ℕ) (queue : String) (message : Message Payload) :
    View Payload :=
  { v.noted (.scheduled message.properties.expiration) with
    retry := v.retry ++ [⟨o, queue, message⟩] }

/-- The copy in the retry queue goes back to `queue`. -/
def View.returned (v : View Payload) (o : ℕ) (queue : String) (message : Message Payload) :
    View Payload :=
  { v.noted .returned with
    ready := v.ready ++ [⟨o, queue, expired message queue⟩]
    retry := [] }

/-- The copy that is out is acked or dead-lettered. -/
def View.settled (v : View Payload) (kind : SettlementKind) (o : ℕ) (d : Delivery Payload) :
    View Payload :=
  match kind with
  | .ack => { v.noted .acked with taken := [] }
  | .nack =>
    { v.noted .deadLettered with
      taken := []
      dead := v.dead ++ [⟨o, d.queue, d.message⟩] }

def Server.view (srv : Server Payload) (o : ℕ) : View Payload where
  history := srv.history o
  ready := srv.ready.filter (·.origin = o)
  taken := srv.taken.filter (·.1 = o)
  retry := srv.retry.filter (·.origin = o)
  dead := srv.dead.filter (·.origin = o)

/-- The queue, the content and the retry count of a copy. -/
def Copy.facts (copy : Copy Payload) : String × Content Payload × ℕ :=
  (copy.queue, copy.message.content, readRetryCount copy.message)

def deliveryFacts (x : ℕ × Delivery Payload) : String × Content Payload × ℕ :=
  (x.2.queue, x.2.message.content, readRetryCount x.2.message)

/-- The message came back `k` times and is at `stage`. -/
structure Standing (v : View Payload) (queue : String) (content : Content Payload) (k : ℕ)
    (stage : Stage) : Prop where
  history : v.history = rounds content k ++ stage.tail content k
  ready : v.ready.map Copy.facts = if stage = .ready then [(queue, content, k)] else []
  taken : v.taken.map deliveryFacts = if stage = .handling then [(queue, content, k)] else []
  retry : v.retry.map Copy.facts =
    if stage = .waiting then [(queue ++ ".retry", content, k + 1)] else []
  dead : v.dead.map Copy.facts = if stage = .deadLettered then [(queue, content, k)] else []

/-! ## The channel stays open -/

/-- Channels with deliveries out are not lost. -/
def keepsInUse (s : State Payload) (l : Label Payload) : Bool :=
  (step s l).all fun s' => (List.range s.nextChannel).all fun c =>
    (s.channels c).unsettled.isEmpty || (s'.channels c).isOpen

/-- A handler that ends finds the channel of its delivery open and current. -/
def endsOnLive (s : State Payload) (e : ℕ) : Bool :=
  match s.threads e with
  | .handle d => s.liveChannel = some d.channel
  | _ => true

def channelStays (sys : System Payload) : SystemLabel Payload → Bool
  | .deliver c _ _ => sys.service.liveChannel = some c
  | .unschedulable e => endsOnLive sys.service e
  | .service (.run e o) => endsOnLive sys.service e && keepsInUse sys.service (.run e o)
  | .service l => keepsInUse sys.service l
  | _ => true

/-! ## Lists -/

section Lists
variable {α : Type*} {l : List α} {i : ℕ} {x : α} {p : α → Bool}

theorem eraseIdx_split (h : l[i]? = some x) :
    ∃ l₁ l₂, l = l₁ ++ x :: l₂ ∧ l.eraseIdx i = l₁ ++ l₂ := by
  obtain ⟨hi, rfl⟩ := List.getElem?_eq_some_iff.mp h
  refine ⟨l.take i, l.drop (i + 1), ?_, List.eraseIdx_eq_take_drop_succ l i⟩
  rw [← List.drop_eq_getElem_cons hi, List.take_append_drop]

theorem filter_eraseIdx_of_neg (h : l[i]? = some x) (hp : p x = false) :
    (l.eraseIdx i).filter p = l.filter p := by
  obtain ⟨l₁, l₂, hl, herase⟩ := eraseIdx_split h
  rw [herase, hl, List.filter_append, List.filter_append,
    List.filter_cons_of_neg (by rw [hp]; exact Bool.false_ne_true)]

/-- The only element with `p` is removed. -/
theorem filter_eraseIdx_of_pos (h : l[i]? = some x) (hp : p x = true)
    (hone : (l.filter p).length = 1) : l.filter p = [x] ∧ (l.eraseIdx i).filter p = [] := by
  obtain ⟨l₁, l₂, hl, herase⟩ := eraseIdx_split h
  rw [hl, List.filter_append, List.filter_cons_of_pos hp, List.length_append,
    List.length_cons] at hone
  have h₁ : l₁.filter p = [] := List.eq_nil_of_length_eq_zero (by omega)
  have h₂ : l₂.filter p = [] := List.eq_nil_of_length_eq_zero (by omega)
  rw [herase, hl, List.filter_append, List.filter_append, List.filter_cons_of_pos hp, h₁, h₂]
  exact ⟨rfl, rfl⟩

/-- An element of a list that has one element at most. -/
theorem singleton_of_mem {β : Type*} {f : α → β} {y : β} {q : Prop} [Decidable q]
    (h : l.map f = if q then [y] else []) (hx : x ∈ l) : q ∧ l = [x] ∧ f x = y := by
  split at h
  · next hq =>
    obtain ⟨x', rfl, hfacts⟩ := List.map_eq_singleton_iff.mp h
    rw [List.mem_singleton.mp hx]
    exact ⟨hq, rfl, hfacts⟩
  · rw [List.map_eq_nil_iff.mp h] at hx
    cases hx

/-- One place changes, and then the same place again. -/
theorem changed_twice (next : α → α) {f g h : ℕ → α} {o : ℕ} {v : α}
    (hfirst : ∀ o', g o' = if o' = o then v else f o')
    (hsecond : ∀ o', h o' = if o' = o then next (g o) else g o') (o' : ℕ) :
    h o' = if o' = o then next v else f o' := by
  rw [hsecond, hfirst o, if_pos rfl]
  split
  · rfl
  · next hne => rw [hfirst, if_neg hne]

end Lists

/-! ## What the server does to the view of a message -/

/-- The deliveries that are out are told apart by their numbers. -/
def Distinct (taken : List (ℕ × Delivery Payload)) : Prop :=
  taken.Pairwise fun x y : ℕ × Delivery Payload => sameDelivery x.2 y.2 = false

theorem sameDelivery_self (d : Delivery Payload) : sameDelivery d d = true := by
  simp [sameDelivery]

theorem sameDelivery_comm (d d' : Delivery Payload) : sameDelivery d d' = sameDelivery d' d := by
  simp only [sameDelivery, eq_comm]

/-- Among the deliveries that are out, one number stands for one delivery. -/
theorem Distinct.eq {taken : List (ℕ × Delivery Payload)} (h : Distinct taken)
    {x y : ℕ × Delivery Payload} (hx : x ∈ taken) (hy : y ∈ taken)
    (hsame : sameDelivery x.2 y.2 = true) : x = y := by
  by_contra hne
  have hsymm : Std.Symm fun x y : ℕ × Delivery Payload => sameDelivery x.2 y.2 = false :=
    ⟨fun _ _ hxy => (sameDelivery_comm _ _).trans hxy⟩
  rw [h.forall hx hy hne] at hsame
  cases hsame

namespace Server
variable {srv : Server Payload} {o o' : ℕ} {d : Delivery Payload} {event : Event Payload}

theorem origin_eq (hdistinct : Distinct srv.taken) (hd : (o, d) ∈ srv.taken) :
    srv.origin d = some o := by
  cases hfind : srv.taken.find? fun x => sameDelivery x.2 d with
  | none =>
    have := List.find?_eq_none.mp hfind (o, d) hd
    exact absurd (sameDelivery_self d) this
  | some x =>
    have hsame : sameDelivery x.2 d = true :=
      @List.find?_some _ (fun x => sameDelivery x.2 d) x _ hfind
    have hx := hdistinct.eq (List.mem_of_find?_eq_some hfind) hd hsame
    rw [origin, hfind, hx]
    rfl

theorem view_note (srv : Server Payload) (o : ℕ) (event : Event Payload) (o' : ℕ) :
    (srv.note o event).view o' =
      if o' = o then (srv.view o).noted event else srv.view o' := by
  split
  · next h =>
    subst h
    simp [view, note, View.noted]
  · next h => simp [view, note, h]

theorem view_publish (srv : Server Payload) (queue : String) (message : Message Payload)
    (o' : ℕ) : (srv.publish queue message).view o' =
      if o' = srv.published.length then
        { srv.view o' with ready := (srv.view o').ready ++ [⟨o', queue, message⟩] }
      else srv.view o' := by
  simp only [view, publish, List.filter_append]
  split
  · next h => simp [h]
  · next h => simp [Ne.symm h]

theorem view_expire {i : ℕ} {copy : Copy Payload} (hi : srv.retry[i]? = some copy)
    (hone : (srv.view copy.origin).retry.length = 1) (queue : String) (o' : ℕ) :
    (srv.expire i queue copy).view o' =
      if o' = copy.origin then (srv.view copy.origin).returned copy.origin queue copy.message
      else srv.view o' := by
  simp only [view, expire, note, List.filter_append]
  split
  · next h =>
    subst h
    have hnone := (filter_eraseIdx_of_pos hi (decide_eq_true rfl) hone).2
    simp [View.returned, View.noted, hnone]
  · next h =>
    have hsame := filter_eraseIdx_of_neg hi (p := fun c => decide (c.origin = o'))
      (decide_eq_false (Ne.symm h))
    simp [hsame, h, Ne.symm h]

section Taken
variable (hdistinct : Distinct srv.taken) (hd : (o, d) ∈ srv.taken)

include hdistinct hd

theorem observe_eq (event : Event Payload) : srv.observe d event = srv.note o event := by
  rw [observe, origin_eq hdistinct hd]

theorem schedule_eq (queue : String) (message : Message Payload) :
    srv.schedule d queue message =
      { srv.note o (.scheduled message.properties.expiration) with
        retry := srv.retry ++ [⟨o, queue, message⟩] } := by
  rw [schedule, origin_eq hdistinct hd]

theorem view_schedule (queue : String) (message : Message Payload) (o' : ℕ) :
    (srv.schedule d queue message).view o' =
      if o' = o then (srv.view o).scheduled o queue message else srv.view o' := by
  rw [schedule_eq hdistinct hd]
  simp only [view, note, List.filter_append]
  split
  · next h => simp [View.scheduled, View.noted, h]
  · next h => simp [h, Ne.symm h]

/-- The only copy of `o` that is out is settled, and none of another message. -/
theorem filter_settled (hone : (srv.view o).taken.length = 1) (o' : ℕ) :
    (srv.taken.filter fun x => !sameDelivery x.2 d).filter (·.1 = o') =
      if o' = o then [] else (srv.view o').taken := by
  rw [List.filter_filter]
  split
  · next h =>
    subst h
    obtain ⟨y, hy⟩ := List.length_eq_one_iff.mp hone
    rw [List.filter_eq_nil_iff]
    intro x hx hboth
    obtain ⟨hx', hd'⟩ : x ∈ (srv.view o').taken ∧ (o', d) ∈ (srv.view o').taken := by
      simp only [Bool.and_eq_true, decide_eq_true_eq] at hboth
      exact ⟨List.mem_filter.mpr ⟨hx, decide_eq_true hboth.1⟩,
        List.mem_filter.mpr ⟨hd, decide_eq_true rfl⟩⟩
    rw [hy, List.mem_singleton] at hx' hd'
    rw [hx', ← hd', sameDelivery_self] at hboth
    simp at hboth
  · next h =>
    refine List.filter_congr fun x hx => ?_
    cases hsame : sameDelivery x.2 d with
    | false => simp
    | true =>
      have hxd := hdistinct.eq hx hd hsame
      simp [hxd, Ne.symm h]

theorem view_settle (kind : SettlementKind) (hone : (srv.view o).taken.length = 1) (o' : ℕ) :
    (srv.settle kind d).view o' =
      if o' = o then (srv.view o).settled kind o d else srv.view o' := by
  have htaken := filter_settled hdistinct hd hone o'
  rw [settle, origin_eq hdistinct hd]
  cases kind with
  | ack =>
    simp only [view, note] at htaken ⊢
    rw [htaken]
    split
    · next h => simp [View.settled, View.noted, h]
    · next h => simp [h]
  | nack =>
    simp only [view, note, List.filter_append] at htaken ⊢
    rw [htaken]
    split
    · next h => simp [View.settled, View.noted, h]
    · next h => simp [h, Ne.symm h]

end Taken

end Server

/-! ## What the service has sent arrives -/

theorem settle_retries (s : State Payload) (kind : SettlementKind) (d : Delivery Payload) :
    (s.settle kind d).retries = s.retries := by
  unfold State.settle
  split <;> rfl

theorem receive_quiet {srv : Server Payload} {d : Delivery Payload} {s s' : State Payload}
    (hretries : s'.retries = s.retries) (hsettlements : s'.settlements = s.settlements) :
    srv.receive d s s' = srv := by
  simp only [Server.receive, hretries, hsettlements, List.drop_length, List.foldl_nil]

theorem receive_started {srv : Server Payload} {d d' : Delivery Payload} (s : State Payload)
    (th : Thread Payload) : srv.receive d s ((s.numbered d').spawn th) = srv := by
  have hretries : ((s.numbered d').spawn th).retries = s.retries := rfl
  have hsettlements : ((s.numbered d').spawn th).settlements = s.settlements := rfl
  exact receive_quiet hretries hsettlements

/-- The copies arrive, then the ack or nack. -/
theorem receive_settle {srv : Server Payload} {d : Delivery Payload} {kind : SettlementKind}
    {s s₁ : State Payload} {copies : List (String × Message Payload)}
    (hretries : s₁.retries = s.retries ++ copies) (hsettlements : s₁.settlements = s.settlements)
    (hlive : s₁.liveChannel = some d.channel) (hd : d ∈ (s₁.channels d.channel).unsettled)
    (hdistinct : (s₁.channels d.channel).unsettled.Pairwise (·.deliveryTag ≠ ·.deliveryTag)) :
    srv.receive d s (s₁.settle kind d) =
      (copies.foldl (fun srv copy => srv.schedule d copy.1 copy.2) srv).settle kind d := by
  rw [Server.receive, settle_retries, hretries, List.drop_left, settle_settlements hlive,
    hsettlements, List.drop_left, filter_tag hdistinct hd]
  rfl

/-- Execution `e` is done and has sent `copies`. -/
def afterHandler (s : State Payload) (e : ℕ) (copies : List (String × Message Payload)) : State Payload :=
  { s.setThread e .done with retries := s.retries ++ copies }

/-! ## What every step keeps -/

structure Kept (sys : System Payload) : Prop where
  deliveries : Deliveries sys.service
  own : SettlesOwn sys.service
  beyond : ∀ e, sys.service.nextThread ≤ e → sys.service.threads e = .done
  stands : ∀ o queue message, sys.server.published[o]? = some (queue, message) →
    ∃ k stage, Stage.Allowed message.content k stage ∧
      Standing (sys.server.view o) queue message.content k stage
  fresh : ∀ o, sys.server.published.length ≤ o → sys.server.view o = View.empty
  distinct : Distinct sys.server.taken
  handled : ∀ o d, (o, d) ∈ sys.server.taken → ∃ e, sys.service.threads e = .handle d
  taken : ∀ e d, sys.service.threads e = .handle d → ∃ o, (o, d) ∈ sys.server.taken

/-- Only payloads that parse are handled. -/
theorem allowed_handling {content : Content Payload} {k : ℕ}
    (h : Stage.Allowed content k .handling) :
    (∃ event, content = .json event) ∧ k ≤ maxRetryAttempts := by
  cases content with
  | malformed raw =>
    obtain ⟨-, hstage | hstage⟩ := h <;> cases hstage
  | json event => exact ⟨⟨event, rfl⟩, h.1⟩

theorem rounds_succ (content : Content Payload) (k : ℕ) :
    rounds content (k + 1) = rounds content k ++ round content k := by
  rw [rounds, List.range_succ, List.flatMap_append]
  simp [rounds]

theorem readRetryCount_retryMessage (message : Message Payload) (n delayMs : ℕ) :
    readRetryCount (retryMessage message n delayMs) = n := by
  simp [readRetryCount, retryMessage]

theorem readRetryCount_first {message : Message Payload}
    (h : message.properties.headers.lookup retryCountHeader = none) :
    readRetryCount message = 0 := by
  rw [readRetryCount, h]

/-- What is in a part of the view of a message belongs to it. -/
theorem Kept.of_mem {α : Type} {sys : System Payload} (hs : Kept sys) (part : View Payload → List α)
    (hnone : part View.empty = []) {o : ℕ} {x : α} (hx : x ∈ part (sys.server.view o)) :
    ∃ queue message k stage, sys.server.published[o]? = some (queue, message) ∧
      Stage.Allowed message.content k stage ∧
      Standing (sys.server.view o) queue message.content k stage := by
  have ho : o < sys.server.published.length := by
    refine Nat.lt_of_not_le fun hle => ?_
    rw [hs.fresh o hle, hnone] at hx
    cases hx
  have hget := List.getElem?_eq_getElem ho
  obtain ⟨k, stage, hallowed, hstanding⟩ := hs.stands o _ _ hget
  exact ⟨_, _, k, stage, hget, hallowed, hstanding⟩

section Step
variable {sys sys' : System Payload}

/-- Views change at one message, whose new view stands, and the service is as given. -/
theorem Kept.update {sys : System Payload} {s' : State Payload} {srv' : Server Payload}
    {o : ℕ} {v : View Payload} (hs : Kept sys) (hdeliveries : Deliveries s') (hown : SettlesOwn s')
    (hbeyond : ∀ e, s'.nextThread ≤ e → s'.threads e = .done)
    (hpublished : srv'.published = sys.server.published)
    (hviews : ∀ o', srv'.view o' = if o' = o then v else sys.server.view o')
    (hv : ∀ queue message, sys.server.published[o]? = some (queue, message) →
      ∃ k stage, Stage.Allowed message.content k stage ∧
        Standing v queue message.content k stage)
    (ho : o < sys.server.published.length) (hdistinct : Distinct srv'.taken)
    (hhandled : ∀ o d, (o, d) ∈ srv'.taken → ∃ e, s'.threads e = .handle d)
    (htaken : ∀ e d, s'.threads e = .handle d → ∃ o, (o, d) ∈ srv'.taken) :
    Kept ⟨s', srv'⟩ where
  deliveries := hdeliveries
  own := hown
  beyond := hbeyond
  stands := by
    intro o' queue message hget
    simp only [hpublished] at hget
    simp only [hviews]
    split
    · next h =>
      subst h
      exact hv queue message hget
    · exact hs.stands o' queue message hget
  fresh := by
    intro o' hle
    simp only [hpublished] at hle
    simp only [hviews]
    rw [if_neg (by omega)]
    exact hs.fresh o' hle
  distinct := hdistinct
  handled := hhandled
  taken := htaken

/-- A handler is done: its delivery `d` of message `o` is settled, after `copies` of it were sent
and `events` noted. -/
theorem Kept.ended {e : ℕ} {d : Delivery Payload} {o : ℕ} {srv' : Server Payload}
    {v : View Payload} (hs : Kept sys) (he : sys.service.threads e = .handle d)
    (hlive : sys.service.liveChannel = some d.channel) (kind : SettlementKind)
    (copies : List (String × Message Payload))
    (ho : o < sys.server.published.length) (hd : (o, d) ∈ sys.server.taken)
    (hpublished : srv'.published = sys.server.published)
    (htaken : srv'.taken = sys.server.taken.filter fun x => !sameDelivery x.2 d)
    (hviews : ∀ o', srv'.view o' = if o' = o then v else sys.server.view o')
    (hv : ∀ queue message, sys.server.published[o]? = some (queue, message) →
      ∃ k stage, Stage.Allowed message.content k stage ∧
        Standing v queue message.content k stage) :
    Kept ⟨(afterHandler sys.service e copies).settle kind d, srv'⟩ := by
  have hkeeps := ended_keeps kind (sys.service.retries ++ copies) hs.deliveries he
  have hsame := settle_threads (afterHandler sys.service e copies) kind d
  have hthreads : ∀ e', ((afterHandler sys.service e copies).settle kind d).threads e' =
      if e' = e then .done else sys.service.threads e' := by
    intro e'
    rw [hsame.2]
    simp only [afterHandler, State.setThread, Function.update_apply]
  have hgone : sys.service.goneOrOn d.channel = true := by
    simp [State.goneOrOn, hlive]
  refine hs.update hkeeps.1 ((hkeeps.2 hs.own).mpr hgone) (fun e' he' => ?_) hpublished hviews hv ho
    ?_ (fun o' d' hmem => ?_) (fun e' d' he' => ?_)
  · rw [hthreads]
    rw [hsame.1] at he'
    split
    · rfl
    · exact hs.beyond e' he'
  · rw [htaken]
    exact hs.distinct.filter _
  · rw [htaken, List.mem_filter] at hmem
    obtain ⟨hmem, hother⟩ := hmem
    obtain ⟨e', he'⟩ := hs.handled o' d' hmem
    refine ⟨e', ?_⟩
    rw [hthreads, if_neg ?_]
    · exact he'
    · rintro rfl
      have hdd : d' = d := Thread.handle.inj (he'.symm.trans he)
      rw [hdd, sameDelivery_self] at hother
      cases hother
  · rw [hthreads] at he'
    split at he'
    · cases he'
    · next hne =>
      obtain ⟨o', hmem⟩ := hs.taken e' d' he'
      refine ⟨o', ?_⟩
      rw [htaken, List.mem_filter]
      refine ⟨hmem, ?_⟩
      cases hsame' : sameDelivery d' d with
      | false => rfl
      | true =>
        have hdd : (o', d') = (o, d) := hs.distinct.eq hmem hd hsame'
        cases hdd
        exact absurd (hs.deliveries.once e' e d he' he) hne

/-- Message `o` is out with a handler as delivery `d`. -/
structure Handled (sys : System Payload) (d : Delivery Payload) (o : ℕ) (queue : String)
    (message : Message Payload) (k : ℕ) : Prop where
  mem : (o, d) ∈ sys.server.taken
  published : sys.server.published[o]? = some (queue, message)
  parses : ∃ event, message.content = .json event
  bound : k ≤ maxRetryAttempts
  standing : Standing (sys.server.view o) queue message.content k .handling
  one : (sys.server.view o).taken = [(o, d)]
  facts : d.queue = queue ∧ d.message.content = message.content ∧ readRetryCount d.message = k

theorem Kept.handling {e : ℕ} {d : Delivery Payload} (hs : Kept sys)
    (he : sys.service.threads e = .handle d) :
    ∃ o queue message k, Handled sys d o queue message k := by
  obtain ⟨o, hd⟩ := hs.taken e d he
  have hmem : (o, d) ∈ (sys.server.view o).taken := List.mem_filter.mpr ⟨hd, decide_eq_true rfl⟩
  obtain ⟨queue, message, k, stage, hget, hallowed, hstanding⟩ := hs.of_mem View.taken rfl hmem
  obtain ⟨rfl, hone, hfacts⟩ := singleton_of_mem hstanding.taken hmem
  obtain ⟨hparses, hbound⟩ := allowed_handling hallowed
  simp only [deliveryFacts, Prod.mk.injEq] at hfacts
  exact ⟨o, queue, message, k, hd, hget, hparses, hbound, hstanding, hone, hfacts⟩

section Handled
variable {d : Delivery Payload} {o : ℕ} {queue : String} {message : Message Payload} {k : ℕ}

/-- Stages that the message may go on to. -/
theorem Handled.allowed (h : Handled sys d o queue message k) {stage : Stage}
    (hstage : stage = .waiting → k < maxRetryAttempts) : Stage.Allowed message.content k stage := by
  obtain ⟨event, hjson⟩ := h.parses
  rw [hjson]
  exact ⟨h.bound, hstage⟩

/-- The message is dead-lettered, after `events`. -/
theorem Handled.deadLettered (h : Handled sys d o queue message k) {v : View Payload}
    (events : List (Event Payload))
    (hv : v = { sys.server.view o with history := (sys.server.view o).history ++ events })
    (hevents : Stage.tail message.content k .deadLettered =
      [.delivered k message.content] ++ events ++ [.deadLettered]) :
    Standing (v.settled .nack o d) queue message.content k .deadLettered := by
  obtain ⟨hhistory, hready, -, hretry, hdead⟩ := h.standing
  obtain ⟨hqueue, hcontent, hread⟩ := h.facts
  subst hv
  refine ⟨?_, hready, rfl, hretry, ?_⟩
  · rw [hevents]
    simp [View.settled, View.noted, hhistory, Stage.tail]
  · simp [View.settled, View.noted, List.map_eq_nil_iff.mp hdead, Copy.facts, hqueue, hcontent, hread]

end Handled

theorem published_lt {o : ℕ} {queue : String} {message : Message Payload}
    (h : sys.server.published[o]? = some (queue, message)) : o < sys.server.published.length :=
  (List.getElem?_eq_some_iff.mp h).1

/-- A handler is done: `srv₁` has noted what happened, and the delivery is settled. -/
theorem Kept.settles {e : ℕ} {d : Delivery Payload} {o : ℕ} {queue : String} {k : ℕ}
    {message : Message Payload} {srv srv₁ : Server Payload} {v : View Payload} (hs : Kept sys)
    (he : sys.service.threads e = .handle d) (hlive : sys.service.liveChannel = some d.channel)
    (kind : SettlementKind) (copies : List (String × Message Payload))
    (hhandled : Handled sys d o queue message k)
    (hsent : copies.foldl (fun srv copy => srv.schedule d copy.1 copy.2) srv = srv₁)
    (hpublished : srv₁.published = sys.server.published) (htaken : srv₁.taken = sys.server.taken)
    (hviews : ∀ o', srv₁.view o' = if o' = o then v else sys.server.view o')
    (stage : Stage) (hstage : stage = .waiting → k < maxRetryAttempts)
    (hstanding : Standing (v.settled kind o d) queue message.content k stage) :
    Kept ⟨(afterHandler sys.service e copies).settle kind d,
      srv.receive d sys.service ((afterHandler sys.service e copies).settle kind d)⟩ := by
  have hopen := (liveChannel_eq_some hlive).2
  have hmem := (hs.deliveries.pending e d he).mem_unsettled hs.own hopen
  have hreceive : srv.receive d sys.service ((afterHandler sys.service e copies).settle kind d) =
      srv₁.settle kind d := by
    have hretries : (afterHandler sys.service e copies).retries =
      sys.service.retries ++ copies := rfl
    have hsettlements : (afterHandler sys.service e copies).settlements =
      sys.service.settlements := rfl
    have hlive' : (afterHandler sys.service e copies).liveChannel = some d.channel := hlive
    rw [receive_settle hretries hsettlements hlive' hmem (hs.deliveries.distinct _), hsent]
  have hdistinct : Distinct srv₁.taken := htaken ▸ hs.distinct
  have hd₁ : (o, d) ∈ srv₁.taken := htaken ▸ hhandled.mem
  have hlength : (srv₁.view o).taken.length = 1 := by
    have hsame : (srv₁.view o).taken = (sys.server.view o).taken := by
      simp only [Server.view, htaken]
    rw [hsame, hhandled.one]
    rfl
  have hsettle : ∀ o', (srv₁.settle kind d).view o' =
      if o' = o then v.settled kind o d else sys.server.view o' :=
    changed_twice (·.settled kind o d) hviews
      (Server.view_settle hdistinct hd₁ kind hlength)
  rw [hreceive]
  refine hs.ended he hlive kind _ (published_lt hhandled.published) hhandled.mem ?_ ?_ hsettle
    fun queue' message' hget' => ?_
  · rw [Server.settle, Server.origin_eq hdistinct hd₁]
    cases kind <;> exact hpublished
  · rw [Server.settle, Server.origin_eq hdistinct hd₁]
    cases kind <;> simp only [Server.note, htaken]
  · cases hhandled.published.symm.trans hget'
    exact ⟨k, stage, hhandled.allowed hstage, hstanding⟩

/-- What a handler has done is noted for its message. -/
theorem Kept.observes (hs : Kept sys) {o : ℕ} {d : Delivery Payload}
    (hd : (o, d) ∈ sys.server.taken) (event : Event Payload) :
    (sys.server.observe d event).published = sys.server.published ∧
    (sys.server.observe d event).taken = sys.server.taken ∧
    ∀ o', (sys.server.observe d event).view o' =
      if o' = o then (sys.server.view o).noted event else sys.server.view o' := by
  rw [Server.observe_eq hs.distinct hd]
  exact ⟨rfl, rfl, Server.view_note _ _ _⟩

theorem Kept.succeeds {e : ℕ} {d : Delivery Payload} (hs : Kept sys)
    (he : sys.service.threads e = .handle d) (hlive : sys.service.liveChannel = some d.channel) :
    Kept ⟨(afterHandler sys.service e []).settle .ack d,
      (sys.server.observe d .succeeded).receive d sys.service
        ((afterHandler sys.service e []).settle .ack d)⟩ := by
  obtain ⟨o, queue, message, k, hhandled⟩ := hs.handling he
  obtain ⟨hpublished, htaken, hviews⟩ := hs.observes hhandled.mem .succeeded
  obtain ⟨hhistory, hready, -, hretry, hdead⟩ := hhandled.standing
  refine hs.settles he hlive .ack [] hhandled (List.foldl_nil ..) hpublished htaken hviews .acked
    (fun h => by cases h) ⟨?_, hready, rfl, hretry, hdead⟩
  simp [View.settled, View.noted, hhistory, Stage.tail]

/-- The last attempt has failed. -/
theorem Kept.exhausts {e : ℕ} {d : Delivery Payload} (hs : Kept sys)
    (he : sys.service.threads e = .handle d) (hlive : sys.service.liveChannel = some d.channel)
    (hcount : maxRetryAttempts ≤ readRetryCount d.message) :
    Kept ⟨(afterHandler sys.service e []).settle .nack d,
      (sys.server.observe d .failed).receive d sys.service
        ((afterHandler sys.service e []).settle .nack d)⟩ := by
  obtain ⟨o, queue, message, k, hhandled⟩ := hs.handling he
  obtain ⟨hpublished, htaken, hviews⟩ := hs.observes hhandled.mem .failed
  obtain ⟨event, hjson⟩ := hhandled.parses
  rw [hhandled.facts.2.2] at hcount
  have hstanding : Standing (((sys.server.view o).noted .failed).settled .nack o d) queue
      message.content k .deadLettered := by
    refine hhandled.deadLettered [.failed] rfl ?_
    rw [hjson, Stage.tail, if_neg (Nat.not_lt_of_le hcount)]
    rfl
  exact hs.settles he hlive .nack [] hhandled (List.foldl_nil ..) hpublished htaken hviews
    .deadLettered (fun h => by cases h) hstanding

/-- A copy for the next attempt is in the retry queue. -/
theorem Kept.schedules {e : ℕ} {d : Delivery Payload} (hs : Kept sys)
    (he : sys.service.threads e = .handle d) (hlive : sys.service.liveChannel = some d.channel)
    (hcount : readRetryCount d.message < maxRetryAttempts) {m : Message Payload}
    (hm : m = retryMessage d.message (readRetryCount d.message + 1)
      (retryDelayMs (readRetryCount d.message))) :
    Kept ⟨(afterHandler sys.service e [(d.queue ++ ".retry", m)]).settle .ack d,
      (sys.server.observe d .failed).receive d sys.service
        ((afterHandler sys.service e [(d.queue ++ ".retry", m)]).settle .ack d)⟩ := by
  obtain ⟨o, queue, message, k, hhandled⟩ := hs.handling he
  obtain ⟨hpublished, htaken, hviews⟩ := hs.observes hhandled.mem .failed
  obtain ⟨hhistory, hready, -, hretry, hdead⟩ := hhandled.standing
  obtain ⟨hqueue, hcontent, hread⟩ := hhandled.facts
  rw [hread] at hcount hm
  have hdistinct : Distinct (sys.server.observe d .failed).taken := htaken ▸ hs.distinct
  have hd' : (o, d) ∈ (sys.server.observe d .failed).taken := htaken ▸ hhandled.mem
  have hschedule := Server.schedule_eq hdistinct hd' (d.queue ++ ".retry") m
  have hviews' : ∀ o', ((sys.server.observe d .failed).schedule d (d.queue ++ ".retry") m).view o' =
      if o' = o then ((sys.server.view o).noted .failed).scheduled o (d.queue ++ ".retry") m
      else sys.server.view o' :=
    changed_twice (·.scheduled o (d.queue ++ ".retry") m) hviews
      (Server.view_schedule hdistinct hd' _ m)
  refine hs.settles he hlive .ack _ hhandled rfl ?_ ?_ hviews' .waiting (fun _ => hcount)
    ⟨?_, hready, rfl, ?_, hdead⟩
  · exact (congrArg Server.published hschedule).trans hpublished
  · exact (congrArg Server.taken hschedule).trans htaken
  · simp [View.settled, View.scheduled, View.noted, hhistory, Stage.tail, hm, retryMessage]
  · have hnone := List.map_eq_nil_iff.mp hretry
    have hnext : readRetryCount m = k + 1 := by
      rw [hm, readRetryCount_retryMessage]
    have hsame : m.content = message.content := by
      rw [hm, ← hcontent]
      rfl
    simp [View.settled, View.scheduled, View.noted, hnone, Copy.facts, hqueue, hnext, hsame]

/-- A copy could not be sent. -/
theorem Kept.unschedulable {e : ℕ} {d : Delivery Payload} (hs : Kept sys)
    (he : sys.service.threads e = .handle d) (hlive : sys.service.liveChannel = some d.channel)
    (hcount : readRetryCount d.message < maxRetryAttempts) :
    Kept ⟨(afterHandler sys.service e []).settle .nack d,
      ((sys.server.observe d .failed).observe d .unscheduled).receive d sys.service
        ((afterHandler sys.service e []).settle .nack d)⟩ := by
  obtain ⟨o, queue, message, k, hhandled⟩ := hs.handling he
  obtain ⟨hpublished, htaken, hviews⟩ := hs.observes hhandled.mem .failed
  obtain ⟨event, hjson⟩ := hhandled.parses
  rw [hhandled.facts.2.2] at hcount
  have hdistinct : Distinct (sys.server.observe d .failed).taken := htaken ▸ hs.distinct
  have hd' : (o, d) ∈ (sys.server.observe d .failed).taken := htaken ▸ hhandled.mem
  have hobserve := Server.observe_eq hdistinct hd' .unscheduled
  have hviews' : ∀ o', ((sys.server.observe d .failed).observe d .unscheduled).view o' =
      if o' = o then ((sys.server.view o).noted .failed).noted .unscheduled
      else sys.server.view o' := by
    rw [hobserve]
    exact changed_twice (·.noted .unscheduled) hviews (Server.view_note _ o .unscheduled)
  have hstanding : Standing ((((sys.server.view o).noted .failed).noted .unscheduled).settled .nack
      o d) queue message.content k .deadLettered := by
    refine hhandled.deadLettered [.failed, .unscheduled] (by simp [View.noted]) ?_
    rw [hjson, Stage.tail, if_pos hcount]
    rfl
  refine hs.settles he hlive .nack [] hhandled (List.foldl_nil ..) ?_ ?_ hviews' .deadLettered
    (fun h => by cases h) hstanding
  · rw [hobserve]
    exact hpublished
  · rw [hobserve]
    exact htaken

/-- A copy in a retry queue, and the state its message is in. -/
theorem Kept.at_retry {i : ℕ} {copy : Copy Payload} (hs : Kept sys)
    (hi : sys.server.retry[i]? = some copy) : ∃ queue message k,
      sys.server.published[copy.origin]? = some (queue, message) ∧
      Stage.Allowed message.content k .waiting ∧
      Standing (sys.server.view copy.origin) queue message.content k .waiting ∧
      (sys.server.view copy.origin).retry = [copy] ∧
      copy.facts = (queue ++ ".retry", message.content, k + 1) := by
  have hmem : copy ∈ (sys.server.view copy.origin).retry :=
    List.mem_filter.mpr ⟨List.mem_of_getElem? hi, decide_eq_true rfl⟩
  obtain ⟨queue, message, k, stage, hget, hallowed, hstanding⟩ := hs.of_mem View.retry rfl hmem
  obtain ⟨rfl, hone, hfacts⟩ := singleton_of_mem hstanding.retry hmem
  exact ⟨queue, message, k, hget, hallowed, hstanding, hone, hfacts⟩

theorem Kept.publish {queue : String} {message : Message Payload} (hs : Kept sys)
    (hfirst : message.properties.headers.lookup retryCountHeader = none) :
    Kept { sys with server := sys.server.publish queue message } := by
  have hviews := Server.view_publish sys.server queue message
  refine ⟨hs.deliveries, hs.own, hs.beyond, fun o queue' message' hget => ?_, fun o hle => ?_,
    hs.distinct, hs.handled, hs.taken⟩
  · simp only [hviews]
    simp only [Server.publish] at hget
    split
    · next h =>
      subst h
      rw [List.getElem?_concat_length] at hget
      cases hget
      have hread := readRetryCount_first hfirst
      rw [hs.fresh _ (Nat.le_refl _)]
      refine ⟨0, .ready, ?_, rfl, ?_, rfl, rfl, rfl⟩
      · unfold Stage.Allowed
        split
        · exact ⟨rfl, Or.inl rfl⟩
        · exact ⟨Nat.zero_le _, fun h => by cases h⟩
      · simp [View.empty, Copy.facts, hread]
    · next hne =>
      have ho : o < sys.server.published.length := by
        have := (List.getElem?_eq_some_iff.mp hget).1
        rw [List.length_append, List.length_singleton] at this
        omega
      rw [List.getElem?_append_left ho] at hget
      exact hs.stands o queue' message' hget
  · simp only [Server.publish, List.length_append, List.length_singleton] at hle
    simp only [hviews]
    rw [if_neg (by omega)]
    exact hs.fresh o (by omega)

theorem Kept.expire {i : ℕ} {queue : String} {copy : Copy Payload} (hs : Kept sys)
    (hi : sys.server.retry[i]? = some copy) (hqueue : copy.queue = queue ++ ".retry") :
    Kept { sys with server := sys.server.expire i queue copy } := by
  obtain ⟨queue', message, k, hget, hallowed, hstanding, hone, hfacts⟩ := hs.at_retry hi
  have hviews := Server.view_expire hi (by rw [hone]; rfl) queue
  simp only [Copy.facts, Prod.mk.injEq] at hfacts
  obtain ⟨hname, hcontent, hread⟩ := hfacts
  rw [hqueue] at hname
  obtain rfl : queue = queue' := String.append_left_inj ".retry" |>.mp hname
  obtain ⟨hhistory, hready, htaken, -, hdead⟩ := hstanding
  refine hs.update hs.deliveries hs.own hs.beyond rfl hviews (fun queue' message' hget' => ?_)
    (published_lt hget) hs.distinct hs.handled hs.taken
  cases hget.symm.trans hget'
  refine ⟨k + 1, .ready, ?_, ?_, ?_, htaken, rfl, hdead⟩
  · unfold Stage.Allowed at hallowed ⊢
    split at hallowed
    · obtain ⟨-, h | h⟩ := hallowed <;> cases h
    · exact ⟨hallowed.2 rfl, fun h => by cases h⟩
  · simp [View.returned, View.noted, hhistory, rounds_succ, round, Stage.tail]
  · have hnone := List.map_eq_nil_iff.mp hready
    have hnext : readRetryCount (expired copy.message queue) = k + 1 := hread
    have hsame : (expired copy.message queue).content = message.content := hcontent
    simp [View.returned, hnone, Copy.facts, hnext, hsame]

theorem deliver_eq {s s' : State Payload} {c consumer : ℕ} {queue : String}
    {message : Message Payload} (hconsumes : consumes s c consumer queue = true)
    (h : s.deliver c consumer message = some s') :
    let d := ⟨c, (s.channels c).delivered + 1, consumer, queue, message⟩
    (s.channels c).isOpen = true ∧ s' = (s.numbered d).handleMessage d := by
  unfold consumes at hconsumes
  unfold State.deliver at h
  split at hconsumes
  · next queue' hqueue =>
    simp only [hqueue] at h
    rw [of_decide_eq_true hconsumes] at h
    split at h
    · next hcan =>
      cases h
      exact ⟨hcan.1, rfl⟩
    · cases h
  · cases hconsumes

/-- A delivery with the next number is told apart from all that are out. -/
theorem Kept.new_delivery {d : Delivery Payload} (hs : Kept sys)
    (htag : d.deliveryTag = (sys.service.channels d.channel).delivered + 1) :
    ∀ x ∈ sys.server.taken, sameDelivery x.2 d = false := by
  rintro ⟨o, d'⟩ hx
  obtain ⟨e, he⟩ := hs.handled o d' hx
  have hle := (hs.deliveries.pending e d' he).deliveryTag
  refine Bool.eq_false_iff.mpr fun hsame => ?_
  simp only [sameDelivery, Bool.and_eq_true, decide_eq_true_eq] at hsame
  rw [hsame.1] at hle
  omega

theorem afterHandler_nil (s : State Payload) (e : ℕ) : afterHandler s e [] = s.setThread e .done := by
  simp only [afterHandler, State.setThread, List.append_nil]

/-- A handler has settled while its channel is open and current. -/
theorem Kept.handles {e : ℕ} {d : Delivery Payload} (hs : Kept sys)
    (he : sys.service.threads e = .handle d) (hlive : sys.service.liveChannel = some d.channel)
    (o : Outcome) :
    Kept ⟨(sys.service.setThread e .done).handlerSettled d o,
      (sys.server.observe d (Outcome.event o)).receive d sys.service
        ((sys.service.setThread e .done).handlerSettled d o)⟩ := by
  cases o with
  | ok =>
    have hsucceeds := hs.succeeds he hlive
    rw [afterHandler_nil] at hsucceeds
    exact hsucceeds
  | fails =>
    have hlive' : (sys.service.setThread e .done).liveChannel = some d.channel := hlive
    simp only [State.handlerSettled, State.scheduleRedelivery, hlive', Option.map_some]
    by_cases hcount : maxRetryAttempts ≤ readRetryCount d.message
    · rw [if_pos hcount]
      have hexhausts := hs.exhausts he hlive hcount
      rw [afterHandler_nil] at hexhausts
      exact hexhausts
    · rw [if_neg hcount]
      exact hs.schedules he hlive (Nat.lt_of_not_le hcount) rfl

/-- The service does something that concerns no delivery. -/
theorem Kept.quiet {l : Label Payload} {s' : State Payload} (hs : Kept sys)
    (hl : ¬ l.Settles sys.service) (h : step sys.service l = some s') : Kept ⟨s', sys.server⟩ := by
  have hquiet := step_quiet hl h
  have hkeeps := hquiet.keeps hs.deliveries
  refine ⟨hkeeps.1, (hkeeps.2 hs.own).mpr rfl, step_beyond h hs.beyond, hs.stands, hs.fresh,
    hs.distinct, fun o d hmem => ?_, fun e d he => hs.taken e d (hquiet.handles e d he)⟩
  obtain ⟨e, he⟩ := hs.handled o d hmem
  refine ⟨e, ?_⟩
  cases step_threads h with
  | runs e' o' next others =>
    refine (others e ?_).trans he
    rintro rfl
    exact hl ⟨d, he⟩
  | spawns th idle next threads =>
    have hstarted : e ≠ sys.service.nextThread := by
      rintro rfl
      rw [hs.beyond _ (Nat.le_refl _)] at he
      cases he
    rw [threads]
    exact (Function.update_of_ne hstarted _ _).trans he
  | rests idle next threads => exact (congrFun threads e).trans he

theorem endsOnLive_handle {s : State Payload} {e : ℕ} {d : Delivery Payload}
    (he : s.threads e = .handle d) (h : endsOnLive s e = true) :
    s.liveChannel = some d.channel := by
  simp only [endsOnLive, he] at h
  exact of_decide_eq_true h

theorem Kept.serves {l : Label Payload} (hs : Kept sys)
    (hstays : channelStays sys (.service l) = true) (h : serviceStep sys l = some sys') :
    Kept sys' := by
  have hother : ¬ l.Settles sys.service → ∀ {s'}, step sys.service l = some s' →
      sys' = ⟨s', sys.server⟩ → Kept sys' := fun hl s' hstep heq => heq ▸ hs.quiet hl hstep
  cases l with
  | deliver c consumer message => cases h
  | run e o =>
    obtain ⟨s', hstep, heq⟩ := Option.map_eq_some_iff.mp h
    cases he : sys.service.threads e with
    | handle d =>
      simp only [channelStays, Bool.and_eq_true] at hstays
      have hlive := endsOnLive_handle he hstays.1
      simp only [he] at heq
      simp only [step, advance, he, Option.some.injEq] at hstep
      rw [← heq, ← hstep]
      exact hs.handles he hlive o
    | _ =>
      simp only [he] at heq
      refine hother ?_ hstep heq.symm
      rintro ⟨d, hd⟩
      cases he.symm.trans hd
  | _ =>
    simp only [serviceStep] at h
    obtain ⟨s', hstep, heq⟩ := Option.map_eq_some_iff.mp h
    exact hother id hstep heq.symm

end Step

def Event.isDelivery : Event Payload → Bool
  | .delivered _ _ => true
  | _ => false

/-- How often the handler of a message was called, or its payload found not to parse. -/
def deliveries (history : List (Event Payload)) : ℕ := history.countP Event.isDelivery

end Bumpa.Broker.Redelivery
