import Bumpa.Cashback.HandledEvents
import Bumpa.Loyalty.BadgeConfigs
import Bumpa.Loyalty.BadgeEvents

/-! # The loyalty and the cashback service side by side

Operators change the badges, purchases are handled, and every `BadgeUnlocked` event that is committed
may be delivered to the cashback service at any time and again. What a service does on its own is
known from its own runs: `reaches_cashback` and `reaches_announced` say it of the moves that are its.

The badge table changes under the executions of the loyalty service. An execution selects the
badges (`Selects`) and later builds the events of the unlocks from what it holds (`Saves`);
`reaches_executes` says that a committed event tells of the badge as it was selected.
-/
namespace Bumpa.Rewards
open Bumpa.Events Bumpa.Relational Bumpa.Transition
open Loyalty (BadgeConfig BadgeTable OutboxEvent NamesUnique CreateBadgeConfigDto
  UpdateBadgeConfigDto announcement announcements)
set_option autoImplicit false

/-! ## The two services -/

/-- The rows of the badge table take the place of `loyalty.badges`. -/
structure Config where
  loyalty : Loyalty.Config
  cashback : Cashback.Config
  badges : BadgeTable
  namesUnique : NamesUnique badges
  ownSnapshots : loyalty.OwnSnapshots

structure State where
  badges : BadgeTable
  loyalty : Loyalty.State
  cashback : Cashback.State

inductive Label where
  | createBadge (dto : CreateBadgeConfigDto)
  | updateBadge (id : String) (dto : UpdateBadgeConfigDto)
  | loyalty (l : Loyalty.Label)
  | deliver (event : BadgeUnlockedEvent)
  | cashback (l : Cashback.Label)

def Config.loyaltyAt (cfg : Config) (badges : BadgeTable) : Loyalty.Config :=
  { cfg.loyalty with badges := badges.rows }

/-- The event is committed to the outbox of the loyalty service. -/
def State.published (s : State) (event : BadgeUnlockedEvent) : Bool :=
  s.loyalty.world.db.outbox.any fun row => row.payload = .badge event

def step (cfg : Config) (s : State) : Label → Option State
  | .createBadge dto =>
    some { s with
      badges := (Loyalty.createBadge cfg.loyalty.achievements s.badges dto).toOption.getD s.badges }
  | .updateBadge id dto =>
    some { s with
      badges :=
        (Loyalty.updateBadge cfg.loyalty.achievements s.badges id dto).toOption.getD s.badges }
  | .loyalty l =>
    (Loyalty.step (cfg.loyaltyAt s.badges) s.loyalty l).map fun loyalty =>
      { s with loyalty := loyalty }
  | .deliver event =>
    if s.published event then
      (Cashback.step cfg.cashback s.cashback (.badgeUnlocked event)).map fun cashback =>
        { s with cashback := cashback }
    else none
  | .cashback (.badgeUnlocked _) => none
  | .cashback l =>
    (Cashback.step cfg.cashback s.cashback l).map fun cashback => { s with cashback := cashback }

def initial (cfg : Config) : State := ⟨cfg.badges, Loyalty.initial, Cashback.initial⟩

abbrev Reaches (cfg : Config) (tr : List (Move State Label)) (s : State) : Prop :=
  Run (step cfg) (initial cfg) tr s

/-- The move as one of the loyalty service. -/
def loyaltyMove (x : Move State Label) : Option (Move Loyalty.State Loyalty.Label) :=
  match x.label with
  | .loyalty l => some ⟨x.source.loyalty, l, x.target.loyalty⟩
  | _ => none

theorem loyaltyMove_source {x : Move State Label} {y : Move Loyalty.State Loyalty.Label}
    (h : loyaltyMove x = some y) : y.source = x.source.loyalty := by
  unfold loyaltyMove at h
  split at h
  · rw [← Option.some.inj h]
  · cases h

/-- The move as one of the cashback service. -/
def cashbackMove (x : Move State Label) : Option (Move Cashback.State Cashback.Label) :=
  match x.label with
  | .deliver event => some ⟨x.source.cashback, .badgeUnlocked event, x.target.cashback⟩
  | .cashback l => some ⟨x.source.cashback, l, x.target.cashback⟩
  | _ => none

/-- What each kind of move changes. -/
inductive Moves (cfg : Config) (s s' : State) (l : Label) : Prop
  | admin (noLoyalty : loyaltyMove ⟨s, l, s'⟩ = none) (noCashback : cashbackMove ⟨s, l, s'⟩ = none)
      (loyalty : s'.loyalty = s.loyalty) (cashback : s'.cashback = s.cashback)
      (unique : NamesUnique s.badges → NamesUnique s'.badges)
  | loyalty (l' : Loyalty.Label) (label : l = .loyalty l')
      (noCashback : cashbackMove ⟨s, l, s'⟩ = none)
      (step : Loyalty.step (cfg.loyaltyAt s.badges) s.loyalty l' = some s'.loyalty)
      (cashback : s'.cashback = s.cashback) (badges : s'.badges = s.badges)
  | cashback (l' : Cashback.Label) (noLoyalty : loyaltyMove ⟨s, l, s'⟩ = none)
      (move : cashbackMove ⟨s, l, s'⟩ = some ⟨s.cashback, l', s'.cashback⟩)
      (step : Cashback.step cfg.cashback s.cashback l' = some s'.cashback)
      (published : ∀ event, l' = .badgeUnlocked event → s.published event = true)
      (loyalty : s'.loyalty = s.loyalty) (badges : s'.badges = s.badges)

theorem toOption_getD {ε α : Type} {r : Except ε α} {a b : α} (h : r.toOption.getD a = b) :
    b = a ∨ r = .ok b := by
  cases r with
  | error _ => exact Or.inl h.symm
  | ok _ => exact Or.inr (congrArg _ h)

theorem step_moves {cfg : Config} {s s' : State} {l : Label} (h : step cfg s l = some s') :
    Moves cfg s s' l := by
  cases l with
  | createBadge dto =>
    cases h
    refine .admin rfl rfl rfl rfl fun hunique => ?_
    rcases toOption_getD rfl with hsame | hok
    · rw [hsame]
      exact hunique
    · exact Loyalty.createBadge_namesUnique hunique hok
  | updateBadge id dto =>
    cases h
    refine .admin rfl rfl rfl rfl fun hunique => ?_
    rcases toOption_getD rfl with hsame | hok
    · rw [hsame]
      exact hunique
    · exact Loyalty.updateBadge_namesUnique hunique hok
  | loyalty l =>
    obtain ⟨_, hstep, rfl⟩ := Option.map_eq_some_iff.mp h
    exact .loyalty l rfl rfl hstep rfl rfl
  | deliver event =>
    simp only [step] at h
    split_ifs at h with hpublished
    obtain ⟨_, hstep, rfl⟩ := Option.map_eq_some_iff.mp h
    refine .cashback _ rfl rfl hstep (fun event' heq => ?_) rfl rfl
    rw [← Cashback.Label.badgeUnlocked.inj heq]
    exact hpublished
  | cashback l =>
    cases l with
    | badgeUnlocked event => cases h
    | _ =>
      simp only [step] at h
      obtain ⟨_, hstep, rfl⟩ := Option.map_eq_some_iff.mp h
      exact .cashback _ rfl rfl hstep (fun _ heq => by cases heq) rfl rfl

/-! ## The runs of each service -/

theorem reaches_cashback {cfg : Config} {tr : List (Move State Label)} {s : State}
    (h : Reaches cfg tr s) :
    Cashback.Reaches cfg.cashback (tr.filterMap cashbackMove) s.cashback := by
  refine Run.history (fun tr s => Cashback.Reaches cfg.cashback (tr.filterMap cashbackMove) s.cashback)
    Run.nil ?_ h
  intro tr s l s' _ hs hstep
  rw [filterMap_snoc]
  cases step_moves hstep with
  | admin _ noCashback _ cashback _ =>
    rw [noCashback, cashback, Option.toList_none, List.append_nil]
    exact hs
  | loyalty _ _ noCashback _ cashback _ =>
    rw [noCashback, cashback, Option.toList_none, List.append_nil]
    exact hs
  | cashback l' _ move step _ _ _ =>
    rw [move, Option.toList_some]
    exact hs.snoc step

/-- The badges are others at each step; what `Announced` says does not depend on them. -/
theorem reaches_announced {cfg : Config} {tr : List (Move State Label)} {s : State}
    (h : Reaches cfg tr s) : Loyalty.Announced (tr.filterMap loyaltyMove) s.loyalty := by
  refine Run.history (fun tr s => Loyalty.Announced (tr.filterMap loyaltyMove) s.loyalty) ?_ ?_ h
  · exact Loyalty.initial_announced
  intro tr s l s' _ hs hstep
  rw [filterMap_snoc]
  cases step_moves hstep with
  | admin noLoyalty _ loyalty _ _ =>
    rw [noLoyalty, loyalty, Option.toList_none, List.append_nil]
    exact hs
  | loyalty l' label _ step _ _ =>
    subst label
    exact Loyalty.step_announced hs step
  | cashback _ noLoyalty _ _ _ loyalty _ =>
    rw [noLoyalty, loyalty, Option.toList_none, List.append_nil]
    exact hs

/-- At any one time the names are unique; over time they are not. -/
theorem reaches_namesUnique {cfg : Config} {tr : List (Move State Label)} {s : State}
    (h : Reaches cfg tr s) : NamesUnique s.badges := by
  refine Run.invariant (fun s => NamesUnique s.badges) (fun s l s' hs hstep => ?_) h cfg.namesUnique
  cases step_moves hstep with
  | admin _ _ _ _ unique => exact unique hs
  | loyalty _ _ _ _ _ badges =>
    rw [badges]
    exact hs
  | cashback _ _ _ _ _ _ badges =>
    rw [badges]
    exact hs

theorem published_iff {s : State} {event : BadgeUnlockedEvent} :
    s.published event = true ↔ ∃ row ∈ s.loyalty.world.db.outbox, row.payload = .badge event := by
  simp [State.published]

theorem step_outbox {cfg : Config} {s s' : State} {l : Label} (h : step cfg s l = some s') :
    s.loyalty.world.db.outbox <+: s'.loyalty.world.db.outbox := by
  cases step_moves h with
  | admin _ _ loyalty _ _ => rw [loyalty]
  | loyalty l' _ _ step _ _ =>
    obtain ⟨_, _, _, ⟨_, _, _, hadv⟩ | ⟨hw, _, _⟩⟩ := Loyalty.step_cases step
    · exact Loyalty.advance_outbox_stays hadv
    · rw [hw]
  | cashback _ _ _ _ _ loyalty _ => rw [loyalty]

theorem step_published {cfg : Config} {s s' : State} {l : Label} (h : step cfg s l = some s')
    {event : BadgeUnlockedEvent} (hpub : s.published event = true) : s'.published event = true := by
  obtain ⟨row, hrow, hpayload⟩ := published_iff.mp hpub
  exact published_iff.mpr ⟨row, (step_outbox h).subset hrow, hpayload⟩

/-- What the broker delivers has been committed. -/
theorem delivered_published {cfg : Config} {tr : List (Move State Label)} {s : State}
    (h : Reaches cfg tr s) : ∀ event, Cashback.Delivered (tr.filterMap cashbackMove) event →
      s.published event = true := by
  refine Run.history (fun tr s => ∀ event, Cashback.Delivered (tr.filterMap cashbackMove) event →
    s.published event = true) (fun event hdel => ?_) ?_ h
  · obtain ⟨_, hx, _⟩ := hdel
    cases hx
  intro tr s l s' _ hs hstep event hdel
  refine step_published hstep ?_
  rw [filterMap_snoc] at hdel
  cases step_moves hstep with
  | admin _ noCashback _ _ _ =>
    rw [noCashback, Option.toList_none, List.append_nil] at hdel
    exact hs event hdel
  | loyalty _ _ noCashback _ _ _ =>
    rw [noCashback, Option.toList_none, List.append_nil] at hdel
    exact hs event hdel
  | cashback l' _ move _ published _ _ =>
    rw [move, Option.toList_some, Cashback.delivered_snoc] at hdel
    exact hdel.elim (hs event) (published event)

/-! ## The badge of an unlock -/

/-- The execution selects the active badges, and this is the row of one. -/
def Selects (tr : List (Move State Label)) (e : ℕ) (badge : BadgeConfig) : Prop :=
  ∃ x ∈ tr, x.label = .loyalty (.run e .ok) ∧
    (x.source.loyalty.threads e).selectsBadges = true ∧ x.source.badges.row badge.id = some badge

/-- The execution builds the event of the user's unlock from the badge it holds, for this outbox id. -/
def Saves (tr : List (Move State Label)) (e : ℕ) (id : ReadableId) (userId : String)
    (badge : BadgeConfig) : Prop :=
  ∃ x ∈ tr, x.label = .loyalty (.run e .ok) ∧ x.source.loyalty.world.nextId = id ∧
    ∃ event tx rest,
      x.source.loyalty.threads e = .transaction event tx (.saveBadgeEvent badge rest) ∧
        event.payload.userId = userId

/-- The event is committed, and the execution has built it for the user's unlock of the badge. -/
def State.announces (s : State) (tr : List (Move State Label)) (e : ℕ) (event : BadgeUnlockedEvent)
    (userId : String) (badge : BadgeConfig) : Prop :=
  ∃ row ∈ s.loyalty.world.db.outbox, row.payload = .badge event ∧ Saves tr e row.id userId badge

/-- A badge event says what it was built from, and that was the row of the badge. -/
def Tells (tr : List (Move State Label)) (row : OutboxEvent) : Prop :=
  ∀ event, row.payload = .badge event → ∃ e badge, Saves tr e row.id event.payload.user.id badge ∧
    Selects tr e badge ∧ event.eventId = row.id ∧ event.payload.badgeName = badge.name ∧
    event.payload.rewardAmountKobo = some badge.rewardAmountKobo

/-- What an execution has selected, and what it has written. -/
structure Executes (tr : List (Move State Label)) (e : ℕ) (th : Loyalty.Thread) : Prop where
  selected : ∀ badge ∈ th.heldBadges, Selects tr e badge
  own : ∀ event, th.event = some event → event.payload.user.id = event.payload.userId
  outbox : ∀ row ∈ th.outbox, Tells tr row

section Snoc
variable {tr : List (Move State Label)} {x : Move State Label}

theorem Selects.snoc {e : ℕ} {badge : BadgeConfig} (h : Selects tr e badge) :
    Selects (tr ++ [x]) e badge := by
  obtain ⟨y, hy, hselects⟩ := h
  exact ⟨y, List.mem_append_left _ hy, hselects⟩

theorem Saves.snoc {e : ℕ} {id : ReadableId} {userId : String} {badge : BadgeConfig}
    (h : Saves tr e id userId badge) : Saves (tr ++ [x]) e id userId badge := by
  obtain ⟨y, hy, hsaves⟩ := h
  exact ⟨y, List.mem_append_left _ hy, hsaves⟩

theorem Tells.snoc {row : OutboxEvent} (h : Tells tr row) : Tells (tr ++ [x]) row := by
  intro event hpayload
  obtain ⟨e, badge, hsaves, hselects, hsays⟩ := h event hpayload
  exact ⟨e, badge, hsaves.snoc, hselects.snoc, hsays⟩

theorem Executes.snoc {e : ℕ} {th : Loyalty.Thread} (h : Executes tr e th) :
    Executes (tr ++ [x]) e th :=
  ⟨fun badge hbadge => (h.selected badge hbadge).snoc, h.own, fun row hrow => (h.outbox row hrow).snoc⟩

end Snoc

theorem step_executes {cfg : Config} {tr : List (Move State Label)} {s s' : State} {e : ℕ}
    {o : Loyalty.Outcome} {th' : Loyalty.Thread}
    (hadv : Loyalty.advance (cfg.loyaltyAt s.badges) s.loyalty.world (s.loyalty.others e)
      (s.loyalty.threads e) o = some (s'.loyalty.world, th'))
    (h : Executes tr e (s.loyalty.threads e)) :
    Executes (tr ++ [⟨s, .loyalty (.run e o), s'⟩]) e th' := by
  refine ⟨fun badge hbadge => ?_, fun event hevent => h.own event (Loyalty.advance_event hadv hevent),
    fun row hrow => ?_⟩
  · rcases Loyalty.advance_heldBadges hadv hbadge with hheld | ⟨rfl, hselects, hrow⟩
    · exact (h.selected badge hheld).snoc
    · exact ⟨_, List.mem_append_right _ (.head _), rfl, hselects, Table.mem_rows.mp hrow⟩
  · rcases Loyalty.advance_outbox hadv hrow with hold | ⟨rfl, hid, hbuilt⟩
    · exact (h.outbox row hold).snoc
    · intro event hpayload
      obtain ⟨purchase, tx, badge, rest, hth, rfl⟩ := hbuilt event hpayload
      have hown := h.own purchase (by rw [hth]; rfl)
      have hselects := h.selected badge (by rw [hth]; exact .head _)
      refine ⟨e, badge, ?_, hselects.snoc, hid.symm, rfl, rfl⟩
      exact ⟨_, List.mem_append_right _ (.head _), rfl, hid.symm, purchase, tx, rest, hth, hown.symm⟩

theorem reaches_executes {cfg : Config} {tr : List (Move State Label)} {s : State}
    (h : Reaches cfg tr s) : (∀ e, Executes tr e (s.loyalty.threads e)) ∧
      ∀ row ∈ s.loyalty.world.db.outbox, Tells tr row := by
  refine Run.history (fun tr s => (∀ e, Executes tr e (s.loyalty.threads e)) ∧
    ∀ row ∈ s.loyalty.world.db.outbox, Tells tr row)
    ⟨fun e => ⟨List.forall_mem_nil _, (fun _ hnone => by cases hnone), List.forall_mem_nil _⟩,
      List.forall_mem_nil _⟩ ?_ h
  rintro tr s l s' _ ⟨hthreads, hrows⟩ hstep
  have hsame : s'.loyalty = s.loyalty →
      (∀ e, Executes (tr ++ [⟨s, l, s'⟩]) e (s'.loyalty.threads e)) ∧
        ∀ row ∈ s'.loyalty.world.db.outbox, Tells (tr ++ [⟨s, l, s'⟩]) row := by
    intro heq
    rw [heq]
    exact ⟨fun e => (hthreads e).snoc, fun row hrow => (hrows row hrow).snoc⟩
  cases step_moves hstep with
  | admin _ _ loyalty _ _ => exact hsame loyalty
  | cashback _ _ _ _ _ loyalty _ => exact hsame loyalty
  | loyalty l' label _ step _ _ =>
    subst label
    obtain ⟨e, th', hth, ⟨o, rfl, _, hadv⟩ | ⟨hw, _, hth'⟩⟩ := Loyalty.step_cases step
    · refine ⟨fun e' => ?_, fun row hrow => ?_⟩
      · rw [hth]
        split
        · next heq =>
          rw [heq]
          exact step_executes hadv (hthreads e)
        · exact (hthreads e').snoc
      · rcases Loyalty.advance_committed hadv hrow with hold | hown
        · exact (hrows row hold).snoc
        · exact ((hthreads e).outbox row hown).snoc
    · rw [hw]
      refine ⟨fun e' => ?_, fun row hrow => (hrows row hrow).snoc⟩
      rw [hth]
      split
      · rcases hth' with ⟨rfl, _⟩ | ⟨_, _, eventId, rfl⟩
        · exact ⟨List.forall_mem_nil _, (fun _ hnone => by cases hnone), List.forall_mem_nil _⟩
        · refine ⟨List.forall_mem_nil _, fun event hevent => ?_, List.forall_mem_nil _⟩
          obtain rfl := Option.some.inj hevent
          exact cfg.ownSnapshots eventId
      · exact (hthreads e').snoc

/-- An outbox id is drawn once. -/
theorem reaches_drawnOnce {cfg : Config} {tr : List (Move State Label)} {s : State}
    (h : Reaches cfg tr s) :
    ((announcements (tr.filterMap loyaltyMove)).map Prod.fst).Nodup := by
  refine Run.history (fun tr _ => ((announcements (tr.filterMap loyaltyMove)).map Prod.fst).Nodup)
    List.nodup_nil ?_ h
  intro tr s l s' hreach hs hstep
  rw [filterMap_snoc]
  cases hmove : loyaltyMove ⟨s, l, s'⟩ with
  | none =>
    rw [Option.toList_none, List.append_nil]
    exact hs
  | some x =>
    rw [Option.toList_some, Loyalty.announcements_snoc]
    cases hdraws : announcement x with
    | none =>
      rw [Option.toList_none, List.append_nil]
      exact hs
    | some a =>
      rw [Option.toList_some, List.map_append, List.map_singleton]
      refine List.nodup_append'.mpr ⟨hs, List.nodup_singleton _, ?_⟩
      rw [List.disjoint_singleton]
      intro hmem
      obtain ⟨old, hold, hid⟩ := List.mem_map.mp hmem
      have hlt := (reaches_announced hreach).drawn old hold
      rw [hid, Loyalty.announcement_id hdraws, loyaltyMove_source hmove] at hlt
      exact Nat.lt_irrefl _ hlt

theorem announcement_run (s s' : State) (e : ℕ) :
    (loyaltyMove ⟨s, .loyalty (.run e .ok), s'⟩).bind announcement =
      (s.loyalty.threads e).unannounced.map fun u => (s.loyalty.world.nextId, u) := rfl

/-- The move that saves the event draws the id. -/
theorem Saves.draws {e : ℕ} {id : ReadableId} {userId : String} {badge : BadgeConfig}
    {tr : List (Move State Label)} (h : Saves tr e id userId badge) :
    ∃ x ∈ tr, x.label = .loyalty (.run e .ok) ∧
      (loyaltyMove x).bind announcement = some (id, .badge userId badge.id) ∧
      (x.source.loyalty.threads e).heldBadges.head? = some badge := by
  obtain ⟨⟨source, label, target⟩, hx, hlabel, hid, event, tx, rest, hth, huser⟩ := h
  simp only at hlabel hid hth
  subst hlabel
  refine ⟨_, hx, rfl, ?_, by rw [hth]; rfl⟩
  rw [announcement_run, hth, hid, ← huser]
  rfl

/-- An outbox id is drawn for one unlock. -/
theorem saves_inj {cfg : Config} {tr : List (Move State Label)} {s : State} (h : Reaches cfg tr s)
    {e e' : ℕ} {id : ReadableId} {userId userId' : String} {badge badge' : BadgeConfig}
    (hsaves : Saves tr e id userId badge) (hsaves' : Saves tr e' id userId' badge') :
    e = e' ∧ userId = userId' ∧ badge = badge' := by
  obtain ⟨x, hx, hlabel, hdraws, hheld⟩ := hsaves.draws
  obtain ⟨x', hx', hlabel', hdraws', hheld'⟩ := hsaves'.draws
  have honce := reaches_drawnOnce h
  rw [announcements, List.filterMap_filterMap] at honce
  obtain rfl : x = x' := filterMap_inj honce hx hx' hdraws hdraws' rfl
  rw [hlabel] at hlabel'
  obtain rfl : e = e' := by simpa using hlabel'
  rw [hdraws] at hdraws'
  rw [hheld] at hheld'
  simp only [Option.some.injEq, Prod.mk.injEq, Loyalty.Unlock.badge.injEq, true_and] at hdraws'
  exact ⟨rfl, hdraws'.1, Option.some.inj hheld'⟩

/-- The row of a committed badge event announces the unlock it was saved for. -/
theorem unlock_eq {cfg : Config} {tr : List (Move State Label)} {s : State} (h : Reaches cfg tr s)
    {row : OutboxEvent} (hrow : row ∈ s.loyalty.world.db.outbox) {e : ℕ} {userId : String}
    {badge : BadgeConfig} (hsaves : Saves tr e row.id userId badge) :
    row.unlock (announcements (tr.filterMap loyaltyMove)) = some (.badge userId badge.id) := by
  obtain ⟨u, _, hu⟩ := List.mem_map.mp
    ((reaches_announced h).committed.mem_iff.mp (List.mem_map_of_mem hrow))
  obtain ⟨hlookup, _⟩ := Option.filter_eq_some_iff.mp hu.symm
  obtain ⟨_, _, hlist, _⟩ := List.lookup_eq_some_iff.mp hlookup
  have hannounced : (row.id, u) ∈ announcements (tr.filterMap loyaltyMove) := by
    rw [hlist]
    exact List.mem_append_right _ (.head _)
  obtain ⟨x, hx, _, hdraws, _⟩ := hsaves.draws
  have hdrawn : (row.id, Loyalty.Unlock.badge userId badge.id) ∈
      announcements (tr.filterMap loyaltyMove) := by
    rw [announcements, List.filterMap_filterMap]
    exact List.mem_filterMap.mpr ⟨x, hx, hdraws⟩
  have hpair := List.inj_on_of_nodup_map (reaches_drawnOnce h) hannounced hdrawn rfl
  rw [← hu, (Prod.mk.inj hpair).2]

/-- An unlock that is committed is announced by one row. -/
theorem committed_inj {cfg : Config} {tr : List (Move State Label)} {s : State}
    (h : Reaches cfg tr s) {row row' : OutboxEvent} (hrow : row ∈ s.loyalty.world.db.outbox)
    (hrow' : row' ∈ s.loyalty.world.db.outbox)
    (hunlock : row.unlock (announcements (tr.filterMap loyaltyMove)) =
      row'.unlock (announcements (tr.filterMap loyaltyMove))) : row = row' := by
  have hs := reaches_announced h
  have hdistinct := (List.nodup_append'.mp (hs.distinct 0)).1
  have hnodup := hs.committed.nodup_iff.mpr (hdistinct.map (Option.some_injective _))
  exact List.inj_on_of_nodup_map hnodup hrow hrow' hunlock

end Bumpa.Rewards
