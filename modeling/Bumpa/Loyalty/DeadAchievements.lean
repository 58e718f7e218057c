import Bumpa.Loyalty.AdminWrites
import Bumpa.Loyalty.DefaultConfig
import Bumpa.Loyalty.HandledPurchases
import Bumpa.Loyalty.RuleShape

/-! # Dead achievements

An achievement is dead if no purchases unlock it. What the API checks, the shape of a rule and that
the ids in it are stored, does not rule that out: a rule may mention its own achievement, a cycle
may be closed by later updates, `minRequired` may be larger than the list, a threshold larger than
the columns of the stats. `no_dead_achievements_iff`: no achievement is dead exactly if they can be
listed in an order in which each rule is attainable from those before it (`Buildable`).
-/
namespace Bumpa.Loyalty
open Bumpa.Relational Bumpa.Order Bumpa.Transition
set_option autoImplicit false

/-! ## The condition -/

mutual

/-- The thresholds are values of the columns of the stats, and each `ACHIEVEMENT_SET` requires no
more achievements than it lists earlier ones. -/
def AchievementRule.attainable (earlier : List String) : AchievementRule → Bool
  | .count value _ => decide (value ≤ (maxInteger : ℕ))
  | .sum value _ => decide (value ≤ (maxInteger : ℕ))
  | .achievementSet achievementIds minRequired =>
    decide (minRequired.getD achievementIds.length ≤
      (achievementIds.filter (· ∈ earlier)).length)
  | .combination rules => allAttainable earlier rules
  | .throwing _ => false

def allAttainable (earlier : List String) : List AchievementRule → Bool
  | [] => true
  | rule :: rules => rule.attainable earlier && allAttainable earlier rules

end

/-- Each id is that of an achievement whose rule is attainable from `earlier` and the ids before. -/
def Catalog.attainableInOrder (c : Catalog) : List String → List String → Bool
  | _, [] => true
  | earlier, id :: rest =>
    (c.achievements.row id).any (·.rule.attainable earlier) &&
      c.attainableInOrder (earlier ++ [id]) rest

def Catalog.Buildable (c : Catalog) : Prop :=
  ∃ order, c.attainableInOrder [] order = true ∧
    ∀ id achievement, c.achievements.row id = some achievement → id ∈ order

/-- After some purchases, `handlePurchaseCompleted` has unlocked the achievement for the user,
whoever it is. -/
def Catalog.Unlockable (c : Catalog) (id : String) : Prop :=
  ∀ (w : World) (userId : String), w.Fresh userId →
    ∃ payload correlationId eventIds w',
      PurchasesBy ⟨payload, correlationId, c.achievements.rows, c.badges.rows⟩ w userId eventIds ∧
        Processes ⟨payload, correlationId, c.achievements.rows, c.badges.rows⟩ w eventIds w' ∧
        id ∈ w'.db.achievementIds userId

/-! ## Attainable rules -/

mutual

theorem holds_iff_attainable {earlier : List String} : ∀ {rule : AchievementRule},
    rule.wellFormed = true →
      (Holds maxCounters (idSet earlier) rule ↔ rule.attainable earlier = true)
  | .count value operator, h => by
    rw [AchievementRule.wellFormed, Bool.and_eq_true] at h
    rw [Holds, compare, h.1, Bool.true_and, AchievementRule.attainable]
    rfl
  | .sum value operator, h => by
    rw [AchievementRule.wellFormed, Bool.and_eq_true] at h
    rw [Holds, compare, h.1, Bool.true_and, AchievementRule.attainable]
    rfl
  | .achievementSet achievementIds minRequired, _ => by
    rw [Holds, AchievementRule.attainable, decide_eq_true_eq]
    exact hasAtLeast_iff earlier achievementIds _
  | .combination rules, h => by
    rw [AchievementRule.wellFormed, Bool.and_eq_true] at h
    rw [Holds, AchievementRule.attainable]
    exact allHold_iff_attainable h.2
  | .throwing _, h => by cases h

theorem allHold_iff_attainable {earlier : List String} : ∀ {rules : List AchievementRule},
    allWellFormed rules = true →
      (AllHold maxCounters (idSet earlier) rules ↔ allAttainable earlier rules = true)
  | [], _ => iff_of_true trivial rfl
  | rule :: rules, h => by
    rw [allWellFormed, Bool.and_eq_true] at h
    rw [AllHold, allAttainable, Bool.and_eq_true]
    exact and_congr (holds_iff_attainable h.1) (allHold_iff_attainable h.2)

end

/-! ## One catalogue -/

/-- What the calls keep: ids are primary keys, and rules have the shape that is accepted. -/
structure Catalog.Shaped (c : Catalog) : Prop where
  achievements : c.achievements.keys.Nodup
  badges : c.badges.keys.Nodup
  rules : ∀ id achievement, c.achievements.row id = some achievement →
    achievement.rule.wellFormed = true

section Catalogue
variable {c : Catalog}

def Catalog.AllActive (c : Catalog) : Prop :=
  ∀ id achievement, c.achievements.row id = some achievement → achievement.active = true

/-- The rules that unlock, while all achievements are active. -/
def Catalog.rules (c : Catalog) : Set String →o Set String :=
  unlocks maxCounters (koboConfig "" c.achievements.rows c.badges.rows).activeAchievements

theorem mem_activeAchievements {cfg : Config} {achievement : AchievementConfig} :
    achievement ∈ cfg.activeAchievements ↔
      achievement ∈ cfg.achievements ∧ achievement.active = true := by
  rw [Config.activeAchievements, List.mem_insertionSort, List.mem_filter]

theorem mem_rules (hactive : c.AllActive) {unlocked : Set String} {id : String} :
    id ∈ c.rules unlocked ↔ ∃ achievement, c.achievements.row id = some achievement ∧
      Holds maxCounters unlocked achievement.rule := by
  rw [Catalog.rules, mem_unlocks]
  constructor
  · rintro ⟨achievement, hmem, rfl, hholds⟩
    exact ⟨achievement, Table.mem_rows.mp (mem_activeAchievements.mp hmem).1, hholds⟩
  · rintro ⟨achievement, hrow, hholds⟩
    have hid : achievement.id = id := c.achievements.key_eq hrow
    refine ⟨achievement, mem_activeAchievements.mpr ⟨Table.mem_rows.mpr ?_, hactive id _ hrow⟩, hid,
      hholds⟩
    rwa [hid]

theorem unlockable_iff (hc : c.Shaped) {id : String} :
    c.Unlockable id ↔ id ∈ saturation c.rules ∅ := by
  have hids := Table.rows_keys_nodup hc.achievements
  have hbadges := Table.rows_keys_nodup hc.badges
  constructor
  · intro h
    have hfresh : initial.world.Fresh "" := ⟨rfl, rfl⟩
    exact (exists_purchases_iff hids hbadges hfresh).mp (h _ _ hfresh)
  · intro h w userId hfresh
    exact (exists_purchases_iff hids hbadges hfresh).mpr h

theorem attainableInOrder_snoc (c : Catalog) (earlier order : List String) (id : String) :
    c.attainableInOrder earlier (order ++ [id]) = (c.attainableInOrder earlier order &&
      (c.achievements.row id).any (·.rule.attainable (earlier ++ order))) := by
  induction order generalizing earlier with
  | nil => simp [Catalog.attainableInOrder]
  | cons first rest ih =>
    rw [List.cons_append, Catalog.attainableInOrder, ih, Catalog.attainableInOrder, Bool.and_assoc,
      List.append_cons earlier first rest]

theorem attainable_iff (hc : c.Shaped) (hactive : c.AllActive) (order : List String) (id : String) :
    id ∈ c.rules (∅ ∪ {id' | id' ∈ order}) ↔
      (c.achievements.row id).any (·.rule.attainable order) = true := by
  rw [mem_rules hactive, Set.empty_union]
  constructor
  · rintro ⟨achievement, hrow, hholds⟩
    rw [hrow, Option.any_some]
    exact (holds_iff_attainable (hc.rules id achievement hrow)).mp hholds
  · intro hany
    cases hrow : c.achievements.row id with
    | none =>
      rw [hrow] at hany
      cases hany
    | some achievement =>
      rw [hrow, Option.any_some] at hany
      exact ⟨achievement, rfl, (holds_iff_attainable (hc.rules id achievement hrow)).mpr hany⟩

/-- Such an order is a derivation. -/
theorem derivation_iff (hc : c.Shaped) (hactive : c.AllActive) (order : List String) :
    Derivation c.rules ∅ order ↔ c.attainableInOrder [] order = true := by
  constructor
  · intro h
    induction h with
    | nil => rfl
    | snoc prev last ih =>
      rw [attainableInOrder_snoc, ih, Bool.true_and]
      exact (attainable_iff hc hactive _ _).mp last
  · intro h
    induction order using List.reverseRecOn with
    | nil => exact .nil
    | append_singleton order id ih =>
      rw [attainableInOrder_snoc, Bool.and_eq_true] at h
      exact .snoc (ih h.1) ((attainable_iff hc hactive _ _).mpr h.2)

/-- Every achievement can be unlocked exactly if there is such an order. -/
theorem all_unlockable_iff (hc : c.Shaped) (hactive : c.AllActive) :
    (∀ id achievement, c.achievements.row id = some achievement → c.Unlockable id) ↔
      c.Buildable := by
  have hstored : ∀ id, id ∈ {id | (c.achievements.row id).isSome = true} ↔
      ∃ achievement, c.achievements.row id = some achievement :=
    fun id => Option.isSome_iff_exists
  have hfinite : {id | (c.achievements.row id).isSome = true}.Finite := by
    refine (List.finite_toSet c.achievements.keys).subset fun id hid => ?_
    obtain ⟨achievement, hrow⟩ := (hstored id).mp hid
    exact c.achievements.mem_keys hrow
  have hderived : ∀ unlocked, c.rules unlocked ⊆ {id | (c.achievements.row id).isSome = true} := by
    intro unlocked id hid
    obtain ⟨achievement, hrow, _⟩ := (mem_rules hactive).mp hid
    exact (hstored id).mpr ⟨achievement, hrow⟩
  have hiff := subset_saturation_iff hfinite hderived
  simp only [derivation_iff hc hactive] at hiff
  constructor
  · intro hall
    obtain ⟨order, horder, hlists⟩ := hiff.mp fun id hid => by
      obtain ⟨achievement, hrow⟩ := (hstored id).mp hid
      exact (unlockable_iff hc).mp (hall id achievement hrow)
    exact ⟨order, horder, fun id achievement hrow => hlists id ((hstored id).mpr ⟨_, hrow⟩)⟩
  · rintro ⟨order, horder, hlists⟩ id achievement hrow
    have hsub := hiff.mpr ⟨order, horder, fun id hid => by
      obtain ⟨achievement, hrow⟩ := (hstored id).mp hid
      exact hlists id achievement hrow⟩
    exact (unlockable_iff hc).mpr (hsub ((hstored id).mpr ⟨achievement, hrow⟩))

end Catalogue

/-! ## The catalogues that are reached -/

/-- A rule in a body that passes `ValidateRuleShape`. -/
def Accepted (rule : AchievementRule) : Prop :=
  ∃ json, isValidAchievementRuleShape json = true ∧ ruleOf json = some rule

theorem Accepted.wellFormed {rule : AchievementRule} (h : Accepted rule) :
    rule.wellFormed = true := by
  obtain ⟨json, hvalid, hrule⟩ := h
  obtain ⟨rule', hrule', hwell⟩ := accepted_shape hvalid
  cases hrule.symm.trans hrule'
  exact hwell

namespace Admin

/-- Calls of `createAchievement` and `updateAchievement` with a body that is accepted. -/
inductive AcceptedCall : ConfigCall → Prop
  | createAchievement {dto : CreateAchievementConfigDto} (rule : Accepted dto.rule) :
      AcceptedCall (.createAchievement dto)
  | updateAchievement {id : String} {dto : UpdateAchievementConfigDto}
      (rule : ∀ rule ∈ dto.rule.toOption, Accepted rule) : AcceptedCall (.updateAchievement id dto)

def AcceptedLabel : Label → Prop
  | .submit call => AcceptedCall call
  | _ => True

def WellFormed (rule : AchievementRule) : Prop := rule.wellFormed = true

theorem AcceptedCall.satisfies {call : ConfigCall} (h : AcceptedCall call) :
    call.Satisfies WellFormed fun _ => True := by
  cases h with
  | createAchievement rule => exact rule.wellFormed
  | updateAchievement rule => exact fun r hr => (rule r hr).wellFormed

/-- Every rule that is stored or may be written is well formed, and ids are primary keys. -/
structure ShapeInvariant (s : State) : Prop where
  achievements : s.catalog.achievements.keys.Nodup
  badges : s.catalog.badges.keys.Nodup
  rows : s.catalog.Satisfies WellFormed fun _ => True
  threads : ∀ e, (s.threads e).Satisfies WellFormed fun _ => True
  calls : ∀ e call, s.threads e = .check call → AcceptedCall call

theorem ShapeInvariant.shaped {s : State} (h : ShapeInvariant s) : s.catalog.Shaped :=
  ⟨h.achievements, h.badges, h.rows.rules⟩

theorem Commits.keys_nodup {c c' : Catalog} {th : Thread} (h : Commits c c' th)
    (hachievements : c.achievements.keys.Nodup) (hbadges : c.badges.keys.Nodup) :
    c'.achievements.keys.Nodup ∧ c'.badges.keys.Nodup := by
  cases h with
  | nothing same =>
    rw [same]
    exact ⟨hachievements, hbadges⟩
  | achievements _ tables =>
    rw [tables]
    exact ⟨Table.foldl_put_keys_nodup hachievements, hbadges⟩
  | badges _ tables =>
    rw [tables]
    exact ⟨hachievements, Table.foldl_put_keys_nodup hbadges⟩

/-- An execution that has begun goes on. -/
theorem ShapeInvariant.continue {s : State} (hs : ShapeInvariant s) {e : ℕ} {c' : Catalog}
    {th' : Thread} (hcommits : Commits s.catalog c' (s.threads e))
    (hth' : th'.Satisfies WellFormed fun _ => True) (hnew : th'.isNew = false) :
    ShapeInvariant { s with catalog := c', threads := Function.update s.threads e th' } := by
  obtain ⟨hachievements, hbadges⟩ := hcommits.keys_nodup hs.achievements hs.badges
  refine ⟨hachievements, hbadges, hcommits.satisfies hs.rows (hs.threads e), ?_, ?_⟩
  · exact (Function.forall_update_iff s.threads fun _ th =>
      th.Satisfies WellFormed fun _ => True).mpr ⟨hth', fun e' _ => hs.threads e'⟩
  · refine (Function.forall_update_iff s.threads fun _ th =>
      ∀ call, th = .check call → AcceptedCall call).mpr ⟨fun call heq => ?_, fun e' _ => hs.calls e'⟩
    rw [heq] at hnew
    cases hnew

theorem step_shapeInvariant {s s' : State} {l : Label} (hl : AcceptedLabel l)
    (hs : ShapeInvariant s) (h : step s l = some s') : ShapeInvariant s' := by
  cases l with
  | submit call =>
    cases h
    refine ⟨hs.achievements, hs.badges, hs.rows, ?_, ?_⟩
    · exact (Function.forall_update_iff s.threads fun _ th =>
        th.Satisfies WellFormed fun _ => True).mpr ⟨trivial, fun e _ => hs.threads e⟩
    · refine (Function.forall_update_iff s.threads fun _ th =>
        ∀ call, th = .check call → AcceptedCall call).mpr ⟨fun call' heq => ?_, fun e _ => hs.calls e⟩
      cases heq
      exact hl
  | run e outcome =>
    obtain ⟨⟨c', th'⟩, hadvance, rfl⟩ := Option.map_eq_some_iff.mp h
    obtain ⟨hcommits, hth'⟩ := advance_satisfies hs.rows (hs.threads e)
      (fun call hcheck _ => (hs.calls e call hcheck).satisfies) hadvance
    exact hs.continue hcommits hth' (advance_isNew hadvance).2
  | crash e =>
    rw [step] at h
    split at h
    · cases h
      exact hs.continue (.nothing rfl) trivial rfl
    · cases h

theorem seeded_shapeInvariant : ShapeInvariant (initial seeded) where
  achievements := Table.foldl_put_keys_nodup List.nodup_nil
  badges := Table.foldl_put_keys_nodup List.nodup_nil
  rows := by
    refine ⟨fun id achievement hrow => ?_, fun _ _ _ => trivial⟩
    have hall : ∀ a ∈ DEFAULT_ACHIEVEMENTS, a.rule.wellFormed = true := by decide
    exact hall achievement (insertAll_mem hrow)
  threads := fun _ => trivial
  calls := fun _ _ h => by cases h

theorem reached_shaped {s : State} {tr : List (Move State Label)}
    (h : Run step (initial seeded) tr s) (hcalls : Guarded (fun _ l => AcceptedLabel l) tr) :
    s.catalog.Shaped :=
  (Run.guarded_invariant ShapeInvariant (fun _ _ _ => step_shapeInvariant) h hcalls
    seeded_shapeInvariant).1.shaped

/-- In every catalogue that is reached from the seeded one and has all achievements active: every
achievement can be unlocked if and only if they can be listed in an order in which each rule is
attainable from the ones before it. -/
theorem no_dead_achievements_iff {s : State} {tr : List (Move State Label)}
    (h : Run step (initial seeded) tr s) (hcalls : Guarded (fun _ l => AcceptedLabel l) tr)
    (hactive : s.catalog.AllActive) :
    (∀ id achievement, s.catalog.achievements.row id = some achievement →
      s.catalog.Unlockable id) ↔ s.catalog.Buildable :=
  all_unlockable_iff (reached_shaped h hcalls) hactive

/-! ## Two histories -/

def achievementSetJson (achievementIds : List String) : Json :=
  .object (.cons "type" (.string "ACHIEVEMENT_SET")
    (.cons "achievementIds" (.array (achievementIds.map .string)) .nil))

theorem singleton_accepted (id : String) : Accepted (.achievementSet [id] none) :=
  ⟨achievementSetJson [id], rfl, rfl⟩

theorem pair_accepted (first second : String) :
    Accepted (.achievementSet [first, second] none) :=
  ⟨achievementSetJson [first, second], rfl, rfl⟩

/-- A call from its submission to its COMMIT, alone. -/
def completely (e : ℕ) (call : ConfigCall) (statements : ℕ) : List Label :=
  .submit call :: List.replicate statements (.run e .ok)

theorem completely_accepted {e : ℕ} {call : ConfigCall} {statements : ℕ} (h : AcceptedCall call) :
    ∀ l ∈ completely e call statements, AcceptedLabel l := by
  intro l hl
  rcases List.mem_cons.mp hl with rfl | hrun
  · exact h
  · rw [List.eq_of_mem_replicate hrun]
    trivial

def championDto : CreateAchievementConfigDto :=
  ⟨"ach_champion", "Champion", "milestones", 1,
    .achievementSet ["ach_power_customer", "ach_big_spender"] none, .absent⟩

def isOrderedBy (order : List String) (c : Catalog) : Bool :=
  c.attainableInOrder [] order && c.achievements.keys.all (· ∈ order) &&
    c.achievements.rows.all (·.active)

theorem isOrderedBy_iff {order : List String} {c : Catalog} (h : isOrderedBy order c = true) :
    c.Buildable ∧ c.AllActive := by
  simp only [isOrderedBy, Bool.and_eq_true, List.all_eq_true, decide_eq_true_eq] at h
  obtain ⟨⟨horder, hkeys⟩, hactive⟩ := h
  refine ⟨⟨order, horder, fun id achievement hrow => hkeys id (c.achievements.mem_keys hrow)⟩,
    fun id achievement hrow => hactive achievement (Table.mem_rows.mpr ?_)⟩
  rwa [c.achievements.key_eq hrow]

/-- With another achievement on top of the seeded ones, all can be unlocked. -/
theorem no_dead_achievements_champion : ∃ tr s, Run step (initial seeded) tr s ∧
    (s.catalog.achievements.row "ach_champion").isSome = true ∧
    ∀ id achievement, s.catalog.achievements.row id = some achievement →
      s.catalog.Unlockable id := by
  have haccepted : AcceptedCall (.createAchievement championDto) :=
    .createAchievement (pair_accepted _ _)
  obtain ⟨tr, s, hrun, hcalls, hlast⟩ := exists_guarded_run_of_trace step (initial seeded)
    (completely 0 (.createAchievement championDto) 6) (completely_accepted haccepted)
    (fun s => (s.catalog.achievements.row "ach_champion").isSome &&
      isOrderedBy ["ach_first_purchase", "ach_5_purchases", "ach_10_purchases",
        "ach_big_spender", "ach_loyal_shopper", "ach_power_customer", "ach_champion"] s.catalog)
    (by decide)
  rw [Bool.and_eq_true] at hlast
  obtain ⟨hbuildable, hactive⟩ := isOrderedBy_iff hlast.2
  exact ⟨tr, s, hrun, hlast.1, (no_dead_achievements_iff hrun hcalls hactive).mpr hbuildable⟩

def listsOnly (id : String) : AchievementRule → Bool
  | .achievementSet achievementIds none => achievementIds = [id]
  | _ => false

theorem listsOnly_eq {id : String} {rule : AchievementRule} (h : listsOnly id rule = true) :
    rule = .achievementSet [id] none := by
  unfold listsOnly at h
  split at h
  · rw [of_decide_eq_true h]
  · cases h

/-- An achievement whose rule lists nothing but itself is dead. -/
theorem not_unlockable_of_self {c : Catalog} (hc : c.Shaped) (hactive : c.AllActive) {id : String}
    {achievement : AchievementConfig} (hrow : c.achievements.row id = some achievement)
    (hrule : listsOnly id achievement.rule = true) : ¬c.Unlockable id := by
  intro h
  have hbelow : saturation c.rules ∅ ≤ {id' | id' ≠ id} := by
    refine saturation_le (Set.empty_subset _) ?_
    rintro id' hid rfl
    obtain ⟨other, hother, hholds⟩ := (mem_rules hactive).mp hid
    cases hother.symm.trans hrow
    rw [listsOnly_eq hrule, Holds] at hholds
    obtain ⟨found, hsub, hmem, hle⟩ := hholds
    have hlength : 1 ≤ found.length := by simpa using hle
    obtain ⟨first, hfirst⟩ := List.exists_mem_of_length_pos hlength
    exact hmem first hfirst (List.mem_singleton.mp (hsub.subset hfirst))
  exact hbelow ((unlockable_iff hc).mp h) rfl

def selfDto : UpdateAchievementConfigDto :=
  ⟨.absent, .absent, .absent, .value (.achievementSet ["ach_first_purchase"] none), .absent⟩

/-- The first achievement can be made to require itself, and then none is left to begin with. -/
theorem dead_achievement_reachable : ¬∀ (tr : List (Move State Label)) (s : State),
    Run step (initial seeded) tr s → Guarded (fun _ l => AcceptedLabel l) tr →
    s.catalog.AllActive → ∀ id achievement, s.catalog.achievements.row id = some achievement →
      s.catalog.Unlockable id := by
  intro hall
  have haccepted : AcceptedCall (.updateAchievement "ach_first_purchase" selfDto) := by
    refine .updateAchievement fun rule hrule => ?_
    cases hrule
    exact singleton_accepted _
  obtain ⟨tr, s, hrun, hcalls, hlast⟩ := exists_guarded_run_of_trace step (initial seeded)
    (completely 0 (.updateAchievement "ach_first_purchase" selfDto) 5)
    (completely_accepted haccepted)
    (fun s => s.catalog.achievements.rows.all (·.active) &&
      (s.catalog.achievements.row "ach_first_purchase").any
        fun achievement => listsOnly "ach_first_purchase" achievement.rule) (by decide)
  rw [Bool.and_eq_true, List.all_eq_true] at hlast
  obtain ⟨hrows, hany⟩ := hlast
  have hactive : s.catalog.AllActive := fun id achievement hrow =>
    hrows achievement (Table.mem_rows.mpr (by rwa [s.catalog.achievements.key_eq hrow]))
  obtain ⟨achievement, hrow, hrule⟩ := (Option.any_eq_true _ _).mp hany
  exact not_unlockable_of_self (reached_shaped hrun hcalls) hactive hrow hrule
    (hall tr s hrun hcalls hactive _ _ hrow)

end Admin

end Bumpa.Loyalty
