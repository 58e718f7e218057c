import Bumpa.Loyalty.LoyaltyService
import Bumpa.Loyalty.RuleSemantics

/-! # The unlock loop of `handlePurchaseCompleted`

The do/while loop on its own, with the statements between two unlocks left out: `visit` is the body
of the `for` loop, `pass` one round over the configs, `doWhile` the loop itself with a bound on its
passes.

`unlock_loop_least`: the loop stops after at most one pass more than it unlocks achievements, and
the set it leaves is the least one that contains the initial set and is closed under the rules. So
neither the order of the configs nor a config whose rule throws has an influence on it.

`Finishes.next` and `Finishes.done` relate it to the statements: the loop of a transaction, resumed
after any of its saves, goes on to the same result.
-/
namespace Bumpa.Loyalty
open Bumpa.Order
set_option autoImplicit false

/-- The variables of the loop, and the configs it has saved an achievement for. -/
structure Unlocking where
  existingAchievementIds : List String
  brokenAchievementIds : List String
  unlockedInPass : Bool
  unlocked : List AchievementConfig

def Unlocking.start (existingAchievementIds : List String) : Unlocking :=
  ⟨existingAchievementIds, [], false, []⟩

def Counters.context (counters : Counters) (unlockedAchievementIds : List String) : RuleContext :=
  ⟨counters.purchaseCount, counters.totalSpendKobo, unlockedAchievementIds⟩

def visit (counters : Counters) (u : Unlocking) (config : AchievementConfig) : Unlocking :=
  if config.id ∈ u.existingAchievementIds ∨ config.id ∈ u.brokenAchievementIds then u
  else
    match evaluate (counters.context u.existingAchievementIds) config.rule with
    | .error _ => { u with brokenAchievementIds := config.id :: u.brokenAchievementIds }
    | .ok false => u
    | .ok true =>
      { u with
        existingAchievementIds := u.existingAchievementIds ++ [config.id]
        unlockedInPass := true
        unlocked := u.unlocked ++ [config] }

def pass (counters : Counters) (configs : List AchievementConfig) (u : Unlocking) : Unlocking :=
  configs.foldl (visit counters) { u with unlockedInPass := false }

/-- `do pass while (unlockedInPass)`: the number of passes and what they leave. -/
def doWhile (counters : Counters) (configs : List AchievementConfig) :
    ℕ → Unlocking → Option (ℕ × Unlocking)
  | 0, _ => none
  | fuel + 1, u =>
    let u' := pass counters configs u
    if u'.unlockedInPass then
      (doWhile counters configs fuel u').map fun r => (r.1 + 1, r.2)
    else some (1, u')

/-- Every config in the list whose rule evaluates to true under the set is in it. -/
def ClosedUnder (counters : Counters) (configs : List AchievementConfig) (ids : List String) :
    Prop :=
  ∀ config ∈ configs, evaluate (counters.context ids) config.rule = .ok true → config.id ∈ ids

/-- What the rules of the configs derive from a set of unlocked achievements. -/
def unlocks (counters : Counters) (configs : List AchievementConfig) : Set String →o Set String where
  toFun unlocked := {id | ∃ config ∈ configs, config.id = id ∧ Holds counters unlocked config.rule}
  monotone' := by
    rintro unlocked unlocked' h id ⟨config, hmem, hid, hholds⟩
    exact ⟨config, hmem, hid, hholds.mono ⟨Nat.le_refl _, Nat.le_refl _⟩ h⟩

theorem mem_unlocks {counters : Counters} {configs : List AchievementConfig}
    {unlocked : Set String} {id : String} : id ∈ unlocks counters configs unlocked ↔
      ∃ config ∈ configs, config.id = id ∧ Holds counters unlocked config.rule := Iff.rfl

def idSet (ids : List String) : Set String := {id | id ∈ ids}

theorem unlocks_mono {counters counters' : Counters} (h : counters ≤ counters')
    (configs : List AchievementConfig) : unlocks counters configs ≤ unlocks counters' configs := by
  rintro unlocked id ⟨config, hmem, hid, hholds⟩
  exact ⟨config, hmem, hid, hholds.mono h subset_rfl⟩

theorem closedUnder_iff {counters : Counters} {configs : List AchievementConfig}
    {ids : List String} :
    ClosedUnder counters configs ids ↔ unlocks counters configs (idSet ids) ≤ idSet ids := by
  constructor
  · rintro h id ⟨config, hmem, rfl, hholds⟩
    exact h config hmem ((evaluate_eq_true_iff _ _).mpr hholds)
  · intro h config hmem heval
    exact h ⟨config, hmem, rfl, (evaluate_eq_true_iff _ _).mp heval⟩

/-! ## One config, one pass -/

section Loop
variable {counters : Counters} {configs : List AchievementConfig} {initial : List String}
  {u : Unlocking}

/-- What the loop keeps: it has saved what it added to the set, only what the rules derive, and
what it remembers as broken holds under no circumstances. -/
structure Sound (counters : Counters) (configs : List AchievementConfig) (initial : List String)
    (u : Unlocking) : Prop where
  existing : u.existingAchievementIds = initial ++ u.unlocked.map (·.id)
  saved : ∀ config ∈ u.unlocked, config ∈ configs
  distinct : (u.unlocked.map (·.id)).Nodup
  new : ∀ config ∈ u.unlocked, config.id ∉ initial
  below : idSet u.existingAchievementIds ≤
    saturation (unlocks counters configs) (idSet initial)
  broken : ∀ config ∈ configs, config.id ∈ u.brokenAchievementIds →
    ∀ counters' unlocked, ¬ Holds counters' unlocked config.rule

theorem sound_start (counters : Counters) (configs : List AchievementConfig)
    (initial : List String) : Sound counters configs initial (.start initial) where
  existing := (List.append_nil initial).symm
  saved := fun _ h => absurd h List.not_mem_nil
  distinct := List.nodup_nil
  new := fun _ h => absurd h List.not_mem_nil
  below := le_saturation
  broken := fun _ _ h => absurd h List.not_mem_nil

theorem Sound.flag (hu : Sound counters configs initial u) (flag : Bool) :
    Sound counters configs initial { u with unlockedInPass := flag } :=
  ⟨hu.existing, hu.saved, hu.distinct, hu.new, hu.below, hu.broken⟩

theorem visit_sound (hids : (configs.map (·.id)).Nodup) {config : AchievementConfig}
    (hmem : config ∈ configs) (hu : Sound counters configs initial u) :
    Sound counters configs initial (visit counters u config) := by
  unfold visit
  split
  · exact hu
  · next hskip =>
    rw [not_or] at hskip
    split
    · next error heval =>
      refine ⟨hu.existing, hu.saved, hu.distinct, hu.new, hu.below, fun config' hmem' hid => ?_⟩
      rcases List.mem_cons.mp hid with heq | hold
      · rw [List.inj_on_of_nodup_map hids hmem' hmem heq]
        exact fun _ _ => not_holds_of_error heval
      · exact hu.broken config' hmem' hold
    · exact hu
    · next heval =>
      have hnew : config.id ∉ initial ∧ config.id ∉ u.unlocked.map (·.id) := by
        have hnot := hskip.1
        rw [hu.existing, List.mem_append, not_or] at hnot
        exact hnot
      refine ⟨?_, fun config' hmem' => ?_, ?_, fun config' hmem' => ?_, ?_, hu.broken⟩
      · rw [hu.existing, List.map_append, List.append_assoc]
        rfl
      · rcases List.mem_append.mp hmem' with hold | hlast
        · exact hu.saved config' hold
        · rw [List.mem_singleton.mp hlast]
          exact hmem
      · rw [List.map_append, List.map_singleton, ← List.concat_eq_append, List.nodup_concat]
        exact ⟨hnew.2, hu.distinct⟩
      · rcases List.mem_append.mp hmem' with hold | hlast
        · exact hu.new config' hold
        · rw [List.mem_singleton.mp hlast]
          exact hnew.1
      · intro id hid
        rcases List.mem_append.mp hid with hold | hlast
        · exact hu.below hold
        · rw [List.mem_singleton.mp hlast]
          exact step_le_saturation hu.below ⟨config, hmem, rfl, (evaluate_eq_true_iff _ _).mp heval⟩

theorem foldl_sound (hids : (configs.map (·.id)).Nodup) {rest : List AchievementConfig}
    (hrest : ∀ config ∈ rest, config ∈ configs) (hu : Sound counters configs initial u) :
    Sound counters configs initial (rest.foldl (visit counters) u) := by
  induction rest generalizing u with
  | nil => exact hu
  | cons config rest ih =>
    obtain ⟨hmem, hrest'⟩ := List.forall_mem_cons.mp hrest
    exact ih hrest' (visit_sound hids hmem hu)

theorem pass_sound (hids : (configs.map (·.id)).Nodup) (hu : Sound counters configs initial u) :
    Sound counters configs initial (pass counters configs u) :=
  foldl_sound hids (fun _ h => h) (hu.flag false)

/-- A visit unlocks its config, or leaves the set as it is. -/
theorem visit_cases (counters : Counters) (u : Unlocking) (config : AchievementConfig) :
    (visit counters u config).unlockedInPass = true ∧
        (visit counters u config).unlocked = u.unlocked ++ [config] ∨
      (visit counters u config).unlockedInPass = u.unlockedInPass ∧
        (visit counters u config).existingAchievementIds = u.existingAchievementIds ∧
        (visit counters u config).unlocked = u.unlocked := by
  unfold visit
  split
  · exact Or.inr ⟨rfl, rfl, rfl⟩
  · split
    · exact Or.inr ⟨rfl, rfl, rfl⟩
    · exact Or.inr ⟨rfl, rfl, rfl⟩
    · exact Or.inl ⟨rfl, rfl⟩

/-- A config that is visited without an effect on the flag is satisfied. -/
theorem visit_quiet (hu : Sound counters configs initial u) {config : AchievementConfig}
    (hmem : config ∈ configs) (hflag : (visit counters u config).unlockedInPass = false)
    (heval : evaluate (counters.context u.existingAchievementIds) config.rule = .ok true) :
    config.id ∈ u.existingAchievementIds := by
  unfold visit at hflag
  split at hflag
  · next hskip =>
    rcases hskip with hin | hbroken
    · exact hin
    · exact absurd ((evaluate_eq_true_iff _ _).mp heval) (hu.broken config hmem hbroken _ _)
  · rw [heval] at hflag
    cases hflag

theorem visit_keeps {config : AchievementConfig}
    (hflag : (visit counters u config).unlockedInPass = false) :
    u.unlockedInPass = false ∧
      (visit counters u config).existingAchievementIds = u.existingAchievementIds := by
  rcases visit_cases counters u config with ⟨htrue, _⟩ | ⟨hsame, hexisting, _⟩
  · rw [htrue] at hflag
    cases hflag
  · exact ⟨by rw [← hsame, hflag], hexisting⟩

/-- A round that unlocks nothing leaves the set, and all its configs are satisfied. -/
theorem foldl_quiet (hids : (configs.map (·.id)).Nodup) {rest : List AchievementConfig}
    (hrest : ∀ config ∈ rest, config ∈ configs) (hu : Sound counters configs initial u)
    (hflag : (rest.foldl (visit counters) u).unlockedInPass = false) :
    u.unlockedInPass = false ∧
      (rest.foldl (visit counters) u).existingAchievementIds = u.existingAchievementIds ∧
      ClosedUnder counters rest u.existingAchievementIds := by
  induction rest generalizing u with
  | nil => exact ⟨hflag, rfl, fun _ h => absurd h List.not_mem_nil⟩
  | cons config rest ih =>
    obtain ⟨hmem, hrest'⟩ := List.forall_mem_cons.mp hrest
    obtain ⟨hvisit, hexisting, hclosed⟩ := ih hrest' (visit_sound hids hmem hu) hflag
    obtain ⟨hbefore, hsame⟩ := visit_keeps hvisit
    rw [hsame] at hclosed
    refine ⟨hbefore, hexisting.trans hsame, List.forall_mem_cons.mpr ⟨?_, hclosed⟩⟩
    exact visit_quiet hu hmem hvisit

/-- A round adds to what is unlocked. -/
theorem foldl_adds (counters : Counters) (rest : List AchievementConfig) (u : Unlocking) :
    u.unlocked <+: (rest.foldl (visit counters) u).unlocked := by
  induction rest generalizing u with
  | nil => exact List.prefix_refl _
  | cons config rest ih =>
    have hrest := ih (visit counters u config)
    rcases visit_cases counters u config with ⟨_, hadded⟩ | ⟨_, _, hsame⟩
    · rw [hadded] at hrest
      exact (List.prefix_append _ _).trans hrest
    · rw [hsame] at hrest
      exact hrest

/-- A round that sets the flag adds something. -/
theorem foldl_grows {rest : List AchievementConfig} {u : Unlocking}
    (hbefore : u.unlockedInPass = false)
    (hafter : (rest.foldl (visit counters) u).unlockedInPass = true) :
    u.unlocked.length < (rest.foldl (visit counters) u).unlocked.length := by
  induction rest generalizing u with
  | nil =>
    rw [List.foldl_nil, hbefore] at hafter
    cases hafter
  | cons config rest ih =>
    rw [List.foldl_cons] at hafter ⊢
    rcases visit_cases counters u config with ⟨_, hadded⟩ | ⟨hflag, _, hsame⟩
    · have hle := (foldl_adds counters rest (visit counters u config)).length_le
      rw [hadded, List.length_append, List.length_singleton] at hle
      omega
    · have hlt := ih (by rw [hflag, hbefore]) hafter
      rwa [hsame] at hlt

theorem pass_grows (h : (pass counters configs u).unlockedInPass = true) :
    u.unlocked.length < (pass counters configs u).unlocked.length :=
  foldl_grows (u := { u with unlockedInPass := false }) rfl h

/-! ## The loop -/

theorem Sound.unlocked_le (hu : Sound counters configs initial u) :
    u.unlocked.length ≤ configs.length := by
  have hsub : u.unlocked.map (·.id) ⊆ configs.map (·.id) := by
    intro id hid
    obtain ⟨config, hmem, rfl⟩ := List.mem_map.mp hid
    exact List.mem_map_of_mem (hu.saved config hmem)
  have hle := hu.distinct.length_le_of_subset hsub
  rwa [List.length_map, List.length_map] at hle

/-- One pass, and either the loop goes on or that was the last one. -/
theorem doWhile_succ {fuel passes : ℕ} {u' : Unlocking}
    (h : doWhile counters configs (fuel + 1) u = some (passes, u')) :
    (∃ passes', (pass counters configs u).unlockedInPass = true ∧
        doWhile counters configs fuel (pass counters configs u) = some (passes', u') ∧
        passes = passes' + 1) ∨
      ((pass counters configs u).unlockedInPass = false ∧ pass counters configs u = u' ∧
        passes = 1) := by
  simp only [doWhile] at h
  split at h
  · next hflag =>
    obtain ⟨⟨passes', u''⟩, hrest, heq⟩ := Option.map_eq_some_iff.mp h
    obtain ⟨rfl, rfl⟩ := Prod.mk.inj heq
    exact Or.inl ⟨passes', hflag, hrest, rfl⟩
  · next hflag =>
    obtain ⟨rfl, rfl⟩ := Prod.mk.inj (Option.some.inj h)
    exact Or.inr ⟨Bool.eq_false_iff.mpr hflag, rfl, rfl⟩

/-- The induction over passes: what the loop leaves is sound and closed, and every pass but the
last has unlocked something. -/
theorem doWhile_spec (hids : (configs.map (·.id)).Nodup) {fuel passes : ℕ} {u' : Unlocking}
    (hu : Sound counters configs initial u)
    (h : doWhile counters configs fuel u = some (passes, u')) :
    Sound counters configs initial u' ∧ ClosedUnder counters configs u'.existingAchievementIds ∧
      passes + u.unlocked.length ≤ u'.unlocked.length + 1 := by
  induction fuel generalizing u passes with
  | zero => cases h
  | succ fuel ih =>
    have hpass := pass_sound hids hu
    rcases doWhile_succ h with ⟨passes', hflag, hrest, rfl⟩ | ⟨hflag, rfl, rfl⟩
    · obtain ⟨hsound, hclosed, hle⟩ := ih hpass hrest
      have hgrows := pass_grows hflag
      exact ⟨hsound, hclosed, by omega⟩
    · obtain ⟨_, hsame, hclosed⟩ := foldl_quiet hids (fun _ hmem => hmem) (hu.flag false) hflag
      have hgrows := (foldl_adds counters configs { u with unlockedInPass := false }).length_le
      refine ⟨hpass, ?_, ?_⟩
      · rw [pass, hsame]
        exact hclosed
      · simp only at hgrows
        rw [pass]
        omega

theorem doWhile_adds {fuel passes : ℕ} {u' : Unlocking}
    (h : doWhile counters configs fuel u = some (passes, u')) : u.unlocked <+: u'.unlocked := by
  induction fuel generalizing u passes with
  | zero => cases h
  | succ fuel ih =>
    have hpass := foldl_adds counters configs { u with unlockedInPass := false }
    rcases doWhile_succ h with ⟨passes', _, hrest, _⟩ | ⟨_, rfl, _⟩
    · exact hpass.trans (ih hrest)
    · exact hpass

/-- The configs bound the passes. -/
theorem doWhile_completes (hids : (configs.map (·.id)).Nodup) (fuel : ℕ)
    (hu : Sound counters configs initial u) (hfuel : configs.length < u.unlocked.length + fuel) :
    ∃ r, doWhile counters configs fuel u = some r := by
  induction fuel generalizing u with
  | zero =>
    have hle := hu.unlocked_le
    omega
  | succ fuel ih =>
    simp only [doWhile]
    split
    · next hflag =>
      have hgrows := pass_grows hflag
      obtain ⟨r, hr⟩ := ih (pass_sound hids hu) (by omega)
      exact ⟨_, by rw [hr, Option.map_some]⟩
    · exact ⟨_, rfl⟩

/-- A larger bound changes nothing. -/
theorem doWhile_more {fuel fuel' : ℕ} {r : ℕ × Unlocking} (hle : fuel ≤ fuel')
    (h : doWhile counters configs fuel u = some r) : doWhile counters configs fuel' u = some r := by
  induction fuel generalizing u fuel' r with
  | zero => cases h
  | succ fuel ih =>
    obtain ⟨fuel', rfl⟩ : ∃ n, fuel' = n + 1 := ⟨fuel' - 1, by omega⟩
    simp only [doWhile] at h ⊢
    split at h
    · next hflag =>
      obtain ⟨r', hr', rfl⟩ := Option.map_eq_some_iff.mp h
      rw [if_pos hflag, ih (by omega) hr', Option.map_some]
    · next hflag =>
      rw [if_neg hflag]
      exact h

end Loop

/-- What the loop of a purchase unlocks, in order. -/
def unlockAchievements (counters : Counters) (configs : List AchievementConfig)
    (existingAchievementIds : List String) : List AchievementConfig :=
  ((doWhile counters configs (configs.length + 1) (.start existingAchievementIds)).map
    (·.2.unlocked)).getD []

/-- The loop ends, with the bound or a larger one, and leaves the saturation of the initial set. -/
theorem doWhile_start (counters : Counters) {configs : List AchievementConfig}
    (hids : (configs.map (·.id)).Nodup) (initial : List String) :
    ∃ passes u, (∀ fuel, configs.length < fuel →
        doWhile counters configs fuel (.start initial) = some (passes, u)) ∧
      u.unlocked = unlockAchievements counters configs initial ∧
      Sound counters configs initial u ∧
      ClosedUnder counters configs u.existingAchievementIds ∧
      passes ≤ u.unlocked.length + 1 := by
  obtain ⟨⟨passes, u⟩, hr⟩ := doWhile_completes hids (configs.length + 1)
    (sound_start counters configs initial) (by simp [Unlocking.start])
  obtain ⟨hsound, hclosed, hle⟩ := doWhile_spec hids (sound_start counters configs initial) hr
  refine ⟨passes, u, fun fuel hfuel => doWhile_more hfuel hr, ?_, hsound, hclosed, hle⟩
  rw [unlockAchievements, hr, Option.map_some, Option.getD_some]

/-- What the loop unlocks is new, and each achievement once. -/
theorem unlockAchievements_new (counters : Counters) {configs : List AchievementConfig}
    (hids : (configs.map (·.id)).Nodup) (initial : List String) :
    ((unlockAchievements counters configs initial).map (·.id)).Nodup ∧
      ∀ id ∈ (unlockAchievements counters configs initial).map (·.id), id ∉ initial := by
  obtain ⟨passes, u, _, hunlocked, hsound, _⟩ := doWhile_start counters hids initial
  rw [← hunlocked, List.forall_mem_map]
  exact ⟨hsound.distinct, hsound.new⟩

/-- The set after the loop. -/
theorem unlockAchievements_saturation (counters : Counters) {configs : List AchievementConfig}
    (hids : (configs.map (·.id)).Nodup) (initial : List String) :
    idSet (initial ++ (unlockAchievements counters configs initial).map (·.id)) =
      saturation (unlocks counters configs) (idSet initial) := by
  obtain ⟨passes, u, _, hunlocked, hsound, hclosed, _⟩ := doWhile_start counters hids initial
  rw [← hunlocked, ← hsound.existing]
  refine eq_saturation (fun id hid => ?_) hsound.below (closedUnder_iff.mp hclosed)
  rw [hsound.existing]
  exact List.mem_append_left _ hid

/-! ## The result -/

/-- The loop ends after at most one pass more than it unlocks achievements. What it leaves is the
initial set with these, and the least set that contains the initial one and is closed under the
rules; another order of the configs leaves the same set, and so does the list without a config
whose rule throws. -/
theorem unlock_loop_least (counters : Counters) (configs : List AchievementConfig)
    (hids : (configs.map (·.id)).Nodup) (initial : List String) :
    ∃ passes u, (∀ fuel, configs.length < fuel →
        doWhile counters configs fuel (.start initial) = some (passes, u)) ∧
      passes ≤ u.unlocked.length + 1 ∧
      u.existingAchievementIds = initial ++ u.unlocked.map (·.id) ∧
      ClosedUnder counters configs u.existingAchievementIds ∧
      (∀ ids, initial ⊆ ids → ClosedUnder counters configs ids → u.existingAchievementIds ⊆ ids) ∧
      (∀ configs', configs'.Perm configs → ∀ id,
        id ∈ initial ++ (unlockAchievements counters configs' initial).map (·.id) ↔
          id ∈ u.existingAchievementIds) ∧
      ∀ broken ∈ configs, (∃ ids error,
          evaluate (counters.context ids) broken.rule = .error error) → ∀ id,
        id ∈ initial ++ (unlockAchievements counters (configs.filter (·.id ≠ broken.id))
            initial).map (·.id) ↔ id ∈ u.existingAchievementIds := by
  obtain ⟨passes, u, hrun, hunlocked, hsound, hclosed, hle⟩ :=
    doWhile_start counters hids initial
  have hset : idSet u.existingAchievementIds =
      saturation (unlocks counters configs) (idSet initial) := by
    rw [hsound.existing, hunlocked, unlockAchievements_saturation counters hids]
  -- two lists whose rules derive the same leave the same set
  have hsame : ∀ configs' : List AchievementConfig, (configs'.map (·.id)).Nodup →
      unlocks counters configs' = unlocks counters configs → ∀ id,
      id ∈ initial ++ (unlockAchievements counters configs' initial).map (·.id) ↔
        id ∈ u.existingAchievementIds := by
    intro configs' hids' heq id
    have hset' := unlockAchievements_saturation counters hids' initial
    rw [heq, ← hset] at hset'
    exact Set.ext_iff.mp hset' id
  refine ⟨passes, u, hrun, hle, hsound.existing, hclosed, fun ids hsub hclosed' => ?_,
    fun configs' hperm => hsame configs' ((hperm.map _).nodup_iff.mpr hids) ?_,
    fun broken _ hthrows => hsame _ (hids.sublist (List.filter_sublist.map _)) ?_⟩
  · have hinitial : idSet initial ≤ idSet ids := fun id hid => hsub hid
    have hbelow := saturation_le hinitial (closedUnder_iff.mp hclosed')
    rw [← hset] at hbelow
    exact fun id hid => hbelow hid
  · ext unlocked id
    simp only [mem_unlocks, hperm.mem_iff]
  · obtain ⟨ids, error, hthrows⟩ := hthrows
    ext unlocked id
    simp only [mem_unlocks, List.mem_filter, decide_eq_true_eq]
    constructor
    · rintro ⟨config, ⟨hmem, _⟩, hconfig⟩
      exact ⟨config, hmem, hconfig⟩
    · rintro ⟨config, hmem, hid, hholds⟩
      refine ⟨config, ⟨hmem, fun heq => ?_⟩, hid, hholds⟩
      rw [List.inj_on_of_nodup_map hids hmem ‹broken ∈ configs› heq] at hholds
      exact not_holds_of_error hthrows hholds

/-- The set is complete only in the second pass, and a rule that throws comes before the others. -/
def cascadeConfigs : List AchievementConfig :=
  [⟨"ach_broken", "Broken", "purchases", 1, .combination [.throwing "value", .count 1 "GTE"], true⟩,
    ⟨"ach_both", "Both", "purchases", 2, .achievementSet ["ach_first", "ach_broken"] (some 1), true⟩,
    ⟨"ach_first", "First", "purchases", 3, .count 1 "GTE", true⟩]

theorem unlock_loop_cascade : ∃ u, doWhile ⟨1, 5000⟩ cascadeConfigs 4 (.start []) = some (3, u) ∧
    u.existingAchievementIds = ["ach_first", "ach_both"] ∧
    ClosedUnder ⟨1, 5000⟩ cascadeConfigs u.existingAchievementIds := by
  obtain ⟨passes, u, hrun, _, hexisting, hclosed, _⟩ :=
    unlock_loop_least ⟨1, 5000⟩ cascadeConfigs (by decide) []
  have hresult : (doWhile ⟨1, 5000⟩ cascadeConfigs 4 (.start [])).map
      (fun r => (r.1, r.2.existingAchievementIds)) = some (3, ["ach_first", "ach_both"]) := by
    decide +kernel
  have hrun4 := hrun 4 (by decide)
  rw [hrun4, Option.map_some, Option.some.injEq, Prod.mk.injEq] at hresult
  obtain ⟨rfl, hids⟩ := hresult
  exact ⟨u, hrun4, hids, hclosed⟩

/-! ## The loop between two statements of a transaction -/

def UserStats.counters (stats : UserStats) : Counters := ⟨stats.purchaseCount, stats.totalSpendKobo⟩

namespace UnlockLoop

def unlocking (loop : UnlockLoop) (unlocked : List AchievementConfig) : Unlocking :=
  ⟨loop.existingAchievementIds, loop.brokenAchievementIds, loop.unlockedInPass, unlocked⟩

/-- The loop, which has saved `unlocked` so far, saves `result` in all. -/
def Finishes (loop : UnlockLoop) (unlocked result : List AchievementConfig) : Prop :=
  let u := loop.remaining.foldl (visit loop.stats.counters) (loop.unlocking unlocked)
  if u.unlockedInPass then
    ∃ fuel passes u', doWhile loop.stats.counters loop.configs fuel u = some (passes, u') ∧
      u'.unlocked = result
  else u.unlocked = result

variable {loop loop' : UnlockLoop} {config : AchievementConfig}
  {configs rest unlocked result : List AchievementConfig} {broken broken' : List String}

theorem counters_context (loop : UnlockLoop) :
    loop.stats.counters.context loop.existingAchievementIds = loop.context := rfl

/-- A scan that finds a config stops where the pass unlocks it. -/
theorem scan_some (flag : Bool) (unlocked : List AchievementConfig)
    (h : loop.scan configs broken = (some (config, rest), broken')) :
    configs.foldl (visit loop.stats.counters)
        ⟨loop.existingAchievementIds, broken, flag, unlocked⟩ =
      rest.foldl (visit loop.stats.counters)
        ⟨loop.existingAchievementIds ++ [config.id], broken', true, unlocked ++ [config]⟩ := by
  induction configs generalizing broken with
  | nil => cases h
  | cons first configs ih =>
    rw [scan] at h
    rw [List.foldl_cons, visit, counters_context]
    split at h
    · next hskip => rw [if_pos hskip, ih h]
    · next hskip =>
      rw [if_neg hskip]
      cases heval : evaluate loop.context first.rule with
      | error error =>
        rw [heval] at h
        exact ih h
      | ok value =>
        rw [heval] at h
        cases value with
        | false => exact ih h
        | true =>
          obtain ⟨hfound, rfl⟩ := Prod.mk.inj h
          obtain ⟨rfl, rfl⟩ := Prod.mk.inj (Option.some.inj hfound)
          rfl

/-- A scan that finds none is a pass that unlocks nothing. -/
theorem scan_none (flag : Bool) (unlocked : List AchievementConfig)
    (h : loop.scan configs broken = (none, broken')) :
    configs.foldl (visit loop.stats.counters)
        ⟨loop.existingAchievementIds, broken, flag, unlocked⟩ =
      ⟨loop.existingAchievementIds, broken', flag, unlocked⟩ := by
  induction configs generalizing broken with
  | nil =>
    rw [scan, Prod.mk.injEq] at h
    rw [List.foldl_nil, h.2]
  | cons first configs ih =>
    rw [scan] at h
    rw [List.foldl_cons, visit, counters_context]
    split at h
    · next hskip => rw [if_pos hskip, ih h]
    · next hskip =>
      rw [if_neg hskip]
      cases heval : evaluate loop.context first.rule with
      | error error =>
        rw [heval] at h
        exact ih h
      | ok value =>
        rw [heval] at h
        cases value with
        | false => exact ih h
        | true => cases h

/-- After a save the loop goes on to the same result. -/
theorem Finishes.next (hf : loop.Finishes unlocked result)
    (h : loop.next = some (config, loop')) :
    (loop'.unlocked config).Finishes (unlocked ++ [config]) result := by
  rw [Finishes, unlocking] at hf
  rw [UnlockLoop.next] at h
  split at h
  · next hscan =>
    rw [scan_some loop.unlockedInPass unlocked hscan] at hf
    obtain ⟨rfl, rfl⟩ := Prod.mk.inj (Option.some.inj h)
    exact hf
  · next hscan =>
    rw [scan_none loop.unlockedInPass unlocked hscan] at hf
    split at h
    · next hflag =>
      -- the pass is over, and the next one finds the config
      split at h
      · next hscan' =>
        obtain ⟨rfl, rfl⟩ := Prod.mk.inj (Option.some.inj h)
        rw [if_pos hflag] at hf
        obtain ⟨fuel, passes, u', hrun, hresult⟩ := hf
        cases fuel with
        | zero => cases hrun
        | succ fuel =>
          have hpass := scan_some false unlocked hscan'
          rcases doWhile_succ hrun with ⟨passes', hmore, hrest, _⟩ | ⟨hlast, rfl, _⟩
          · rw [pass, hpass] at hmore hrest
            exact (if_pos hmore).mpr ⟨fuel, passes', u', hrest, hresult⟩
          · rw [pass, hpass] at hlast hresult
            exact (if_neg (Bool.eq_false_iff.mp hlast)).mpr hresult
      · cases h
    · cases h

theorem Finishes.adds (hf : loop.Finishes unlocked result) : unlocked <+: result := by
  rw [Finishes, unlocking] at hf
  have hpass := foldl_adds loop.stats.counters loop.remaining
    ⟨loop.existingAchievementIds, loop.brokenAchievementIds, loop.unlockedInPass, unlocked⟩
  split at hf
  · obtain ⟨fuel, passes, u', hrun, rfl⟩ := hf
    exact hpass.trans (doWhile_adds hrun)
  · rw [← hf]
    exact hpass

theorem Finishes.done (hf : loop.Finishes unlocked result) (h : loop.next = none) :
    unlocked = result := by
  rw [Finishes, unlocking] at hf
  rw [UnlockLoop.next] at h
  split at h
  · cases h
  · next hscan =>
    rw [scan_none loop.unlockedInPass unlocked hscan] at hf
    split at h
    · next hflag =>
      split at h
      · cases h
      · next hscan' =>
        rw [if_pos hflag] at hf
        obtain ⟨fuel, passes, u', hrun, hresult⟩ := hf
        cases fuel with
        | zero => cases hrun
        | succ fuel =>
          have hpass := scan_none false unlocked hscan'
          rcases doWhile_succ hrun with ⟨passes', hmore, _⟩ | ⟨_, rfl, _⟩
          · rw [pass, hpass] at hmore
            cases hmore
          · rw [pass, hpass] at hresult
            exact hresult
    · next hflag =>
      rw [if_neg hflag] at hf
      exact hf

/-- The loop as a transaction enters it. -/
theorem finishes_start {configs : List AchievementConfig} (hids : (configs.map (·.id)).Nodup)
    (stats : UserStats) (existing : List String) :
    (UnlockLoop.mk stats configs configs false existing []).Finishes []
      (unlockAchievements stats.counters configs existing) := by
  obtain ⟨passes, u, hrun, hunlocked, _⟩ :=
    doWhile_start stats.counters hids existing
  rw [Finishes, unlocking]
  rcases doWhile_succ (hrun (configs.length + 1) (Nat.lt_succ_self _)) with
    ⟨passes', hmore, hrest, _⟩ | ⟨hlast, rfl, _⟩
  · exact (if_pos hmore).mpr ⟨_, passes', u, hrest, hunlocked⟩
  · exact (if_neg (Bool.eq_false_iff.mp hlast)).mpr hunlocked

end UnlockLoop

end Bumpa.Loyalty
