import Mathlib.Data.List.Basic
import Mathlib.Data.List.Induction
import Mathlib.Data.List.Pairwise

/-! # Runs of a labelled step function

A system is a partial step function `step : σ → ℓ → Option σ`: in state `s` the label `l` is
enabled when `step s l` is a state, and the environment picks the label.

* `Run step s tr t`: the transitions `tr`, in order, lead from `s` to `t`.
* `Guarded G tr`: every transition of `tr` was taken in a state and under a label that satisfy `G`.
* `Run.invariant`, `Run.guarded_invariant`: what one step keeps, a whole run keeps.
* `Run.invariant_iff`: what exactly the guarded steps keep holds all along exactly the guarded runs.
* `Run.history`: the same for properties of the moves so far; `Run.guarded_prefix_iff` for what
  exactly the guarded steps keep.
* `Run.countP_add_le`: transitions that each pay a unit of a potential are at most its first value.
* `filterMap_snoc`, `filterMap_inj`: what the transitions of a history draw, one after another.
* `appears p tr`: some transition makes `p` true, `Run.appears_iff`.
* `followed p q tr`: some transition with `p` has a later one with `q`.
* `Consecutive p y x tr`: `x` is the first transition with `p` after `y`, which has it too, and
  `Latest p y tr`: `y` is the last one so far.
* `trace`: the executable counterpart, and `exists_run_of_trace`, which turns an evaluated schedule
  into a run.
-/
namespace Bumpa.Transition
set_option autoImplicit false

universe u v

/-- One executed step: the state before, the label, the state after. -/
structure Move (σ : Type u) (ℓ : Type v) where
  source : σ
  label : ℓ
  target : σ

variable {σ : Type u} {ℓ : Type v} {step : σ → ℓ → Option σ}

/-- The transitions `tr`, in order, lead from `s` to the last argument. -/
inductive Run (step : σ → ℓ → Option σ) (s : σ) : List (Move σ ℓ) → σ → Prop
  | nil : Run step s [] s
  | snoc {tr : List (Move σ ℓ)} {t u : σ} {l : ℓ} (prev : Run step s tr t)
      (last : step t l = some u) : Run step s (tr ++ [⟨t, l, u⟩]) u

/-- Every transition was taken in a state and under a label that satisfy `G`. -/
def Guarded (G : σ → ℓ → Prop) (tr : List (Move σ ℓ)) : Prop :=
  ∀ x ∈ tr, G x.source x.label

theorem guarded_true (tr : List (Move σ ℓ)) : Guarded (fun _ _ => True) tr :=
  fun _ _ => trivial

theorem guarded_snoc {G : σ → ℓ → Prop} {tr : List (Move σ ℓ)} {x : Move σ ℓ} :
    Guarded G (tr ++ [x]) ↔ Guarded G tr ∧ G x.source x.label := by
  simp only [Guarded, List.mem_append, List.mem_singleton]
  constructor
  · intro h
    exact ⟨fun y hy => h y (Or.inl hy), h x (Or.inr rfl)⟩
  · rintro ⟨htr, hx⟩ y (hy | rfl)
    · exact htr y hy
    · exact hx

theorem guarded_of_all {g : σ → ℓ → Bool} {tr : List (Move σ ℓ)}
    (h : (tr.all fun x => g x.source x.label) = true) : Guarded (fun s l => g s l = true) tr :=
  List.all_eq_true.mp h

/-! ## Composing runs -/

theorem Run.single {s t : σ} {l : ℓ} (h : step s l = some t) : Run step s [⟨s, l, t⟩] t :=
  Run.snoc Run.nil h

theorem Run.trans {s t u : σ} {tr tr' : List (Move σ ℓ)} (h : Run step s tr t)
    (h' : Run step t tr' u) : Run step s (tr ++ tr') u := by
  induction h' with
  | nil => simpa using h
  | snoc _ last ih =>
    rw [← List.append_assoc]
    exact Run.snoc ih last

/-- Every transition of a run is a step. -/
theorem Run.step_of_mem {s t : σ} {tr : List (Move σ ℓ)} (h : Run step s tr t) :
    ∀ x ∈ tr, step x.source x.label = some x.target := by
  induction h with
  | nil => simp
  | snoc _ last ih =>
    intro x hx
    rcases List.mem_append.mp hx with hx | hx
    · exact ih x hx
    · rw [List.mem_singleton.mp hx]
      exact last

/-- A transition starts where the run does or where an earlier one has ended. -/
theorem Run.source_mem {s t : σ} {tr : List (Move σ ℓ)} (h : Run step s tr t) :
    t ∈ s :: tr.map (·.target) ∧ ∀ x ∈ tr, x.source ∈ s :: tr.map (·.target) := by
  induction h with
  | nil => exact ⟨.head _, List.forall_mem_nil _⟩
  | snoc _ last ih =>
    obtain ⟨hend, hsources⟩ := ih
    rw [List.map_append, ← List.cons_append]
    refine ⟨List.mem_append_right _ (.head _), fun x hx => List.mem_append_left _ ?_⟩
    rcases List.mem_append.mp hx with hx | hx
    · exact hsources x hx
    · rw [List.mem_singleton.mp hx]
      exact hend

/-! ## What a step keeps, a run keeps -/

/-- The induction over a run: a property of the state that every guarded step keeps holds at its
end and at both ends of each of its transitions. -/
theorem Run.guarded_invariant {G : σ → ℓ → Prop} (I : σ → Prop)
    (hstep : ∀ s l t, G s l → I s → step s l = some t → I t)
    {s t : σ} {tr : List (Move σ ℓ)} (h : Run step s tr t) (hG : Guarded G tr) (hs : I s) :
    I t ∧ ∀ x ∈ tr, I x.source ∧ I x.target := by
  induction h with
  | nil => exact ⟨hs, by simp⟩
  | snoc _ last ih =>
    obtain ⟨htr, hlast⟩ := guarded_snoc.mp hG
    obtain ⟨hI, hall⟩ := ih htr
    have hu := hstep _ _ _ hlast hI last
    refine ⟨hu, fun x hx => ?_⟩
    rcases List.mem_append.mp hx with hx | hx
    · exact hall x hx
    · rw [List.mem_singleton.mp hx]
      exact ⟨hI, hu⟩

theorem Run.invariant_all (I : σ → Prop) (hstep : ∀ s l t, I s → step s l = some t → I t)
    {s t : σ} {tr : List (Move σ ℓ)} (h : Run step s tr t) (hs : I s) :
    I t ∧ ∀ x ∈ tr, I x.source ∧ I x.target :=
  have hall : ∀ s l t, (fun _ _ => True : σ → ℓ → Prop) s l → I s → step s l = some t → I t :=
    fun s l t _ => hstep s l t
  Run.guarded_invariant I hall h (guarded_true tr) hs

theorem Run.invariant (I : σ → Prop) (hstep : ∀ s l t, I s → step s l = some t → I t)
    {s t : σ} {tr : List (Move σ ℓ)} (h : Run step s tr t) (hs : I s) : I t :=
  (Run.invariant_all I hstep h hs).1

/-- A property that a step keeps exactly if it is guarded holds after every transition exactly if
all of them are; `J` is what every step keeps. -/
theorem Run.invariant_iff {G : σ → ℓ → Prop} (J I : σ → Prop)
    (hJ : ∀ s l t, J s → step s l = some t → J t)
    (hstep : ∀ s l t, J s → I s → step s l = some t → (I t ↔ G s l))
    {s t : σ} {tr : List (Move σ ℓ)} (h : Run step s tr t) (hJs : J s) (hIs : I s) :
    (∀ x ∈ tr, I x.target) ↔ Guarded G tr := by
  have hboth : ((∀ x ∈ tr, I x.target) ↔ Guarded G tr) ∧ (Guarded G tr → I t) := by
    induction h with
    | nil => exact ⟨⟨fun _ => List.forall_mem_nil _, fun _ => List.forall_mem_nil _⟩, fun _ => hIs⟩
    | snoc prev last ih =>
      obtain ⟨hiff, hend⟩ := ih
      have hlast := fun hg => hstep _ _ _ (prev.invariant J hJ hJs) (hend hg) last
      refine ⟨⟨fun hall => ?_, fun hg x hx => ?_⟩, fun hg => ?_⟩
      · have hg := hiff.mp fun x hx => hall x (List.mem_append_left _ hx)
        exact guarded_snoc.mpr ⟨hg, (hlast hg).mp (hall _ (List.mem_append_right _ (.head _)))⟩
      · obtain ⟨hg, hx'⟩ := guarded_snoc.mp hg
        rcases List.mem_append.mp hx with hx | hx
        · exact hiff.mpr hg x hx
        · rw [List.mem_singleton.mp hx]
          exact (hlast hg).mpr hx'
      · obtain ⟨hg, hx'⟩ := guarded_snoc.mp hg
        exact (hlast hg).mpr hx'
  exact hboth.1

/-- A potential that every guarded step keeps or lowers, and that the steps counted by `p` lower
by one, bounds how many of them a run has. -/
theorem Run.countP_add_le {G : σ → ℓ → Prop} (p : Move σ ℓ → Bool) (Φ : σ → ℕ)
    (hstep : ∀ s l t, G s l → step s l = some t →
      Φ t + (if p ⟨s, l, t⟩ then 1 else 0) ≤ Φ s)
    {s t : σ} {tr : List (Move σ ℓ)} (h : Run step s tr t) (hG : Guarded G tr) :
    tr.countP p + Φ t ≤ Φ s := by
  induction h with
  | nil => simp
  | snoc _ last ih =>
    obtain ⟨htr, hlast⟩ := guarded_snoc.mp hG
    have hprev := ih htr
    have hcost := hstep _ _ _ hlast last
    rw [List.countP_append, List.countP_singleton]
    simp only at hcost
    omega

/-! ## What a step keeps, every history keeps -/

/-- The moves determine where a run ends. -/
theorem Run.target_unique {s t t' : σ} {tr : List (Move σ ℓ)} (h : Run step s tr t)
    (h' : Run step s tr t') : t = t' := by
  generalize htr : tr = tr' at h'
  cases h with
  | nil =>
    cases h' with
    | nil => rfl
    | snoc _ _ => exact absurd htr.symm (List.append_ne_nil_of_right_ne_nil _ (by simp))
  | snoc _ _ =>
    cases h' with
    | nil => exact absurd htr (List.append_ne_nil_of_right_ne_nil _ (by simp))
    | snoc _ _ =>
      obtain ⟨_, hlast⟩ := List.append_inj' htr rfl
      exact congrArg Move.target (List.singleton_inj.mp hlast)

/-- The induction over a run for a property of the moves so far and the state they lead to. -/
theorem Run.guarded_history {G : σ → ℓ → Prop} {s : σ} (J : List (Move σ ℓ) → σ → Prop)
    (hinit : J [] s)
    (hstep : ∀ tr t l u, Run step s tr t → G t l → J tr t → step t l = some u →
      J (tr ++ [⟨t, l, u⟩]) u)
    {t : σ} {tr : List (Move σ ℓ)} (h : Run step s tr t) (hG : Guarded G tr) : J tr t := by
  induction h with
  | nil => exact hinit
  | snoc prev last ih =>
    obtain ⟨htr, hlast⟩ := guarded_snoc.mp hG
    exact hstep _ _ _ _ prev hlast (ih htr) last

theorem Run.history {s : σ} (J : List (Move σ ℓ) → σ → Prop) (hinit : J [] s)
    (hstep : ∀ tr t l u, Run step s tr t → J tr t → step t l = some u →
      J (tr ++ [⟨t, l, u⟩]) u)
    {t : σ} {tr : List (Move σ ℓ)} (h : Run step s tr t) : J tr t :=
  Run.guarded_history J hinit (fun tr t l u hrun _ => hstep tr t l u hrun) h (guarded_true tr)

theorem countP_snoc {α : Type*} (p : α → Bool) (tr : List α) (x : α) :
    (tr ++ [x]).countP p = tr.countP p + (p x).toNat := by
  rw [List.countP_append, List.countP_singleton]
  cases p x <;> rfl

theorem filterMap_snoc {α β : Type*} (f : α → Option β) (tr : List α) (x : α) :
    (tr ++ [x]).filterMap f = tr.filterMap f ++ (f x).toList := by
  rw [List.filterMap_append]
  cases h : f x with
  | none => rw [List.filterMap_cons_none h]; rfl
  | some y => rw [List.filterMap_cons_some h]; rfl

/-- Two transitions with one key are one, if no key occurs twice. -/
theorem filterMap_inj {α β γ : Type*} {f : α → Option β} {key : β → γ} {tr : List α}
    (h : ((tr.filterMap f).map key).Nodup) {x x' : α} (hx : x ∈ tr) (hx' : x' ∈ tr) {y y' : β}
    (hy : f x = some y) (hy' : f x' = some y') (hkey : key y = key y') : x = x' := by
  rw [List.Nodup, List.pairwise_map, List.pairwise_filterMap] at h
  have hsymm : Std.Symm fun a a' => ∀ b, f a = some b → ∀ b', f a' = some b' → key b ≠ key b' :=
    ⟨fun a a' haa b hb b' hb' => (haa b' hb' b hb).symm⟩
  by_contra hne
  exact h.forall hx hx' hne y hy y' hy' hkey

/-- A property of histories that a step within `D` keeps exactly if it is guarded holds of every
beginning of a run within `D` exactly if the whole run is guarded. -/
theorem Run.guarded_prefix_iff {D G : σ → ℓ → Prop} {s : σ} (P : List (Move σ ℓ) → σ → Prop)
    (hinit : P [] s)
    (hstep : ∀ tr t l u, Run step s tr t → D t l → P tr t → step t l = some u →
      (P (tr ++ [⟨t, l, u⟩]) u ↔ G t l))
    {t : σ} {tr : List (Move σ ℓ)} (h : Run step s tr t) (hD : Guarded D tr) :
    (∀ tr' t', Run step s tr' t' → tr' <+: tr → P tr' t') ↔ Guarded G tr := by
  induction h with
  | nil =>
    refine ⟨fun _ => List.forall_mem_nil _, fun _ tr' t' h' hprefix => ?_⟩
    have hnil : tr' = [] := List.prefix_nil.mp hprefix
    subst hnil
    rw [h'.target_unique Run.nil]
    exact hinit
  | snoc prev last ih =>
    obtain ⟨htr, hl⟩ := guarded_snoc.mp hD
    rw [guarded_snoc, ← ih htr]
    constructor
    · intro hall
      have hbefore := fun tr' t' h' hp => hall tr' t' h' (List.IsPrefix.trans hp
        (List.prefix_append _ _))
      have hend := hall _ _ (Run.snoc prev last) (List.prefix_refl _)
      exact ⟨hbefore, (hstep _ _ _ _ prev hl (hbefore _ _ prev (List.prefix_refl _)) last).mp hend⟩
    · rintro ⟨hbefore, hlast⟩ tr' t' h' hprefix
      rcases List.prefix_concat_iff.mp hprefix with rfl | hp
      · rw [h'.target_unique (Run.snoc prev last)]
        exact (hstep _ _ _ _ prev hl (hbefore _ _ prev (List.prefix_refl _)) last).mpr hlast
      · exact hbefore tr' t' h' hp

theorem Run.prefix_iff {G : σ → ℓ → Prop} {s : σ} (P : List (Move σ ℓ) → σ → Prop)
    (hinit : P [] s)
    (hstep : ∀ tr t l u, Run step s tr t → P tr t → step t l = some u →
      (P (tr ++ [⟨t, l, u⟩]) u ↔ G t l))
    {t : σ} {tr : List (Move σ ℓ)} (h : Run step s tr t) :
    (∀ tr' t', Run step s tr' t' → tr' <+: tr → P tr' t') ↔ Guarded G tr :=
  Run.guarded_prefix_iff P hinit (fun tr t l u hrun _ => hstep tr t l u hrun) h (guarded_true tr)

/-! ## What appears in a run -/

/-- Some transition makes `p` true. -/
def appears (p : σ → Bool) (tr : List (Move σ ℓ)) : Bool :=
  tr.any fun x => !p x.source && p x.target

/-- What no step makes false appears in a run exactly if it holds at its end and not before. -/
theorem Run.appears_iff {p : σ → Bool} (I : σ → Prop)
    (hI : ∀ s l t, I s → step s l = some t → I t)
    (hmono : ∀ s l t, I s → step s l = some t → p s = true → p t = true) {s t : σ}
    {tr : List (Move σ ℓ)} (h : Run step s tr t) (hs : I s) :
    appears p tr = true ↔ p s = false ∧ p t = true := by
  induction h with
  | nil => simp [appears]
  | @snoc tr u v l prev last ih =>
    have hu : I u := prev.invariant I hI hs
    have hkept : p s = true → p u = true := by
      intro hp
      refine (prev.invariant (fun s => I s ∧ p s = true) ?_ ⟨hs, hp⟩).2
      rintro s l t ⟨ht, hpt⟩ hstep
      exact ⟨hI s l t ht hstep, hmono s l t ht hstep hpt⟩
    have hsnoc : appears p (tr ++ [⟨u, l, v⟩]) = (appears p tr || (!p u && p v)) := by
      simp [appears]
    rw [hsnoc, Bool.or_eq_true, ih]
    cases hpu : p u with
    | true => simp [hmono u l v hu last hpu]
    | false =>
      have hps : p s = false := by
        cases hps : p s with
        | false => rfl
        | true => rw [hkept hps] at hpu; cases hpu
      simp [hps]

/-! ## The order of two transitions -/

/-- Some element with `p` is followed, at any distance, by one with `q`. -/
def followed {α : Type*} (p q : α → Bool) : List α → Bool
  | [] => false
  | x :: rest => (p x && rest.any q) || followed p q rest

theorem followed_snoc {α : Type*} (p q : α → Bool) (tr : List α) (y : α) :
    followed p q (tr ++ [y]) = (followed p q tr || (tr.any p && q y)) := by
  induction tr with
  | nil => simp [followed]
  | cons x rest ih =>
    simp only [List.cons_append, followed, ih, List.any_append, List.any_cons, List.any_nil,
      Bool.or_false]
    cases p x <;> cases rest.any q <;> cases followed p q rest <;> cases rest.any p <;>
      cases q y <;> rfl

/-- Nothing follows an element that is not there. -/
theorem followed_eq_false {α : Type*} {p q : α → Bool} {tr : List α} (h : tr.any p = false) :
    followed p q tr = false := by
  induction tr with
  | nil => rfl
  | cons x rest ih =>
    rw [List.any_cons, Bool.or_eq_false_iff] at h
    rw [followed, h.1, ih h.2]
    rfl

/-- `y` is the last element with `p`. -/
def Latest {α : Type*} (p : α → Prop) (y : α) (tr : List α) : Prop :=
  ∃ before rest, tr = before ++ y :: rest ∧ p y ∧ ∀ z ∈ rest, ¬ p z

/-- `y` and `x` are consecutive among the elements with `p`. -/
def Consecutive {α : Type*} (p : α → Prop) (y x : α) (tr : List α) : Prop :=
  ∃ before after, Latest p y before ∧ p x ∧ tr = before ++ x :: after

theorem Latest.of_snoc {α : Type*} {p : α → Prop} {tr : List α} {x : α} (hx : p x) :
    Latest p x (tr ++ [x]) :=
  ⟨tr, [], rfl, hx, List.forall_mem_nil _⟩

theorem Latest.snoc {α : Type*} {p : α → Prop} {tr : List α} {y x : α} (h : Latest p y tr)
    (hx : ¬ p x) : Latest p y (tr ++ [x]) := by
  obtain ⟨before, rest, rfl, hy, hrest⟩ := h
  refine ⟨before, rest ++ [x], by simp, hy, fun z hz => ?_⟩
  rcases List.mem_append.mp hz with hz | hz
  · exact hrest z hz
  · rw [List.mem_singleton.mp hz]
    exact hx

theorem Latest.any {α : Type*} {p : α → Prop} {q : α → Bool} {tr : List α} {y : α}
    (h : Latest p y tr) (hq : q y = true) : tr.any q = true := by
  obtain ⟨before, rest, rfl, _, _⟩ := h
  exact List.any_eq_true.mpr ⟨y, by simp, hq⟩

theorem Consecutive.followed {α : Type*} {r : α → Prop} {p q : α → Bool} {tr : List α} {y x : α}
    (h : Consecutive r y x tr) (hp : p y = true) (hq : q x = true) : followed p q tr = true := by
  obtain ⟨before, after, hlatest, _, rfl⟩ := h
  induction after using List.reverseRecOn with
  | nil => rw [followed_snoc, hlatest.any hp, hq, Bool.and_self, Bool.or_true]
  | append_singleton after z ih =>
    rw [← List.cons_append, ← List.append_assoc, followed_snoc, ih, Bool.true_or]

/-- A run up to one of its transitions. -/
theorem Run.before {s t : σ} {before after : List (Move σ ℓ)} {x : Move σ ℓ}
    (h : Run step s (before ++ x :: after) t) : Run step s before x.source := by
  induction after using List.reverseRecOn generalizing t with
  | nil =>
    generalize htr : before ++ [x] = tr at h
    cases h with
    | nil => exact absurd htr (by simp)
    | snoc prev last =>
      obtain ⟨rfl, hx⟩ := List.append_inj' htr rfl
      rw [List.singleton_inj.mp hx]
      exact prev
  | append_singleton after z ih =>
    generalize htr : before ++ x :: (after ++ [z]) = tr at h
    cases h with
    | nil => exact absurd htr (by simp)
    | snoc prev last =>
      rw [← List.cons_append, ← List.append_assoc] at htr
      obtain ⟨rfl, _⟩ := List.append_inj' htr rfl
      exact ih prev

/-! ## Evaluating a schedule -/

/-- The transitions a list of labels takes from `s`, and the state they end in. -/
def trace (step : σ → ℓ → Option σ) : σ → List ℓ → Option (List (Move σ ℓ) × σ)
  | s, [] => some ([], s)
  | s, l :: ls =>
    match step s l with
    | none => none
    | some t => (trace step t ls).map fun r => (⟨s, l, t⟩ :: r.1, r.2)

theorem run_of_trace {s t : σ} {ls : List ℓ} {tr : List (Move σ ℓ)}
    (h : trace step s ls = some (tr, t)) : Run step s tr t := by
  induction ls generalizing s tr with
  | nil =>
    simp only [trace, Option.some.injEq, Prod.mk.injEq] at h
    obtain ⟨rfl, rfl⟩ := h
    exact Run.nil
  | cons l ls ih =>
    rw [trace] at h
    split at h
    · cases h
    · next u hu =>
      obtain ⟨⟨tr', t'⟩, htr, he⟩ := Option.map_eq_some_iff.mp h
      simp only [Prod.mk.injEq] at he
      obtain ⟨rfl, rfl⟩ := he
      exact (Run.single hu).trans (ih htr)

theorem trace_labels {s t : σ} {ls : List ℓ} {tr : List (Move σ ℓ)}
    (h : trace step s ls = some (tr, t)) : tr.map (·.label) = ls := by
  induction ls generalizing s tr with
  | nil =>
    simp only [trace, Option.some.injEq, Prod.mk.injEq] at h
    rw [← h.1]
    rfl
  | cons l ls ih =>
    rw [trace] at h
    split at h
    · cases h
    · next u hu =>
      obtain ⟨⟨tr', t'⟩, htr, he⟩ := Option.map_eq_some_iff.mp h
      simp only [Prod.mk.injEq] at he
      obtain ⟨rfl, rfl⟩ := he
      rw [List.map_cons, ih htr]

/-- A schedule that evaluates to transitions and a state with the property `p` is a run that has
it. -/
theorem exists_run_of_trace (step : σ → ℓ → Option σ) (s : σ) (ls : List ℓ)
    (p : List (Move σ ℓ) × σ → Bool) (h : (trace step s ls).any p = true) :
    ∃ tr t, Run step s tr t ∧ p (tr, t) = true := by
  cases hr : trace step s ls with
  | none => simp [hr] at h
  | some r =>
    rw [hr, Option.any_some] at h
    exact ⟨r.1, r.2, run_of_trace hr, h⟩

/-- The same for a schedule of labels that all satisfy `P`. -/
theorem exists_guarded_run_of_trace (step : σ → ℓ → Option σ) (s : σ) (ls : List ℓ) {P : ℓ → Prop}
    (hP : ∀ l ∈ ls, P l) (p : σ → Bool) (h : (trace step s ls).any (fun r => p r.2) = true) :
    ∃ tr t, Run step s tr t ∧ Guarded (fun _ l => P l) tr ∧ p t = true := by
  cases hr : trace step s ls with
  | none => simp [hr] at h
  | some r =>
    rw [hr, Option.any_some] at h
    refine ⟨r.1, r.2, run_of_trace hr, fun x hx => hP _ ?_, h⟩
    rw [← trace_labels hr]
    exact List.mem_map_of_mem hx

end Bumpa.Transition
