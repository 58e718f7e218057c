import Mathlib.Order.FixedPoints
import Mathlib.Order.CompletePartialOrder
import Mathlib.Order.ConditionallyCompleteLattice.Basic
import Mathlib.Data.Set.Card

/-! # The least element closed under a monotone operator

`saturation F a` is the least `x` above `a` with `F x ≤ x` (`saturation_isLeast`), by Knaster and
Tarski.

* `eq_saturation`: how an algorithm reaches it: it starts at `a`, stays below the saturation by
  `step_le_saturation`, and stops at a closed element.
* `saturation_resume`: saturation may stop early, under a smaller operator too, and go on later.
* `subset_saturation_iff`: where only finitely many elements can be derived, these are in the
  saturation exactly if they can be listed so that each is derived from those before it.
-/
namespace Bumpa.Order
set_option autoImplicit false

universe u
variable {α : Type u} [CompleteLattice α] {F G : α →o α} {a b x : α}

/-- `F`, and `a` on top of what it derives. -/
def above (F : α →o α) (a : α) : α →o α :=
  ⟨fun x => a ⊔ F x, fun _ _ h => sup_le_sup_left (F.monotone h) a⟩

theorem above_le_iff : above F a x ≤ x ↔ a ≤ x ∧ F x ≤ x := sup_le_iff

def saturation (F : α →o α) (a : α) : α := OrderHom.lfp (above F a)

theorem saturation_isLeast (F : α →o α) (a : α) :
    IsLeast {x | a ≤ x ∧ F x ≤ x} (saturation F a) := by
  have hleast := OrderHom.isLeast_lfp_le (above F a)
  have hset : {x | above F a x ≤ x} = {x | a ≤ x ∧ F x ≤ x} := Set.ext fun _ => above_le_iff
  rwa [hset] at hleast

theorem le_saturation : a ≤ saturation F a := (saturation_isLeast F a).1.1

theorem map_saturation_le : F (saturation F a) ≤ saturation F a := (saturation_isLeast F a).1.2

theorem saturation_le (ha : a ≤ x) (hx : F x ≤ x) : saturation F a ≤ x :=
  (saturation_isLeast F a).2 ⟨ha, hx⟩

/-- What is derived below the saturation is below it. -/
theorem step_le_saturation (hb : b ≤ saturation F a) : F b ≤ saturation F a :=
  (F.monotone hb).trans map_saturation_le

theorem eq_saturation (ha : a ≤ x) (hx : x ≤ saturation F a) (hclosed : F x ≤ x) :
    x = saturation F a :=
  le_antisymm hx (saturation_le ha hclosed)

theorem saturation_mono (hF : F ≤ G) (hab : a ≤ b) : saturation F a ≤ saturation G b :=
  saturation_le (hab.trans le_saturation) ((hF _).trans map_saturation_le)

/-- Saturating further what lies between `a` and its saturation under a smaller operator. -/
theorem saturation_resume (hF : F ≤ G) (hab : a ≤ b) (hb : b ≤ saturation F a) :
    saturation G b = saturation G a :=
  le_antisymm (saturation_le (hb.trans (saturation_mono hF le_rfl)) map_saturation_le)
    (saturation_mono le_rfl hab)

/-! ## Derivations -/

section Derivations
variable {β : Type u} {D : Set β →o Set β} {s all : Set β} {l : List β}

/-- Each element is derived from `s` and the elements before it. -/
inductive Derivation (D : Set β →o Set β) (s : Set β) : List β → Prop
  | nil : Derivation D s []
  | snoc {l : List β} {x : β} (prev : Derivation D s l) (last : x ∈ D (s ∪ {y | y ∈ l})) :
      Derivation D s (l ++ [x])

theorem Derivation.le_saturation (h : Derivation D s l) : {y | y ∈ l} ≤ saturation D s := by
  induction h with
  | nil => exact fun y hy => absurd hy List.not_mem_nil
  | snoc prev last ih =>
    intro y hy
    rcases List.mem_append.mp hy with hold | hnew
    · exact ih hold
    · rw [List.mem_singleton.mp hnew]
      exact step_le_saturation (Set.union_subset Order.le_saturation ih) last

/-- A derivation that misses something of the saturation can be continued. -/
theorem Derivation.exists_next (h : ¬saturation D s ≤ s ∪ {y | y ∈ l}) :
    ∃ x ∈ D (s ∪ {y | y ∈ l}), x ∉ l := by
  by_contra hnone
  refine h (saturation_le Set.subset_union_left fun x hx => Or.inr ?_)
  by_contra hnew
  exact hnone ⟨x, hx, hnew⟩

theorem Derivation.exists_complete (hfin : all.Finite) (hall : ∀ t, D t ⊆ all)
    (h : Derivation D s l) : ∃ l', Derivation D s l' ∧ saturation D s ≤ s ∪ {y | y ∈ l'} := by
  induction hn : (all \ {y | y ∈ l}).ncard using Nat.strong_induction_on generalizing l with
  | _ n ih =>
    by_cases hdone : saturation D s ≤ s ∪ {y | y ∈ l}
    · exact ⟨l, h, hdone⟩
    · obtain ⟨x, hx, hnew⟩ := Derivation.exists_next hdone
      refine ih _ ?_ (h.snoc hx) rfl
      rw [← hn]
      refine Set.ncard_lt_ncard ⟨fun y hy => ⟨hy.1, fun hyl => hy.2 (List.mem_append_left _ hyl)⟩,
        fun hsub => ?_⟩ (hfin.subset Set.sdiff_subset)
      exact (hsub ⟨hall _ hx, hnew⟩).2 (List.mem_append_right _ List.mem_cons_self)

theorem subset_saturation_iff (hfin : all.Finite) (hall : ∀ t, D t ⊆ all) :
    all ⊆ saturation D ∅ ↔ ∃ l, Derivation D ∅ l ∧ ∀ x ∈ all, x ∈ l := by
  constructor
  · intro h
    obtain ⟨l, hl, hcomplete⟩ := Derivation.exists_complete hfin hall (s := ∅) Derivation.nil
    refine ⟨l, hl, fun x hx => ?_⟩
    rcases hcomplete (h hx) with hempty | hmem
    · exact absurd hempty (Set.notMem_empty x)
    · exact hmem
  · rintro ⟨l, hl, hlists⟩ x hx
    exact hl.le_saturation (hlists x hx)

end Derivations

end Bumpa.Order
