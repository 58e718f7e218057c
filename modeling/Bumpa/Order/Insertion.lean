import Mathlib.Logic.Function.Basic
import Mathlib.Order.Monotone.Basic
import Mathlib.Algebra.Order.Group.Nat

/-! # Moving an item in a list that is ordered by positions

A list gives each of its items a position, `p : κ → Option α`. `moveTo raise p k t` puts the item
`k` at the position `t`, whether it was in the list before or not, after every other position was
raised. If the raise is strictly monotone and never lands on `t`, distinct positions stay distinct
(`Distinct.moveTo`) and the order of the other items stays (`moveTo_placed`). `makeRoom t` is such
a raise of numbers: it raises by one what is not below `t`.
-/
namespace Bumpa.Order
set_option autoImplicit false

universe u v
variable {κ : Type u} {α : Type v} {p q : κ → Option α} {raise : α → α} {k : κ} {t : α}

/-- No two items of the list have one position. -/
def Distinct (p : κ → Option α) : Prop :=
  ∀ i j x, p i = some x → p j = some x → i = j

/-- From `p` to `q` only the item `k` has moved, to the position `t`: the others are those of
before, in the same order. -/
structure Placed [LT α] (p q : κ → Option α) (k : κ) (t : α) : Prop where
  position : q k = some t
  others : ∀ i, i ≠ k → (q i).isSome = (p i).isSome
  order : ∀ i j, i ≠ k → j ≠ k → ∀ x y x' y', p i = some x → p j = some y → q i = some x' →
    q j = some y' → (x' < y' ↔ x < y)

/-- An item that stays where it is. -/
theorem Placed.refl [LT α] (h : p k = some t) : Placed p p k t where
  position := h
  others := fun _ _ => rfl
  order := by
    intro i j _ _ x y x' y' hx hy hx' hy'
    cases hx.symm.trans hx'
    cases hy.symm.trans hy'
    exact Iff.rfl

variable [DecidableEq κ]

def moveTo (raise : α → α) (p : κ → Option α) (k : κ) (t : α) : κ → Option α :=
  Function.update (fun i => (p i).map raise) k (some t)

theorem moveTo_self : moveTo raise p k t k = some t := Function.update_self _ _ _

theorem moveTo_of_ne {i : κ} (h : i ≠ k) : moveTo raise p k t i = (p i).map raise :=
  Function.update_of_ne h _ _

theorem moveTo_placed [LinearOrder α] (hraise : StrictMono raise) (p : κ → Option α) (k : κ)
    (t : α) : Placed p (moveTo raise p k t) k t where
  position := moveTo_self
  others := fun i hi => by rw [moveTo_of_ne hi, Option.isSome_map]
  order := by
    intro i j hi hj x y x' y' hx hy hx' hy'
    rw [moveTo_of_ne hi, hx] at hx'
    rw [moveTo_of_ne hj, hy] at hy'
    cases hx'
    cases hy'
    exact hraise.lt_iff_lt

theorem Distinct.moveTo (h : Distinct p) (hraise : Function.Injective raise)
    (hfree : ∀ x, raise x ≠ t) (k : κ) : Distinct (moveTo raise p k t) := by
  have hother : ∀ i, i ≠ k → Order.moveTo raise p k t i ≠ some t := by
    intro i hi heq
    rw [moveTo_of_ne hi] at heq
    obtain ⟨x, _, hx⟩ := Option.map_eq_some_iff.mp heq
    exact hfree x hx
  intro i j x hi hj
  by_cases hik : i = k
  · subst hik
    rw [moveTo_self] at hi
    by_contra hne
    exact hother j (Ne.symm hne) (hj.trans hi.symm)
  · by_cases hjk : j = k
    · subst hjk
      rw [moveTo_self] at hj
      exact absurd (hi.trans hj.symm) (hother i hik)
    · rw [moveTo_of_ne hik] at hi
      rw [moveTo_of_ne hjk] at hj
      obtain ⟨y, hy, hyx⟩ := Option.map_eq_some_iff.mp hi
      obtain ⟨z, hz, hzx⟩ := Option.map_eq_some_iff.mp hj
      cases hraise (hyx.trans hzx.symm)
      exact h i j y hy hz

/-- An item that leaves the list makes no positions equal. -/
theorem Distinct.remove (h : Distinct p) (k : κ) : Distinct (Function.update p k none) := by
  intro i j x hi hj
  have hmem : ∀ i, Function.update p k none i = some x → p i = some x := by
    intro i hi
    by_cases hik : i = k
    · rw [hik, Function.update_self] at hi
      cases hi
    · rwa [Function.update_of_ne hik] at hi
  exact h i j x (hmem i hi) (hmem j hj)

/-! ## Room among numbers -/

def makeRoom (t n : ℕ) : ℕ := if t ≤ n then n + 1 else n

theorem makeRoom_strictMono (t : ℕ) : StrictMono (makeRoom t) := by
  intro m n h
  unfold makeRoom
  split <;> split <;> omega

theorem makeRoom_ne (t n : ℕ) : makeRoom t n ≠ t := by
  unfold makeRoom
  split <;> omega

end Bumpa.Order
