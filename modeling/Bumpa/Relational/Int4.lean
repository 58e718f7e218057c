import Mathlib.Algebra.BigOperators.Group.List.Basic
import Mathlib.Algebra.Order.BigOperators.Group.List
import Mathlib.Algebra.Order.Group.Nat
import Mathlib.Algebra.Ring.Nat

/-! # Four-byte integers

A column of type `integer` takes the integers of four bytes and refuses every other one. `Int4` is
what it can store. A total that only grows stays in range as long as its last value does
(`sum_le_of_prefix`), and keeps the number of its increments in range (`length_le_sum`).
-/
namespace Bumpa.Relational
set_option autoImplicit false

structure Int4 where
  val : ℤ
  min_le : -2147483648 ≤ val
  le_max : val ≤ 2147483647
  deriving DecidableEq, Repr

namespace Int4

def Fits (n : ℤ) : Prop := -2147483648 ≤ n ∧ n ≤ 2147483647

instance (n : ℤ) : Decidable (Fits n) := inferInstanceAs (Decidable (_ ∧ _))

def ofInt? (n : ℤ) : Option Int4 := if h : Fits n then some ⟨n, h.1, h.2⟩ else none

theorem ofInt?_eq_none_iff {n : ℤ} : ofInt? n = none ↔ ¬Fits n := by
  unfold ofInt?
  split
  · next h => exact iff_of_false (Option.some_ne_none _) (not_not_intro h)
  · next h => exact iff_of_true rfl h

theorem fits_of_ofInt? {n : ℤ} {x : Int4} (h : ofInt? n = some x) : Fits n := by
  by_contra hnot
  rw [ofInt?_eq_none_iff.mpr hnot] at h
  cases h

theorem val_of_ofInt? {n : ℤ} {x : Int4} (h : ofInt? n = some x) : x.val = n := by
  unfold ofInt? at h
  split at h
  · obtain rfl := Option.some.inj h
    rfl
  · cases h

theorem fits_natCast_iff {n : ℕ} : Fits n ↔ n ≤ 2147483647 := by
  unfold Fits
  omega

theorem sum_le_of_prefix {taken amounts : List ℕ} (h : taken <+: amounts) :
    taken.sum ≤ amounts.sum :=
  h.sublist.sum_le_sum fun _ _ => Nat.zero_le _

theorem length_le_sum {amounts : List ℕ} (h : ∀ amount ∈ amounts, 1 ≤ amount) :
    amounts.length ≤ amounts.sum := by
  have hle := List.card_nsmul_le_sum amounts 1 h
  rwa [Nat.nsmul_eq_mul, Nat.mul_one] at hle

end Int4
end Bumpa.Relational
