import Mathlib.Data.Finset.Dedup
import Mathlib.Data.Finset.Insert
import Mathlib.Data.List.Perm.Basic
import Mathlib.Order.Minimal
import Mathlib.Order.UpperLower.Basic

/-! # Taking what still fits

`greedy fits xs` goes through a list and takes each element that still fits with those it has taken.
Where what fits is closed under subsets it ends with a maximal set that fits (`greedy_maximal`), and
every maximal one is what some order of the elements ends with (`greedy_of_maximal`). So something
about the taken set does not depend on the order exactly if all maximal sets agree on it.
-/
namespace Bumpa.Order
set_option autoImplicit false

universe u
variable {α : Type u} [DecidableEq α]

def takeIfFits (fits : Finset α → Prop) [DecidablePred fits] (taken : Finset α) (x : α) : Finset α :=
  if fits (insert x taken) then insert x taken else taken

def greedy (fits : Finset α → Prop) [DecidablePred fits] (xs : List α) : Finset α :=
  xs.foldl (takeIfFits fits) ∅

section Greedy
variable {fits : Finset α → Prop} [DecidablePred fits] {xs ys : List α} {s t : Finset α} {x : α}

theorem greedy_snoc (xs : List α) (x : α) :
    greedy fits (xs ++ [x]) = takeIfFits fits (greedy fits xs) x := by
  rw [greedy, List.foldl_append]
  rfl

theorem subset_takeIfFits (taken : Finset α) (x : α) : taken ⊆ takeIfFits fits taken x := by
  unfold takeIfFits
  split
  · exact Finset.subset_insert x taken
  · exact Finset.Subset.refl taken

/-- What was taken fits, is from the list, and leaves out what no longer fits. -/
theorem greedy_fits (hnone : fits ∅) (xs : List α) : fits (greedy fits xs) := by
  induction xs using List.reverseRecOn with
  | nil => exact hnone
  | append_singleton xs x ih =>
    rw [greedy_snoc, takeIfFits]
    split
    · next h => exact h
    · exact ih

theorem greedy_subset (xs : List α) : greedy fits xs ⊆ xs.toFinset := by
  induction xs using List.reverseRecOn with
  | nil => exact Finset.Subset.refl _
  | append_singleton xs x ih =>
    rw [greedy_snoc, takeIfFits]
    intro y hy
    rw [List.mem_toFinset, List.mem_append, List.mem_singleton]
    split at hy
    · rcases Finset.mem_insert.mp hy with rfl | hold
      · exact Or.inr rfl
      · exact Or.inl (List.mem_toFinset.mp (ih hold))
    · exact Or.inl (List.mem_toFinset.mp (ih hy))

theorem greedy_full (hlower : IsLowerSet {s | fits s}) (hx : x ∈ xs)
    (h : fits (insert x (greedy fits xs))) : x ∈ greedy fits xs := by
  induction xs using List.reverseRecOn with
  | nil => cases hx
  | append_singleton xs y ih =>
    rw [greedy_snoc] at h ⊢
    have hgrows : greedy fits xs ⊆ takeIfFits fits (greedy fits xs) y := subset_takeIfFits _ y
    have hearlier : fits (insert x (greedy fits xs)) :=
      hlower (Finset.insert_subset_insert x hgrows) h
    rcases List.mem_append.mp hx with hold | hlast
    · exact hgrows (ih hold hearlier)
    · rw [List.mem_singleton.mp hlast] at hearlier ⊢
      rw [takeIfFits, if_pos hearlier]
      exact Finset.mem_insert_self y _

/-- In every order the taken set is a maximal one. -/
theorem greedy_maximal (hlower : IsLowerSet {s | fits s}) (hnone : fits ∅) (xs : List α) :
    Maximal (fun s => s ⊆ xs.toFinset ∧ fits s) (greedy fits xs) := by
  refine ⟨⟨greedy_subset xs, greedy_fits hnone xs⟩, fun s hs hle x hx => ?_⟩
  refine greedy_full hlower (List.mem_toFinset.mp (hs.1 hx)) (hlower ?_ hs.2)
  exact Finset.insert_subset hx hle

/-- A list whose elements fit together is taken as a whole. -/
theorem greedy_all (hlower : IsLowerSet {s | fits s}) (h : fits xs.toFinset) :
    greedy fits xs = xs.toFinset := by
  refine Finset.Subset.antisymm (greedy_subset xs) fun x hx => ?_
  refine greedy_full hlower (List.mem_toFinset.mp hx) (hlower ?_ h)
  exact Finset.insert_subset hx (greedy_subset xs)

/-- What was taken first stays. -/
theorem greedy_append_subset (xs ys : List α) : greedy fits xs ⊆ greedy fits (xs ++ ys) := by
  induction ys using List.reverseRecOn with
  | nil => rw [List.append_nil]
  | append_singleton ys y ih =>
    rw [← List.append_assoc, greedy_snoc]
    exact ih.trans (subset_takeIfFits _ y)

/-- A maximal set is taken in the order that begins with it. -/
theorem greedy_of_maximal (hlower : IsLowerSet {s | fits s}) (hnone : fits ∅)
    (hs : Maximal (fun s => s ⊆ (xs ++ ys).toFinset ∧ fits s) xs.toFinset) :
    greedy fits (xs ++ ys) = xs.toFinset := by
  have hfirst : xs.toFinset ⊆ greedy fits (xs ++ ys) := by
    rw [← greedy_all hlower hs.1.2]
    exact greedy_append_subset xs ys
  exact (hs.eq_of_le ⟨greedy_subset _, greedy_fits hnone _⟩ hfirst).symm

end Greedy

end Bumpa.Order
