import Mathlib.Data.List.Count
import Mathlib.Data.List.Range

/-! # Threads

The threads of a system are a function from thread numbers, of which the first `n` have started.
`countThreads n threads p` is how many of them are at a program point with `p`:

* `countThreads_update`: a thread that steps changes the count by its own point alone;
* `countThreads_spawn`: so does a thread that starts;
* `countThreads_mono`: threads that leave `p`, or end, lower it.

`owner_unique`: what no two threads own stays so while a thread takes only what is free.
-/
namespace Bumpa.Transition
set_option autoImplicit false

universe u
variable {τ : Type u} {threads threads' : ℕ → τ} {p : τ → Bool} {n e : ℕ}

def countThreads (n : ℕ) (threads : ℕ → τ) (p : τ → Bool) : ℕ :=
  (List.range n).countP fun e => p (threads e)

theorem countThreads_succ :
    countThreads (n + 1) threads p = countThreads n threads p + (p (threads n)).toNat := by
  rw [countThreads, List.range_succ, List.countP_append, List.countP_singleton, countThreads]
  cases p (threads n) <;> rfl

theorem countThreads_congr (h : ∀ e < n, threads' e = threads e) :
    countThreads n threads' p = countThreads n threads p := by
  refine List.countP_congr fun e he => ?_
  rw [h e (List.mem_range.mp he)]

theorem countThreads_mono (h : ∀ e < n, p (threads' e) = true → p (threads e) = true) :
    countThreads n threads' p ≤ countThreads n threads p :=
  List.countP_mono_left fun e he hp => h e (List.mem_range.mp he) hp

theorem countThreads_spawn (h : ∀ e < n, threads' e = threads e) :
    countThreads (n + 1) threads' p = countThreads n threads p + (p (threads' n)).toNat := by
  rw [countThreads_succ, countThreads_congr h]

theorem countThreads_update (he : e < n) (h : ∀ e', e' ≠ e → threads' e' = threads e') :
    countThreads n threads' p + (p (threads e)).toNat =
      countThreads n threads p + (p (threads' e)).toNat := by
  induction n with
  | zero => exact absurd he (Nat.not_lt_zero e)
  | succ n ih =>
    rw [countThreads_succ, countThreads_succ]
    by_cases hn : e = n
    · subst hn
      rw [countThreads_congr fun e' he' => h e' (Nat.ne_of_lt he')]
      omega
    · have hbefore := ih (by omega)
      rw [h n (Ne.symm hn)]
      omega

/-! ## Owners -/

/-- What one thread at most owns still has one owner, after a step of a thread that takes nothing
that another one owns. -/
theorem owner_unique {α : Type*} {owns : τ → Option α} {th' : τ}
    (hthreads : ∀ e', threads' e' = if e' = e then th' else threads e')
    (hunique : ∀ e₁ e₂ k, owns (threads e₁) = some k → owns (threads e₂) = some k → e₁ = e₂)
    (hfree : ∀ k, owns th' = some k → owns (threads e) = some k ∨
      ∀ e', e' ≠ e → owns (threads e') ≠ some k) :
    ∀ e₁ e₂ k, owns (threads' e₁) = some k → owns (threads' e₂) = some k → e₁ = e₂ := by
  have htaken : ∀ e' k, e' ≠ e → owns th' = some k → owns (threads e') ≠ some k := by
    intro e' k hne hnew hold
    rcases hfree k hnew with hsame | hnone
    · exact hne (hunique e' e k hold hsame)
    · exact hnone e' hne hold
  intro e₁ e₂ k h₁ h₂
  rw [hthreads] at h₁ h₂
  split at h₁
  · next he₁ =>
    split at h₂
    · next he₂ => rw [he₁, he₂]
    · next hne => exact absurd h₂ (htaken e₂ k hne h₁)
  · next hne =>
    split at h₂
    · exact absurd h₁ (htaken e₁ k hne h₂)
    · exact hunique e₁ e₂ k h₁ h₂

end Bumpa.Transition
