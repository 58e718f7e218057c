import Mathlib.Data.Option.Basic
import Mathlib.Order.Basic

/-! # Leases

A lock that is a key with a lifetime: it is set if there is none, and extended or released by
whoever compares its value first. Who has set it is noted beside the value.

`HeldByLive`: among those that may still extend or release, only the holder has the key's value. So
long as nobody sets a value that another of them has, what they do is never done to a key that is
not theirs (`changed_extend`, `changed_release`).
-/
namespace Bumpa.Transition
set_option autoImplicit false

universe u v

structure Lease (V : Type u) (H : Type v) where
  value : V
  expiresAt : ℕ
  holder : H
  deriving DecidableEq, Repr

namespace Lease
variable {V : Type u} {H : Type v} {key : Option (Lease V H)} {live live' : H → Option V}
  {value : V} {holder : H} {time expiresAt : ℕ}

/-- Sets the key if there is none. -/
def acquire (key : Option (Lease V H)) (value : V) (holder : H) (expiresAt : ℕ) :
    Option (Lease V H) :=
  key.or (some ⟨value, expiresAt, holder⟩)

/-- What the time leaves of it. -/
def expire (key : Option (Lease V H)) (time : ℕ) : Option (Lease V H) :=
  key.filter (time < ·.expiresAt)

section
variable [DecidableEq V]

/-- Compares and extends. -/
def extend (key : Option (Lease V H)) (value : V) (expiresAt : ℕ) : Option (Lease V H) :=
  key.map fun lease => if lease.value = value then { lease with expiresAt := expiresAt } else lease

/-- Compares and deletes. -/
def release (key : Option (Lease V H)) (value : V) : Option (Lease V H) :=
  key.filter (·.value ≠ value)

end

/-! ## Who holds it -/

/-- `live` are the values of those that may still extend or release. -/
def HeldByLive (key : Option (Lease V H)) (live : H → Option V) : Prop :=
  ∀ lease, key = some lease → ∀ h, live h = some lease.value → h = lease.holder

theorem HeldByLive.mono (h : HeldByLive key live) (hle : ∀ h v, live' h = some v → live h = some v) :
    HeldByLive key live' :=
  fun lease hkey h' hlive => h lease hkey h' (hle h' lease.value hlive)

/-- A key is set whose value no other one has. -/
theorem HeldByLive.acquire (h : HeldByLive key live)
    (hfresh : key = none → ∀ h', h' ≠ holder → live h' ≠ some value) :
    HeldByLive (acquire key value holder expiresAt) live := by
  intro lease hkey h' hlive
  cases key with
  | none =>
    obtain rfl := Option.some.inj hkey
    by_contra hne
    exact hfresh rfl h' hne hlive
  | some lease' => exact h lease hkey h' hlive

theorem HeldByLive.expire (h : HeldByLive key live) (time : ℕ) :
    HeldByLive (expire key time) live :=
  fun lease hkey => h lease (Option.filter_eq_some_iff.mp hkey).1

section
variable [DecidableEq V]

theorem HeldByLive.extend (h : HeldByLive key live) (value : V) (expiresAt : ℕ) :
    HeldByLive (extend key value expiresAt) live := by
  intro lease hkey h' hlive
  obtain ⟨lease', hkey', rfl⟩ := Option.map_eq_some_iff.mp hkey
  have hholder := h lease' hkey' h'
  split at hlive <;> split <;> exact hholder hlive

theorem HeldByLive.release (h : HeldByLive key live) (value : V) :
    HeldByLive (release key value) live :=
  fun lease hkey => h lease (Option.filter_eq_some_iff.mp hkey).1

/-- One of them extends nobody else's key. -/
theorem changed_extend (h : HeldByLive key live) (hlive : live holder = some value)
    (hchanged : extend key value expiresAt ≠ key) :
    ∃ lease, key = some lease ∧ lease.holder = holder := by
  cases key with
  | none => exact absurd rfl hchanged
  | some lease =>
    refine ⟨lease, rfl, (h lease rfl holder ?_).symm⟩
    by_contra hne
    rw [hlive, Option.some.injEq] at hne
    exact hchanged (congrArg some (if_neg (Ne.symm hne)))

/-- One of them releases nobody else's key. -/
theorem changed_release (h : HeldByLive key live) (hlive : live holder = some value)
    (hchanged : release key value ≠ key) :
    ∃ lease, key = some lease ∧ lease.holder = holder := by
  cases key with
  | none => exact absurd rfl hchanged
  | some lease =>
    refine ⟨lease, rfl, (h lease rfl holder ?_).symm⟩
    by_contra hne
    rw [hlive, Option.some.injEq] at hne
    refine hchanged (Option.filter_eq_some_iff.mpr ⟨rfl, ?_⟩)
    exact decide_eq_true (Ne.symm hne)

end

end Lease

end Bumpa.Transition
