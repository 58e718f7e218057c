import Mathlib.Data.Option.Basic

/-! # Optional properties

`@IsOptional()` lets `null` pass, so an optional property of a request body is a `Field`. `??` takes
`null` for absent (`toOption`); an entity that is saved has it written: `merge` is the column after
a body is merged into the row, `updated` after an UPDATE of what differs from the row that `save`
has selected.
-/
namespace Bumpa
set_option autoImplicit false

/-- An optional property of a request body. -/
inductive Field (α : Type) where
  | absent
  | null
  | value (v : α)
  deriving DecidableEq, Repr

namespace Field
variable {α : Type}

/-- What `??` sees. -/
def toOption : Field α → Option α
  | .value v => some v
  | _ => none

/-- The property is there (`!== undefined`) and not what the column has. -/
def differs [DecidableEq α] (old : α) : Field α → Bool
  | .absent => false
  | .null => true
  | .value v => v ≠ old

/-- `merge`: the column afterwards, if it can be stored. -/
def merge (old : α) : Field α → Option α
  | .absent => some old
  | .null => none
  | .value v => some v

theorem merge_eq {field : Field α} {old new : α} (h : field.merge old = some new) :
    new = field.toOption.getD old := by
  cases field with
  | absent => exact (Option.some.inj h).symm
  | null => cases h
  | value v => exact (Option.some.inj h).symm

theorem differs_iff {field : Field α} [DecidableEq α] {old new : α}
    (h : field.merge old = some new) : field.differs old = true ↔ new ≠ old := by
  cases field with
  | absent => exact iff_of_false Bool.false_ne_true (not_not.mpr (Option.some.inj h).symm)
  | null => cases h
  | value v => rw [differs, decide_eq_true_eq, Option.some.inj h]

theorem toOption_of_differs {field : Field α} [DecidableEq α] {old new : α}
    (h : field.merge old = some new) (hdiffers : field.differs old = true) :
    field.toOption = some new := by
  cases field with
  | absent => cases hdiffers
  | null => cases h
  | value v => exact h

/-- A nullable column after `save`: what is absent, or as selected, is not written. -/
def updated [DecidableEq α] (row selected : Option α) : Field α → Option α
  | .absent => row
  | .null => if selected = none then row else none
  | .value v => if selected = some v then row else some v

end Field
end Bumpa
