import Bumpa.Relational.Field
import Mathlib.Data.List.Basic
import Mathlib.Data.Int.Notation

/-! # `CreatePurchaseDto` (`apps/purchase-service`)

The body of `POST /purchases`. `@IsString` and `@IsInt` are the types of the fields, and a null
passes where one is optional; `validate` lists the properties that class-validator reports.
Whether an address is one is decided by that library, a parameter here.
-/
namespace Bumpa.Purchases
set_option autoImplicit false

structure CreatePurchaseDto where
  userId : String
  email : String
  name : String
  bankAccountNumber : Field String
  bankCode : Field String
  amountKobo : ℤ
  deriving DecidableEq, Repr

/-- "High but bounded purchase amount in kobo." -/
def maxAmountKobo : ℤ := 100_000_000_00

def isVariationSelector (c : Char) : Bool := c = '\uFE0E' || c = '\uFE0F'

/-- The length of a text for `isLength`: a variation selector goes with the character before it. -/
def presentedLength : List Char → ℕ
  | c :: c' :: rest =>
    if !isVariationSelector c && isVariationSelector c' then presentedLength rest + 1
    else presentedLength (c' :: rest) + 1
  | [_] => 1
  | [] => 0

def maxLength (max : ℕ) (value : String) : Bool := decide (presentedLength value.toList ≤ max)

/-- `/^\d{min,max}$/` -/
def digits (min max : ℕ) (value : String) : Bool :=
  decide (min ≤ value.length) && decide (value.length ≤ max) && value.toList.all (·.isDigit)

namespace CreatePurchaseDto

/-- Every property with what is checked of it. -/
def checks (isEmail : String → Bool) (dto : CreatePurchaseDto) : List (String × Bool) :=
  [("userId", dto.userId ≠ "" && maxLength 100 dto.userId),
    ("email", isEmail dto.email && maxLength 320 dto.email),
    ("name", dto.name ≠ "" && maxLength 200 dto.name),
    ("bankAccountNumber", dto.bankAccountNumber.toOption.all (digits 10 10)),
    ("bankCode", dto.bankCode.toOption.all (digits 3 6)),
    ("amountKobo", decide (1 ≤ dto.amountKobo) && decide (dto.amountKobo ≤ maxAmountKobo))]

def validate (isEmail : String → Bool) (dto : CreatePurchaseDto) : List String :=
  ((dto.checks isEmail).filter fun check => !check.2).map (·.1)

variable {isEmail : String → Bool} {dto : CreatePurchaseDto}

theorem validate_eq_nil_iff :
    dto.validate isEmail = [] ↔ ∀ check ∈ dto.checks isEmail, check.2 = true := by
  rw [validate, List.map_eq_nil_iff, List.filter_eq_nil_iff]
  simp only [Bool.not_eq_true', Bool.not_eq_false]

theorem accepted_amount (h : dto.validate isEmail = []) :
    1 ≤ dto.amountKobo ∧ dto.amountKobo ≤ maxAmountKobo := by
  have hamount := validate_eq_nil_iff.mp h ("amountKobo", _)
    (List.mem_of_getLast? (l := dto.checks isEmail) rfl)
  simpa using hamount

example : validate (fun _ => true)
    ⟨"usr_1", "amina@getbumpa.com", "Amina Bello", .absent, .null, maxAmountKobo⟩ = [] := by
  decide +kernel

example : validate (fun _ => true)
    ⟨"usr_1", "amina@getbumpa.com", "Amina Bello", .value "12345", .absent, maxAmountKobo + 1⟩ =
      ["bankAccountNumber", "amountKobo"] := by
  decide +kernel

end CreatePurchaseDto
end Bumpa.Purchases
