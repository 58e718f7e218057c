import Bumpa.Events.Domain
import Mathlib.Data.List.Infix

/-! # Payment failures (`payments/payment-provider.ts`)

`classifyCashbackFailure` turns whatever a rejected promise carries into a `CashbackPaymentError`,
by searching the lower-cased message for the words of five regular expressions.
-/
namespace Bumpa.Cashback
open Bumpa.Events
set_option autoImplicit false

structure CashbackPaymentError where
  message : String
  code : CashbackFailureCode
  retryable : Bool
  deriving DecidableEq, Repr

/-- What a rejected promise carries: a `CashbackPaymentError`, or any other error by its message. -/
inductive Thrown where
  | payment (error : CashbackPaymentError)
  | other (message : String)
  deriving DecidableEq, Repr

def missingBankDetailsError (message : String) : CashbackPaymentError :=
  ⟨message, .missingBankDetails, false⟩

/-! ## The regular expressions -/

/-- `toLowerCase` as far as ASCII letters come out of it: `A`-`Z`, the Kelvin sign and the dotted
capital I. Every other character maps to characters outside ASCII, which no pattern below has. -/
def lowerChar (c : Char) : List Char :=
  if c = '\u212A' then ['k']
  else if c = '\u0130' then ['i', '\u0307']
  else [c.toLower]

def toLowerCase (message : String) : List Char := message.toList.flatMap lowerChar

/-- Some of the words occurs in the text. -/
def mentions (words : List String) (text : List Char) : Bool :=
  words.any fun word => decide (word.toList <:+: text)

def isLineTerminator (c : Char) : Bool :=
  c = '\n' || c = '\r' || c = '\u2028' || c = '\u2029'

/-- `/duplicate.*reference/`: both words in this order with no line terminator between them. -/
def mentionsDuplicateReference (text : List Char) : Bool :=
  text.tails.any fun rest =>
    "duplicate".toList.isPrefixOf rest &&
      mentions ["reference"]
        ((rest.drop "duplicate".length).takeWhile fun c => !isLineTerminator c)

/-- `/5\d\d/`. -/
def mentionsServerError (text : List Char) : Bool :=
  text.tails.any fun
    | '5' :: a :: b :: _ => a.isDigit && b.isDigit
    | _ => false

/-- `/insufficient (balance|funds)|balance is not enough|not enough (balance|funds)/`. -/
def matchesInsufficientBalance (text : List Char) : Bool :=
  mentions ["insufficient balance", "insufficient funds", "balance is not enough",
    "not enough balance", "not enough funds"] text

/-- `/cannot resolve account|invalid account|invalid bank|could not resolve/`. -/
def matchesInvalidAccount (text : List Char) : Bool :=
  mentions ["cannot resolve account", "invalid account", "invalid bank", "could not resolve"] text

/-- The fourth pattern, of downtime and rate limits. -/
def matchesUnavailable (text : List Char) : Bool :=
  mentions ["timed out", "timeout", "econnrefused", "enotfound", "fetch failed", "network",
    "too many requests", "rate limit"] text || mentionsServerError text

def classifyCashbackFailure : Thrown → CashbackPaymentError
  | .payment error => error
  | .other message =>
    let lower := toLowerCase message
    if matchesInsufficientBalance lower then ⟨message, .insufficientBalance, true⟩
    else if matchesInvalidAccount lower then ⟨message, .invalidAccount, false⟩
    else if mentionsDuplicateReference lower then ⟨message, .duplicateReference, true⟩
    else if matchesUnavailable lower then ⟨message, .providerUnavailable, true⟩
    else ⟨message, .providerRejected, false⟩

/-- Classifying keeps the message, which is what the row records as its reason. -/
theorem classifyCashbackFailure_message (message : String) :
    (classifyCashbackFailure (.other message)).message = message := by
  simp only [classifyCashbackFailure]
  split_ifs <;> rfl

/-- Wording alone never means missing details. -/
theorem other_not_missing (text : String) :
    (classifyCashbackFailure (.other text)).code ≠ .missingBankDetails := by
  simp only [classifyCashbackFailure]
  split_ifs <;> simp

end Bumpa.Cashback
