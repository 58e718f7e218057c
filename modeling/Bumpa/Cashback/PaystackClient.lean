import Bumpa.Cashback.System

/-! # `PaystackPaymentProvider.postToPaystack`

A call to Paystack fails in four ways: no answer arrives, or it breaks off; its text is not a JSON
object; it refuses; or it misses `data`. The text of an answer stands for what `JSON.parse` makes of
it, and the wording of a `SyntaxError` is the engine's.

The error is classified once more by the catch block of `processPayment`, and the row gets what comes
of it (`PaystackError.record`, `recover_records`). An outage is no answer, a 429 or a 5xx.
`outages_classified_iff`: the row says so exactly if the answer is `classifiedByStatus`: the body is
parsed before the status is looked at, a refusal without a known code is judged by its words, and one
whose code is a word that every JavaScript object knows leaves the row's earlier failure.
-/
namespace Bumpa.Cashback
open Bumpa.Events
set_option autoImplicit false

/-! ## Answers -/

inductive JsonValue where
  | null
  | bool (value : Bool)
  | number (value : Rat)
  | string (value : String)
  | array (values : List JsonValue)
  | object (fields : List (String × JsonValue))

abbrev JsonObject := List (String × JsonValue)

inductive ResponseText where
  | json (value : JsonValue)
  | malformed (syntaxError : String)

/-- What becomes of the request: `fetch` rejects, or `response.text()` does, or neither. -/
inductive Fetched where
  | unreachable (message : String)
  | interrupted (status : ℕ) (message : String)
  | response (status : ℕ) (text : ResponseText)

def readString (source : JsonObject) (key : String) : Option String :=
  match source.lookup key with
  | some (.string value) => some value
  | _ => none

def readBoolean (source : JsonObject) (key : String) : Option Bool :=
  match source.lookup key with
  | some (.bool value) => some value
  | _ => none

/-! ## Errors -/

/-- `inherited`: the error code names a member of `Object.prototype`, which the map of error codes
inherits, so that `code` and `retryable` of the error are `undefined`. -/
inductive PaystackError where
  | thrown (error : Thrown)
  | inherited (message : String)

inductive MappedError where
  | entry (code : CashbackFailureCode) (retryable : Bool)
  | inherited

def paystackErrorCodeMap : List (String × MappedError) :=
  [("insufficient_balance", .entry .insufficientBalance true),
    ("invalid_bank_code", .entry .invalidAccount false),
    ("invalid_account_number", .entry .invalidAccount false),
    ("invalid_transfer_recipient", .entry .invalidAccount false),
    ("duplicate_transfer_reference", .entry .duplicateReference true),
    ("invalid_key", .entry .providerMisconfigured false),
    ("missing_params", .entry .providerRejected false),
    ("invalid_params", .entry .providerRejected false),
    ("invalid_amount", .entry .providerRejected false),
    ("constructor", .inherited),
    ("__proto__", .inherited)]

/-- `PAYSTACK_ERROR_CODE_MAP[errorCode]` for the lower-cased `code` of the body. -/
def mappedError (body : JsonObject) : Option MappedError :=
  (readString body "code").bind fun code =>
    (paystackErrorCodeMap.find? (·.1.toList = toLowerCase code)).map (·.2)

def MappedError.error (message : String) : MappedError → PaystackError
  | .entry code retryable => .thrown (.payment ⟨message, code, retryable⟩)
  | .inherited => .inherited message

/-- `response.ok`. -/
def isOk (status : ℕ) : Bool := 200 ≤ status && status < 300

/-- Provider downtime and rate limits. -/
def isOutageStatus (status : ℕ) : Bool := status = 429 || 500 ≤ status

/-- The message of a body: what an error is called that has no other name. -/
def responseMessage (body : JsonObject) : String :=
  (readString body "message").getD "Paystack request failed"

def accepted (status : ℕ) (body : JsonObject) : Bool :=
  isOk status && readBoolean body "status" = some true

def parseJsonObject : ResponseText → Except PaystackError JsonObject
  | .json (.object body) => .ok body
  | .json _ => .error (.thrown (.other "Paystack returned an invalid JSON response"))
  | .malformed syntaxError => .error (.thrown (.other syntaxError))

def readRequiredObject (source : JsonObject) (key : String) : Except PaystackError JsonObject :=
  match source.lookup key with
  | some (.object value) => .ok value
  | _ => .error (.thrown (.other ("Paystack response is missing " ++ key)))

/-- A body that is not accepted. -/
def rejection (status : ℕ) (body : JsonObject) : PaystackError :=
  if isOutageStatus status then
    .thrown (.payment ⟨responseMessage body, .providerUnavailable, true⟩)
  else
    match mappedError body with
    | some mapped => mapped.error (responseMessage body)
    | none => .thrown (.payment (classifyCashbackFailure (.other (responseMessage body))))

def postToPaystack : Fetched → Except PaystackError JsonObject
  | .unreachable message =>
    .error (.thrown (.payment ⟨"Could not reach Paystack: " ++ message, .providerUnavailable, true⟩))
  | .interrupted _ message => .error (.thrown (.other message))
  | .response status text => do
    let body ← parseJsonObject text
    if accepted status body then readRequiredObject body "data"
    else .error (rejection status body)

/-! ## The recorded failure -/

/-- The columns `failureCode` and `retryable`. -/
structure RecordedFailure where
  code : Option CashbackFailureCode
  retryable : Option Bool
  deriving DecidableEq, Repr

def CashbackTransaction.recordedFailure (row : CashbackTransaction) : RecordedFailure :=
  ⟨row.failureCode, row.retryable⟩

/-- The row that the catch block of `processPayment` saves. Columns set to `undefined` keep what the
row has. -/
def PaystackError.record (cfg : Config) (now : ℕ) (t row : CashbackTransaction) :
    PaystackError → CashbackTransaction
  | .thrown error => t.withFailure row cfg now (classifyCashbackFailure error)
  | .inherited message =>
    { t with
      status := .failed
      failureReason := some message
      failureCode := row.failureCode
      retryable := row.retryable
      retryCount := t.retryCount + 1
      nextRetryAt := row.nextRetryAt }

/-- `earlier`: what the row has before. -/
def PaystackError.failure (earlier : RecordedFailure) : PaystackError → RecordedFailure
  | .thrown error =>
    ⟨some (classifyCashbackFailure error).code, some (classifyCashbackFailure error).retryable⟩
  | .inherited _ => earlier

theorem record_failure (cfg : Config) (now : ℕ) (t row : CashbackTransaction) (error : PaystackError) :
    (error.record cfg now t row).recordedFailure = error.failure row.recordedFailure := by
  cases error <;> rfl

/-- The transaction's row is that one once the catch block has given it up. -/
theorem recover_records {cfg : Config} {w w' : World} {e : ℕ} {r : PaymentRun}
    {t : CashbackTransaction} {error : Thrown} {th : Thread}
    (h : recover cfg w e r t error .ok = some (w', th))
    (hgives : handsBack r (classifyCashbackFailure error) = false) :
    w'.db.transactions.row t.id =
      some ((PaystackError.thrown error).record cfg w.now t (w.rowOf t)) := by
  simp only [recover, hgives, Bool.false_eq_true, if_false] at h
  split at h
  · obtain ⟨rfl, -⟩ := Prod.mk.inj (Option.some.inj h)
    exact (saveTransaction_row _ _ _).trans (if_pos rfl)
  · cases h

theorem mappedError_mem {body : JsonObject} {mapped : MappedError}
    (h : mappedError body = some mapped) : mapped ∈ paystackErrorCodeMap.map (·.2) := by
  obtain ⟨code, -, hfound⟩ := Option.bind_eq_some_iff.mp h
  obtain ⟨entry, hentry, rfl⟩ := Option.map_eq_some_iff.mp hfound
  exact List.mem_map_of_mem (List.mem_of_find?_eq_some hentry)

theorem rejection_not_missing {status : ℕ} {body : JsonObject} {failure : CashbackPaymentError}
    (h : rejection status body = .thrown (.payment failure)) :
    failure.code ≠ .missingBankDetails := by
  unfold rejection at h
  split at h
  · cases h
    simp
  · split at h
    · next mapped hmapped =>
      have hcodes : ∀ mapped ∈ paystackErrorCodeMap.map (·.2),
          mapped.error (responseMessage body) = .thrown (.payment failure) →
            failure.code ≠ .missingBankDetails := by
        simp only [paystackErrorCodeMap, List.map_cons, List.map_nil, List.forall_mem_cons,
          MappedError.error, PaystackError.thrown.injEq, Thrown.payment.injEq, reduceCtorEq]
        refine ⟨?_, ?_, ?_, ?_, ?_, ?_, ?_, ?_, ?_, ?_, ?_, List.forall_mem_nil _⟩ <;>
          rintro ⟨⟩ <;> simp
      exact hcodes mapped (mappedError_mem hmapped) h
    · cases h
      exact other_not_missing (responseMessage body)

/-- No answer of Paystack's is taken for missing bank details. -/
theorem postToPaystack_not_missing {fetched : Fetched} {failure : CashbackPaymentError}
    (h : postToPaystack fetched = .error (.thrown (.payment failure))) :
    failure.code ≠ .missingBankDetails := by
  cases fetched with
  | unreachable message =>
    cases h
    simp
  | interrupted status message => cases h
  | response status text =>
    cases text with
    | malformed syntaxError => cases h
    | json value =>
      cases value with
      | object body =>
        simp only [postToPaystack, parseJsonObject, bind, Except.bind] at h
        split at h
        · unfold readRequiredObject at h
          split at h <;> cases h
        · exact rejection_not_missing (Except.error.inj h)
      | _ => cases h

/-! ## Outages -/

/-- No answer was obtained, or it is a 429 or a 5xx. -/
def Fetched.outage : Fetched → Bool
  | .unreachable _ => true
  | .interrupted _ _ => true
  | .response status _ => isOutageStatus status

/-- The text speaks of downtime or rate limits, or has a number from 500 to 599 in it, and does not
speak of the balance, of the account or of a duplicate reference. -/
def namesOutage (text : String) : Bool :=
  matchesUnavailable (toLowerCase text) &&
    !(matchesInsufficientBalance (toLowerCase text) || matchesInvalidAccount (toLowerCase text) ||
      mentionsDuplicateReference (toLowerCase text))

def RecordedFailure.unavailable (failure : RecordedFailure) : Prop :=
  failure.code = some .providerUnavailable ∧ failure.retryable = some true

instance (failure : RecordedFailure) : Decidable failure.unavailable :=
  inferInstanceAs (Decidable (_ ∧ _))

/-- A refusal whose status is not that of an outage is known by its code, or its words do not name
one. Under an inherited code the row's earlier failure stays. -/
def refusedPlainly (earlier : RecordedFailure) (body : JsonObject) : Bool :=
  match mappedError body with
  | some (.entry _ _) => true
  | some .inherited => !decide earlier.unavailable
  | none => !namesOutage (responseMessage body)

/-- What the row says is what the status says. -/
def Fetched.classifiedByStatus (earlier : RecordedFailure) : Fetched → Bool
  | .unreachable _ => true
  | .interrupted _ message => namesOutage message
  | .response status (.malformed syntaxError) => isOutageStatus status == namesOutage syntaxError
  | .response status (.json (.object body)) =>
    isOutageStatus status || accepted status body || refusedPlainly earlier body
  | .response status (.json _) => !isOutageStatus status

/-- What the classifier makes of words. -/
theorem other_unavailable_iff (earlier : RecordedFailure) (text : String) :
    ((PaystackError.thrown (.other text)).failure earlier).unavailable ↔ namesOutage text = true := by
  simp only [RecordedFailure.unavailable, PaystackError.failure, namesOutage,
    classifyCashbackFailure]
  split_ifs <;> simp_all

theorem classified_unavailable_iff (earlier : RecordedFailure) (text : String) :
    ((PaystackError.thrown (.payment (classifyCashbackFailure (.other text)))).failure
      earlier).unavailable ↔ namesOutage text = true := other_unavailable_iff earlier text

/-- No entry of the map is an outage. -/
theorem entry_not_unavailable {body : JsonObject} {code : CashbackFailureCode} {retryable : Bool}
    (earlier : RecordedFailure) (message : String)
    (h : mappedError body = some (.entry code retryable)) :
    ¬(((MappedError.entry code retryable).error message).failure earlier).unavailable := by
  have hnever : ∀ mapped ∈ paystackErrorCodeMap.map (·.2), mapped ≠ .entry .providerUnavailable true := by
    simp [paystackErrorCodeMap]
  rintro ⟨hcode, hretryable⟩
  obtain rfl : code = .providerUnavailable := Option.some.inj hcode
  obtain rfl : retryable = true := Option.some.inj hretryable
  exact hnever _ (mappedError_mem h) rfl

theorem rejection_unavailable_iff (earlier : RecordedFailure) (status : ℕ) (body : JsonObject) :
    ((rejection status body).failure earlier).unavailable ↔
      isOutageStatus status = true ∨ refusedPlainly earlier body = false := by
  unfold rejection
  split
  · next houtage => exact iff_of_true ⟨rfl, rfl⟩ (Or.inl houtage)
  · next hstatus =>
    rw [refusedPlainly, or_iff_right hstatus]
    split
    · next mapped hmapped =>
      cases mapped with
      | entry code retryable =>
        exact iff_of_false (entry_not_unavailable earlier _ hmapped) (by simp [hmapped])
      | inherited => simp [hmapped, MappedError.error, PaystackError.failure]
    · next hmapped =>
      rw [classified_unavailable_iff]
      simp [hmapped]

theorem missing_not_outage : namesOutage "Paystack response is missing data" = false ∧
    namesOutage "Paystack returned an invalid JSON response" = false := by decide +kernel

theorem not_outage_of_ok {status : ℕ} (h : isOk status = true) : isOutageStatus status = false := by
  simp only [isOk, isOutageStatus, Bool.and_eq_true, decide_eq_true_eq, Bool.or_eq_false_iff,
    decide_eq_false_iff_not] at h ⊢
  omega

theorem required_unavailable {source : JsonObject} {error : PaystackError} (earlier : RecordedFailure)
    (h : readRequiredObject source "data" = .error error) : ¬(error.failure earlier).unavailable := by
  unfold readRequiredObject at h
  split at h
  · cases h
  · cases h
    rw [other_unavailable_iff, Bool.not_eq_true]
    exact missing_not_outage.1

/-- The row of a failed call says that it was an outage if and only if it was, exactly where the
answer is classified by its status. -/
theorem outages_classified_iff (cfg : Config) (now : ℕ) (t row : CashbackTransaction)
    (fetched : Fetched) (error : PaystackError) (h : postToPaystack fetched = .error error) :
    ((error.record cfg now t row).recordedFailure.unavailable ↔ fetched.outage = true) ↔
      fetched.classifiedByStatus row.recordedFailure = true := by
  rw [record_failure]
  generalize row.recordedFailure = earlier
  cases fetched with
  | unreachable message =>
    cases h
    exact iff_of_true (iff_of_true ⟨rfl, rfl⟩ rfl) rfl
  | interrupted status message =>
    cases h
    rw [other_unavailable_iff]
    simp only [Fetched.outage, Fetched.classifiedByStatus, iff_true]
  | response status text =>
    cases text with
    | malformed syntaxError =>
      cases h
      rw [other_unavailable_iff]
      simp only [Fetched.outage, Fetched.classifiedByStatus]
      cases namesOutage syntaxError <;> cases isOutageStatus status <;> simp
    | json value =>
      cases value with
      | object body =>
        simp only [postToPaystack, parseJsonObject, bind, Except.bind] at h
        simp only [Fetched.outage, Fetched.classifiedByStatus]
        split at h
        · next haccepted =>
          have hstatus := not_outage_of_ok (Bool.and_eq_true_iff.mp haccepted).1
          refine iff_of_true ?_ (by simp [haccepted])
          exact iff_of_false (required_unavailable earlier h) (by simp [hstatus])
        · next hrejected =>
          cases h
          rw [rejection_unavailable_iff, Bool.not_eq_true] at *
          rw [hrejected]
          cases isOutageStatus status <;> cases refusedPlainly earlier body <;> simp
      | _ =>
        cases h
        rw [other_unavailable_iff, missing_not_outage.2]
        simp only [Fetched.outage, Fetched.classifiedByStatus]
        cases isOutageStatus status <;> simp

/-- A 503 with a JSON object. -/
def jsonOutage : Fetched :=
  .response 503 (.json (.object
    [("status", .bool false), ("message", .string "Service temporarily unavailable")]))

def claimedRow : CashbackTransaction :=
  ⟨0, "usr_1", "Bronze", 30000, .processing, .paystack, some ⟨.paystack, 1⟩, none, some 0, none, none,
    none, 0, none⟩

theorem outages_classified_json : ∃ error, postToPaystack jsonOutage = .error error ∧
    ((error.record paystackConfig 0 claimedRow claimedRow).recordedFailure.unavailable ↔
      jsonOutage.outage = true) :=
  ⟨_, rfl, (outages_classified_iff paystackConfig 0 claimedRow claimedRow jsonOutage _ rfl).mpr rfl⟩

def htmlOutage : Fetched :=
  .response 503 (.malformed "Unexpected token '<', \"<html><hea\"... is not valid JSON")

def numberedRefusal : Fetched :=
  .response 400 (.json (.object
    [("status", .bool false), ("message", .string "Amount must be at least 500")]))

/-- A 503 with an HTML page is recorded as a rejection for good, and a 400 whose message has a
number from 500 to 599 in it as an outage. -/
theorem outage_misclassified :
    (∃ error, postToPaystack htmlOutage = .error error ∧ htmlOutage.outage = true ∧
      (error.record paystackConfig 0 claimedRow claimedRow).recordedFailure =
        ⟨some .providerRejected, some false⟩) ∧
    ∃ error, postToPaystack numberedRefusal = .error error ∧ numberedRefusal.outage = false ∧
      (error.record paystackConfig 0 claimedRow claimedRow).recordedFailure =
        ⟨some .providerUnavailable, some true⟩ :=
  ⟨⟨_, rfl, rfl, by decide +kernel⟩, ⟨_, rfl, rfl, by decide +kernel⟩⟩

end Bumpa.Cashback
