-- The error helpers of errors.go against the errors the SDK's calls return: no
-- call's error is or wraps a sentinel or an `*APIError`, so every helper says no.
import Mathlib.Data.List.Basic

namespace executr.client

/-! ## Go errors as `errors.Is` and `errors.As` see them -/

/-- A Go error value. -/
inductive GoError
/-- A value of `errors.New`, compared by identity. -/
  | sentinel (name text : String)
  /-- An `*APIError`. -/
  | api (statusCode : Int) (message : String)
  /-- `fmt.Errorf` with `%w`: its text and the error it wraps. -/
  | wrapped (text : String) (cause : GoError)
/-- An error with no `Unwrap`. -/
  | plain (text : String)
deriving DecidableEq, Repr

def errJobNotFound : GoError := .sentinel "ErrJobNotFound" "job not found"
def errNoJobsAvailable : GoError := .sentinel "ErrNoJobsAvailable" "no jobs available"
def errUnauthorized : GoError := .sentinel "ErrUnauthorized" "unauthorized"
def errServerError : GoError := .sentinel "ErrServerError" "server error"
def errBadRequest : GoError := .sentinel "ErrBadRequest" "bad request"
def errNetworkError : GoError := .sentinel "ErrNetworkError" "network error"

/-- `Error()`; `APIError.Error` with a nil `Context`. -/
def GoError.text : GoError → String
  | .sentinel _ text | .wrapped text _ | .plain text => text
  | .api statusCode message => "API error (status " ++ toString statusCode ++ "): " ++ message

/-- `errors.Is`: the error, or one it wraps, is the target. -/
def errorsIs : GoError → GoError → Bool
  | .wrapped text cause, target => .wrapped text cause == target || errorsIs cause target
  | err, target => err == target

/-- `errors.As` into an `*APIError`: the first one along the chain. -/
def errorsAsAPI : GoError → Option (Int × String)
  | .api statusCode message => some (statusCode, message)
  | .wrapped _ cause => errorsAsAPI cause
  | _ => none

/-- The helpers that test a sentinel, then the status of an `*APIError`. -/
def isSentinelOrStatus (sentinel : GoError) (status : Int → Bool) (err : GoError) : Bool :=
  errorsIs err sentinel || ((errorsAsAPI err).map fun e => status e.1).getD false

def isNotFound : GoError → Bool := isSentinelOrStatus errJobNotFound (· == 404)
def isServerError : GoError → Bool := isSentinelOrStatus errServerError (· ≥ 500)
def isBadRequest : GoError → Bool := isSentinelOrStatus errBadRequest (· == 400)
def isNoJobsAvailable (err : GoError) : Bool := errorsIs err errNoJobsAvailable
def isNetworkError (err : GoError) : Bool := errorsIs err errNetworkError

/-! ## The errors of a call -/

/-- The body of an answer the call does not take, as `json.Unmarshal` reads it. -/
inductive ErrorBody
  | unreadable
  | notJson (raw : String)
  | decoded (error : String) (context : Option String)
deriving DecidableEq, Repr

def parseError (statusCode : Int) : ErrorBody → GoError
  | .unreadable => .plain ("server returned status " ++ toString statusCode)
  | .notJson raw => .plain ("server returned status " ++ toString statusCode ++ ": " ++ raw)
  | .decoded error (some context) => .plain (error ++ " (context: " ++ context ++ ")")
  | .decoded error none => .plain error

/-- How a call of `HTTPClient` fails. -/
inductive CallFailure
/-- `failed to marshal ...: %w` or `failed to create request: %w`. -/
  | request (text : String) (cause : GoError)
  /-- `DoWithContext`: `request failed: %w`. -/
  | transport (cause : GoError)
  /-- An answer with a status the call does not take. -/
  | answer (statusCode : Int) (body : ErrorBody)
  /-- The body of a taken answer: `failed to decode response: %w`. -/
  | decode (cause : GoError)

/-- The error the call returns. -/
def CallFailure.error : CallFailure → GoError
  | .request text cause => .wrapped (text ++ ": " ++ cause.text) cause
  | .transport cause => .wrapped ("request failed: " ++ cause.text) cause
  | .answer statusCode body => parseError statusCode body
  | .decode cause => .wrapped ("failed to decode response: " ++ cause.text) cause

/-- The names of the sentinels of errors.go. -/
def clientSentinels : List String :=
  ["ErrJobNotFound", "ErrNoJobsAvailable", "ErrUnauthorized", "ErrServerError", "ErrBadRequest",
    "ErrNetworkError"]

/-- No sentinel of errors.go and no `*APIError` along the chain. -/
def GoError.foreign : GoError → Bool
  | .sentinel name _ => !clientSentinels.contains name
  | .api _ _ => false
  | .wrapped _ cause => cause.foreign
  | .plain _ => true

/-- The errors of encoding/json, net/http and the context that a call wraps. -/
def CallFailure.Foreign : CallFailure → Prop
  | .request _ cause | .transport cause | .decode cause => cause.foreign = true
  | .answer _ _ => True

/-! ## No helper recognises an error of a call -/

theorem errorsIs_foreign {err : GoError} (h : err.foreign = true) {name text : String}
    (hn : name ∈ clientSentinels) : errorsIs err (.sentinel name text) = false := by
  induction err with
  | sentinel n =>
    have hne : n ≠ name := fun he => by simp_all [GoError.foreign]
    simp [errorsIs, hne]
  | api => cases h
  | wrapped text cause ih => simp [errorsIs, ih h]
  | plain => simp [errorsIs]

theorem errorsAsAPI_foreign {err : GoError} (h : err.foreign = true) : errorsAsAPI err = none := by
  induction err with
  | api => cases h
  | wrapped _ _ ih => exact ih h
  | sentinel | plain => rfl

theorem parseError_foreign (statusCode : Int) (body : ErrorBody) : (parseError statusCode body).foreign = true := by
  cases body with
  | decoded _ context => cases context <;> rfl
  | _ => rfl

theorem CallFailure.error_foreign {f : CallFailure} (hf : f.Foreign) : f.error.foreign = true := by
  cases f with
  | answer statusCode body => exact parseError_foreign statusCode body
  | _ => exact hf

/-- No error a call returns is recognised by any helper of errors.go. -/
theorem sdk_errors_unclassified (f : CallFailure) (hf : f.Foreign) :
    isNotFound f.error = false ∧ isServerError f.error = false ∧ isBadRequest f.error = false ∧
      isNoJobsAvailable f.error = false ∧ isNetworkError f.error = false := by
  have h := CallFailure.error_foreign hf
  have hs : ∀ name ∈ clientSentinels, ∀ text, errorsIs f.error (.sentinel name text) = false :=
    fun _ hn _ => errorsIs_foreign h hn
  simp only [isNotFound, isServerError, isBadRequest, isNoJobsAvailable, isNetworkError, isSentinelOrStatus,
    errorsAsAPI_foreign h, Option.map_none', Option.getD_none, Bool.or_false]
  exact ⟨hs _ (by decide) _, hs _ (by decide) _, hs _ (by decide) _, hs _ (by decide) _, hs _ (by decide) _⟩

/-- `GetJob` of an unknown id: the 404 of `writeError`. -/
theorem get_missing_job_unclassified : (CallFailure.answer 404 (.decoded "Job not found" (some "map[job_id:0]"))).Foreign ∧
    isNotFound (CallFailure.answer 404 (.decoded "Job not found" (some "map[job_id:0]"))).error = false ∧
    isServerError (CallFailure.answer 404 (.decoded "Job not found" (some "map[job_id:0]"))).error = false ∧
    isBadRequest (CallFailure.answer 404 (.decoded "Job not found" (some "map[job_id:0]"))).error = false ∧
    isNoJobsAvailable (CallFailure.answer 404 (.decoded "Job not found" (some "map[job_id:0]"))).error = false ∧
    isNetworkError (CallFailure.answer 404 (.decoded "Job not found" (some "map[job_id:0]"))).error = false :=
  ⟨trivial, sdk_errors_unclassified _ trivial⟩

end executr.client
