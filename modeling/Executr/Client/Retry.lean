-- The Go client and its transport `RetryableHTTPClient`: `DoWithContext` as its
-- loop over the outcomes of its attempts, and the calls that hand it one request.
import Mathlib.Order.Basic

namespace executr.client

/-! ## The transport -/

/-- `time.Second`, in the nanoseconds of a `time.Duration`. -/
def timeSecond : Int := 1000000000

/-- The fields of `RetryableHTTPClient` that the loop reads. -/
structure RetryableHTTPClient where
  maxRetries : Int
  retryDelay : Int
  maxDelay : Int
deriving DecidableEq, Repr

/-- `NewRetryableHTTPClient`. No method sets the two delays. -/
def newRetryableHTTPClient : RetryableHTTPClient := ⟨3, 1 * timeSecond, 10 * timeSecond⟩

def RetryableHTTPClient.setMaxRetries (c : RetryableHTTPClient) (n : Int) : RetryableHTTPClient :=
  { c with maxRetries := n }

/-- What one attempt of `c.client.Do` gives. -/
inductive Outcome
  | transportError
  | status (code : Nat)
deriving DecidableEq, Repr

/-- The `shouldRetry` that `NewRetryableHTTPClient` installs. -/
def shouldRetry : Outcome → Bool
  | .transportError => true
  | .status code => code ≥ 500 || code == 429

/-- What the world does during one call: each attempt's outcome and each wait's end. -/
structure World where
  outcome : Nat → Outcome
  cancelled : Nat → Bool

/-- What a call does on the wire and on the clock. -/
inductive Event
  | request
  | wait (d : Int)
deriving DecidableEq, Repr

/-- What `DoWithContext` returns. -/
inductive Result
  | response (code : Nat)
  | failed
  | noAttempt
deriving DecidableEq, Repr

/-- The return after the last attempt: its error, or its response. -/
def Result.ofOutcome : Outcome → Result
  | .transportError => .failed
  | .status code => .response code

/-- The loop of `DoWithContext` at attempt `i`, with `n` turns left and `delay` next. -/
def doLoop (c : RetryableHTTPClient) (w : World) : Nat → Nat → Int → List Event × Result
  | 0, _, _ => ([], .noAttempt)
  | n + 1, i, delay =>
    let o := w.outcome i
    if !shouldRetry o then ([.request], .ofOutcome o)
    else if n = 0 then ([.request], .ofOutcome o)
    else if w.cancelled i then ([.request], .failed)
    else
      let r := doLoop c w n (i + 1) (if delay * 2 > c.maxDelay then c.maxDelay else delay * 2)
      (.request :: .wait delay :: r.1, r.2)

def RetryableHTTPClient.doWithContext (c : RetryableHTTPClient) (w : World) : List Event × Result :=
  doLoop c w (c.maxRetries + 1).toNat 0 c.retryDelay

/-! ## The SDK -/

/-- `HTTPClient`: the base URL only prefixes the paths. -/
structure HTTPClient where
  httpClient : RetryableHTTPClient

/-- `New(baseURL)`. -/
def new : HTTPClient := ⟨newRetryableHTTPClient⟩

/-- A request: its method, its path and the status it takes as success. -/
structure Request where
  method : String
  path : String
  success : Nat

/-- What a call returns once the transport is done. -/
inductive CallResult
  | ok
  /-- `parseError` of another status. -/
  | serverError (code : Nat)
  /-- `request failed: ...`. -/
  | requestFailed
  /-- `resp.Body` of a nil response: a nil dereference. -/
  | nilResponse
deriving DecidableEq, Repr

/-- The body every call but `ClaimNextJob` shares. -/
def HTTPClient.send (c : HTTPClient) (req : Request) (w : World) : List Event × CallResult :=
  let r := c.httpClient.doWithContext w
  (r.1, match r.2 with
    | .response code => if code = req.success then .ok else .serverError code
    | .failed => .requestFailed
    | .noAttempt => .nilResponse)

def HTTPClient.submitJob (c : HTTPClient) (w : World) : List Event × CallResult :=
  c.send ⟨"POST", "/api/v1/jobs", 201⟩ w

def HTTPClient.getJob (c : HTTPClient) (jobID : String) (w : World) : List Event × CallResult :=
  c.send ⟨"GET", "/api/v1/jobs/" ++ jobID, 200⟩ w

/-- `ListJobs`; the query string is left out. -/
def HTTPClient.listJobs (c : HTTPClient) (w : World) : List Event × CallResult :=
  c.send ⟨"GET", "/api/v1/jobs", 200⟩ w

def HTTPClient.cancelJob (c : HTTPClient) (jobID : String) (w : World) : List Event × CallResult :=
  c.send ⟨"DELETE", "/api/v1/jobs/" ++ jobID, 204⟩ w

/-- `ClaimNextJob`, which also takes 204 (no job) as an answer. -/
def HTTPClient.claimNextJob (c : HTTPClient) (w : World) : List Event × CallResult :=
  let r := c.httpClient.doWithContext w
  (r.1, match r.2 with
    | .response code => if code = 204 ∨ code = 200 then .ok else .serverError code
    | .failed => .requestFailed
    | .noAttempt => .nilResponse)

def HTTPClient.heartbeat (c : HTTPClient) (jobID : String) (w : World) : List Event × CallResult :=
  c.send ⟨"PUT", "/api/v1/jobs/" ++ jobID ++ "/heartbeat", 204⟩ w

def HTTPClient.completeJob (c : HTTPClient) (jobID : String) (w : World) : List Event × CallResult :=
  c.send ⟨"PUT", "/api/v1/jobs/" ++ jobID ++ "/complete", 204⟩ w

def HTTPClient.failJob (c : HTTPClient) (jobID : String) (w : World) : List Event × CallResult :=
  c.send ⟨"PUT", "/api/v1/jobs/" ++ jobID ++ "/fail", 204⟩ w

def HTTPClient.health (c : HTTPClient) (w : World) : List Event × CallResult :=
  c.send ⟨"GET", "/api/v1/health", 200⟩ w

/-! ## The schedule of a call -/

/-- The wait before retry `i`: `min(retryDelay * 2^i, maxDelay)`. -/
def backoff (c : RetryableHTTPClient) (i : Nat) : Int := min (c.retryDelay * Int.pow 2 i) c.maxDelay

/-- A call retrying `k` times from attempt `i`: requests with a wait between two. -/
def retrySchedule (c : RetryableHTTPClient) : Nat → Nat → List Event
  | _, 0 => [.request]
  | i, k + 1 => .request :: .wait (backoff c i) :: retrySchedule c (i + 1) k

theorem count_retrySchedule (c : RetryableHTTPClient) : ∀ i k, (retrySchedule c i k).count .request = k + 1
  | _, 0 => rfl
  | i, k + 1 => by simp [retrySchedule, count_retrySchedule c (i + 1) k]

theorem next_delay (c : RetryableHTTPClient) (hm : 0 ≤ c.maxDelay) (i : Nat) :
    (if backoff c i * 2 > c.maxDelay then c.maxDelay else backoff c i * 2) = backoff c (i + 1) := by
  have hp : c.retryDelay * Int.pow 2 (i + 1) = c.retryDelay * Int.pow 2 i * 2 := Int.mul_assoc _ _ _ ▸ rfl
  simp only [backoff, hp]
  generalize c.retryDelay * Int.pow 2 i = a
  split <;> omega

theorem doLoop_schedule (c : RetryableHTTPClient) (w : World) (hm : 0 ≤ c.maxDelay) :
    ∀ n i, ∃ k ≤ n, (doLoop c w (n + 1) i (backoff c i)).1 = retrySchedule c i k ∧
      ∀ j < k, shouldRetry (w.outcome (i + j)) = true
  | 0, i => by
    refine ⟨0, Nat.le_refl 0, ?_, fun _ h => absurd h (Nat.not_lt_zero _)⟩
    rw [doLoop]
    split <;> rfl
  | n + 1, i => by
    rw [doLoop]
    by_cases hs : shouldRetry (w.outcome i) = true
    · by_cases hc : w.cancelled i = true
      · exact ⟨0, Nat.zero_le _, by simp [hs, hc, retrySchedule], fun _ h => absurd h (Nat.not_lt_zero _)⟩
      · obtain ⟨k, hk, htr, hr⟩ := doLoop_schedule c w hm n (i + 1)
        refine ⟨k + 1, Nat.succ_le_succ hk, ?_, fun j hj => ?_⟩
        · rw [if_neg (by simp [hs]), if_neg (by omega), if_neg hc]
          simp only [next_delay c hm, htr, retrySchedule]
        · cases j with
          | zero => exact hs
          | succ j => simpa [Nat.add_assoc, Nat.add_comm 1 j] using hr j (Nat.lt_of_succ_lt_succ hj)
    · exact ⟨0, Nat.zero_le _, by simp [hs, retrySchedule], fun _ h => absurd h (Nat.not_lt_zero _)⟩

/-- Every call sends at most `maxRetries + 1` requests, retries only after a retryable
outcome, and waits `min(retryDelay * 2^i, maxDelay)` before retry `i`. -/
theorem doWithContext_schedule (c : RetryableHTTPClient) (w : World) (hm : 0 ≤ c.maxRetries)
    (hd : 0 ≤ c.retryDelay ∧ c.retryDelay ≤ c.maxDelay) :
    ∃ k ≤ c.maxRetries.toNat, (c.doWithContext w).1 = retrySchedule c 0 k ∧
      ∀ j < k, shouldRetry (w.outcome j) = true := by
  have ht : (c.maxRetries + 1).toNat = c.maxRetries.toNat + 1 := by omega
  have h0 : c.retryDelay = backoff c 0 := by
    have hp : Int.pow 2 0 = 1 := rfl
    simp only [backoff, hp, Int.mul_one]
    omega
  rw [RetryableHTTPClient.doWithContext, ht, h0]
  simpa using doLoop_schedule c w (by omega) c.maxRetries.toNat 0

theorem request_mem_doLoop (c : RetryableHTTPClient) (w : World) (n i : Nat) (d : Int) :
    Event.request ∈ (doLoop c w (n + 1) i d).1 := by
  rw [doLoop]
  split_ifs <;> simp

/-- A call whose first attempt fails retryably is sent twice, given one retry. -/
theorem send_twice (c : HTTPClient) (req : Request) (w : World) (hm : 1 ≤ c.httpClient.maxRetries)
    (hs : shouldRetry (w.outcome 0) = true) (hc : w.cancelled 0 = false) :
    2 ≤ ((c.send req w).1.count .request) := by
  obtain ⟨n, hn⟩ : ∃ n, (c.httpClient.maxRetries + 1).toNat = n + 2 :=
    ⟨(c.httpClient.maxRetries + 1).toNat - 2, by omega⟩
  simp only [HTTPClient.send, RetryableHTTPClient.doWithContext, hn]
  rw [doLoop, if_neg (by simp [hs]), if_neg (by omega), if_neg (by simp [hc])]
  simp only [List.count_cons, beq_self_eq_true, if_true, beq_iff_eq, reduceCtorEq, if_false]
  have h := List.count_pos_iff.mpr (request_mem_doLoop c.httpClient w n (0 + 1)
    (if c.httpClient.retryDelay * 2 > c.httpClient.maxDelay then c.httpClient.maxDelay
      else c.httpClient.retryDelay * 2))
  omega

/-- Every call of the SDK, writes included, is the loop of `DoWithContext`, and one
whose first attempt fails retryably is sent again. -/
theorem sdk_calls_retry_schedule (c : HTTPClient) (w : World) (jobID : String)
    (hm : 0 ≤ c.httpClient.maxRetries)
    (hd : 0 ≤ c.httpClient.retryDelay ∧ c.httpClient.retryDelay ≤ c.httpClient.maxDelay) :
    (∀ ev ∈ [(c.submitJob w).1, (c.getJob jobID w).1, (c.listJobs w).1, (c.cancelJob jobID w).1,
        (c.claimNextJob w).1, (c.heartbeat jobID w).1, (c.completeJob jobID w).1, (c.failJob jobID w).1,
        (c.health w).1], ev = (c.httpClient.doWithContext w).1) ∧
    (∃ k ≤ c.httpClient.maxRetries.toNat, (c.httpClient.doWithContext w).1 = retrySchedule c.httpClient 0 k ∧
      ∀ j < k, shouldRetry (w.outcome j) = true) ∧
    (∀ req, 1 ≤ c.httpClient.maxRetries → shouldRetry (w.outcome 0) = true → w.cancelled 0 = false →
      2 ≤ (c.send req w).1.count .request) :=
  ⟨by simp [HTTPClient.submitJob, HTTPClient.getJob, HTTPClient.listJobs, HTTPClient.cancelJob,
      HTTPClient.claimNextJob, HTTPClient.heartbeat, HTTPClient.completeJob, HTTPClient.failJob,
      HTTPClient.health, HTTPClient.send],
    doWithContext_schedule c.httpClient w hm hd, fun req h1 hs hc => send_twice c req w h1 hs hc⟩

/-- The world of a server that answers the first attempt 503 and the next 201. -/
def unavailableOnce : World := ⟨fun i => if i = 0 then .status 503 else .status 201, fun _ => false⟩

theorem new_client_retry_schedule :
    (0 ≤ new.httpClient.maxRetries ∧ 0 ≤ new.httpClient.retryDelay ∧
      new.httpClient.retryDelay ≤ new.httpClient.maxDelay) ∧
    (∀ ev ∈ [(new.submitJob unavailableOnce).1, (new.getJob "j" unavailableOnce).1,
        (new.listJobs unavailableOnce).1, (new.cancelJob "j" unavailableOnce).1,
        (new.claimNextJob unavailableOnce).1, (new.heartbeat "j" unavailableOnce).1,
        (new.completeJob "j" unavailableOnce).1, (new.failJob "j" unavailableOnce).1,
        (new.health unavailableOnce).1], ev = (new.httpClient.doWithContext unavailableOnce).1) ∧
    (∃ k ≤ new.httpClient.maxRetries.toNat,
      (new.httpClient.doWithContext unavailableOnce).1 = retrySchedule new.httpClient 0 k ∧
      ∀ j < k, shouldRetry (unavailableOnce.outcome j) = true) ∧
    (∀ req, 1 ≤ new.httpClient.maxRetries → shouldRetry (unavailableOnce.outcome 0) = true →
      unavailableOnce.cancelled 0 = false → 2 ≤ (new.send req unavailableOnce).1.count .request) :=
  ⟨by decide, sdk_calls_retry_schedule new unavailableOnce "j" (by decide) (by decide)⟩

/-- `SubmitJob` answered 503 is sent again a second later. -/
theorem submit_resent_after_503 :
    new.submitJob unavailableOnce = ([.request, .wait timeSecond, .request], .ok) := by
  decide

end executr.client
