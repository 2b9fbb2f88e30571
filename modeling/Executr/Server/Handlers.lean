-- The server's handlers (after their body is decoded) and background ticks, as the
-- statements they run and the status and error text they answer.
import Executr.Store.Queries
import Executr.Go

namespace executr.server

open executr.store

/-- The fields of `server.Config` the loops read, in seconds. -/
structure Config where
  cleanupInterval : Int
  jobRetention : Int
  heartbeatTimeout : Int
deriving DecidableEq, Repr

/-- The defaults of the server command's flags, in seconds. -/
def defaultConfig : Config := ⟨3600, 172800, 15⟩

/-- An HTTP answer: the status code and the envelope's `error`, if any. -/
structure Response where
  code : Nat
  error : Option String
deriving DecidableEq, Repr

/-- The `writeError` envelope. -/
def writeError (code : Nat) (message : String) : Response := ⟨code, some message⟩

/-- A success with no envelope. -/
def ok (code : Nat) : Response := ⟨code, none⟩

/-! ## The request bodies -/

structure JobSubmission where
  jobType : String
  binaryUrl : String
  binarySha256 : String
  arguments : List String
  envVariables : List (String × String)
  priority : String
  maxRetries : Int
deriving DecidableEq, Repr

structure ClaimRequest where
  executorId : String
  executorIp : String
deriving DecidableEq, Repr

structure HeartbeatRequest where
  executorId : String
deriving DecidableEq, Repr

structure CompleteRequest where
  executorId : String
  stdout : String
  stderr : String
  exitCode : Int
deriving DecidableEq, Repr

structure FailRequest where
  executorId : String
  errorMessage : String
  stdout : String
  stderr : String
  exitCode : Int
deriving DecidableEq, Repr

/-! ## The handlers -/

def handleSubmitJob (s : Store) (sub : JobSubmission) (now : Int) : Response × Store :=
  if sub.jobType = "" ∨ sub.binaryUrl = "" then
    (writeError 400 "type and binary_url are required", s)
  else
    match createJob s ⟨sub.jobType, sub.binaryUrl, sub.binarySha256, sub.arguments, sub.envVariables,
        sub.priority⟩ now with
    | none => (writeError 500 "Failed to create job", s)
    | some (_, s') => (ok 201, s')

theorem handleSubmitJob_store (s : Store) (sub : JobSubmission) (now : Int) :
    (handleSubmitJob s sub now).2 = s ∨ ∃ p, (handleSubmitJob s sub now).2 =
      s.insertJob (newJob s.nextId sub.jobType sub.binaryUrl sub.binarySha256 p .pending 0 now) := by
  unfold handleSubmitJob
  split
  · exact .inl rfl
  · split
    · exact .inl rfl
    · exact .inr (createJob_some ‹_›)

/-- The result of one item of a bulk submission. -/
inductive ItemResult
  | success
  | invalid (message : String)
  /-- `err.Error()` of a failed insert. -/
  | storeError
deriving DecidableEq, Repr

/-- One item of `handleBulkJobs`: `CreateJobWithRetries` with status `pending`. -/
def handleBulkItem (s : Store) (sub : JobSubmission) (now : Int) : ItemResult × Store :=
  if sub.jobType = "" ∨ sub.binaryUrl = "" then
    (.invalid "type and binary_url are required", s)
  else
    match createJobWithRetries s ⟨sub.jobType, sub.binaryUrl, sub.binarySha256, sub.arguments,
        sub.envVariables, sub.priority, "pending", toInt32 sub.maxRetries⟩ now with
    | none => (.storeError, s)
    | some (_, s') => (.success, s')

theorem handleBulkItem_store (s : Store) (sub : JobSubmission) (now : Int) :
    (handleBulkItem s sub now).2 = s ∨ ∃ p, (handleBulkItem s sub now).2 =
      s.insertJob (newJob s.nextId sub.jobType sub.binaryUrl sub.binarySha256 p .pending
        (toInt32 sub.maxRetries) now) := by
  unfold handleBulkItem
  split
  · exact .inl rfl
  · split
    · exact .inl rfl
    · obtain ⟨p, st, hst, he⟩ := createJobWithRetries_some ‹_›
      cases hst
      exact .inr ⟨p, he⟩

/-- The tail of the guarded posts: `ErrNoRows` of the `RETURNING *` answers like a
rejected text. -/
def runGuarded (s : Store) (id : Nat) (u : JobUpdate) (message : String) : Response × Store :=
  if !u.textsOk then (writeError 500 message, s)
  else match s.updated id u with
    | none => (writeError 500 message, s.update id u)
    | some _ => (ok 204, s.update id u)

@[simp] theorem runGuarded_store (s : Store) (id : Nat) (u : JobUpdate) (message : String) :
    (runGuarded s id u message).2 = if u.textsOk = false then s else s.update id u := by
  unfold runGuarded; split <;> simp_all; split <;> rfl

def handleCancelJob (s : Store) (id : Nat) (now : Int) : Response × Store :=
  runGuarded s id (cancelJob now) "Failed to cancel job"

@[simp] theorem handleCancelJob_store (s : Store) (id : Nat) (now : Int) :
    (handleCancelJob s id now).2 = s.update id (cancelJob now) :=
  runGuarded_store _ _ _ _

/-- `handleHeartbeat`; `UpdateHeartbeat` is `:exec`, so no row is no error. -/
def handleHeartbeat (s : Store) (id : Nat) (req : HeartbeatRequest) (now : Int) :
    Response × Store :=
  if req.executorId = "" then (writeError 400 "executor_id is required", s)
  else if !(updateHeartbeat req.executorId now).textsOk then
    (writeError 500 "Failed to update heartbeat", s)
  else (ok 204, s.update id (updateHeartbeat req.executorId now))

@[simp] theorem handleHeartbeat_store (s : Store) (id : Nat) (req : HeartbeatRequest) (now : Int) :
    (handleHeartbeat s id req now).2 =
      if req.executorId = "" ∨ (updateHeartbeat req.executorId now).textsOk = false then s
      else s.update id (updateHeartbeat req.executorId now) := by
  unfold handleHeartbeat; split_ifs <;> simp_all

/-- The update `handleCompleteJob` runs, without the request's executor id. -/
def completeUpdate (req : CompleteRequest) (now : Int) : JobUpdate :=
  completeJob (some req.stdout) (some req.stderr) (some (toInt32 req.exitCode)) now

def handleCompleteJob (s : Store) (id : Nat) (req : CompleteRequest) (now : Int) :
    Response × Store :=
  if req.executorId = "" then (writeError 400 "executor_id is required", s)
  else runGuarded s id (completeUpdate req now) "Failed to complete job"

@[simp] theorem handleCompleteJob_store (s : Store) (id : Nat) (req : CompleteRequest) (now : Int) :
    (handleCompleteJob s id req now).2 =
      if req.executorId = "" ∨ (completeUpdate req now).textsOk = false then s
      else s.update id (completeUpdate req now) := by
  unfold handleCompleteJob; split_ifs <;> simp_all

/-- An empty string or a zero exit code is sent as NULL. -/
def nullIfEmpty (t : String) : Option String := if t = "" then none else some t

/-- The update `handleFailJob` runs. -/
def failUpdate (req : FailRequest) (now : Int) : JobUpdate :=
  failJob (nullIfEmpty req.stdout) (nullIfEmpty req.stderr)
    (if req.exitCode = 0 then none else some (toInt32 req.exitCode)) (some req.errorMessage) now

def handleFailJob (s : Store) (id : Nat) (req : FailRequest) (now : Int) : Response × Store :=
  if req.executorId = "" ∨ req.errorMessage = "" then
    (writeError 400 "executor_id and error_message are required", s)
  else runGuarded s id (failUpdate req now) "Failed to mark job as failed"

@[simp] theorem handleFailJob_store (s : Store) (id : Nat) (req : FailRequest) (now : Int) :
    (handleFailJob s id req now).2 =
      if (req.executorId = "" ∨ req.errorMessage = "") ∨ (failUpdate req now).textsOk = false then s
      else s.update id (failUpdate req now) := by
  unfold handleFailJob; split_ifs <;> simp_all

/-- The request check of `handleClaimJob`, before its transaction. -/
def claimRequestOk (req : ClaimRequest) : Bool := req.executorId != "" && req.executorIp != ""

/-! ## The background ticks, with no request between their statements -/

/-- `checkStaleJobs`: `ResetStaleJob` on each row `FindStaleJobs` returned. -/
def checkStaleJobs (_cfg : Config) (s : Store) (now : Int) : Store :=
  (findStaleJobs s now).foldl (fun t j => t.update j.id resetStaleJob) s

/-- The interval `cleanupOldJobs` passes, in wrapping `int64` microseconds. -/
def retentionInterval (cfg : Config) : Int := toInt64 (cfg.jobRetention * 3600000000)

def cleanupOldJobs (cfg : Config) (s : Store) (now : Int) : Store :=
  store.cleanupOldJobs s (retentionInterval cfg) now

/-- `retryFailedJobs`: `GetRetriableJobs`, then `IncrementJobRetry` for each. -/
def retryFailedJobs (s : Store) (now : Int) : Store :=
  (getRetriableJobs s now).foldl (fun t j => t.update j.id (incrementJobRetry now)) s

end executr.server
