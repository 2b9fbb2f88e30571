-- One run of `executeJob`: its heartbeat goroutine, the one report it sends, and
-- what the server's complete or fail handler makes of it.
import Executr.Executor.Runner
import Executr.Server.Responses
import Executr.Server.Endpoints

namespace executr.executor

open executr.server
open executr.store (Store Job Status Priority JobUpdate newJob row_update_self)

/-! ## The runner -/

/-- How `cmd.Run` returns. -/
inductive RunErr
  /-- nil: the process exited with status 0. -/
  | none
  /-- An `*exec.ExitError` of a process that exited with a status that is not 0. -/
  | exited (status : Nat) (h : 0 < status ∧ status < 256)
/-- An `*exec.ExitError` of a signal, the context's kill included: `ExitCode()` is -1. -/
  | signaled
  /-- Any other error, such as a binary that does not start, with its text. -/
  | other (message : String)
deriving DecidableEq, Repr

/-- The exit code `Execute` takes from what `cmd.Run` returned. -/
def RunErr.exitCode : RunErr → Int
  | .none => 0
  | .exited status _ => status
  | .signaled => -1
  | .other _ => -1

/-- The bytes of a Go string. -/
def utf8 (t : String) : List UInt8 := t.toUTF8.data.toList

/-- The stderr `Execute` keeps, with an error that is not an exit written after it. -/
def withRunError (stderr : List UInt8) : RunErr → List UInt8
  | .other message => stderr ++ utf8 ("\nExecution error: " ++ message)
  | _ => stderr

/-- `models.JobResult`, the outputs as bytes. -/
structure JobResult where
  stdout : List UInt8
  stderr : List UInt8
  exitCode : Int
deriving DecidableEq, Repr

/-- `JobRunner.Execute`; `none` is a panic of `truncateOutput`. -/
def execute (stdout stderr : List UInt8) (err : RunErr) : Option JobResult := do
  let stdoutStr ← truncateOutput stdout
  let stderrStr ← truncateOutput (withRunError stderr err)
  pure ⟨stdoutStr, stderrStr, err.exitCode⟩

/-- The `cmd.Env` of `Execute`: only the job's `key=value` texts. -/
def jobEnv (envVars : List (String × String)) : List String :=
  if envVars.length > 0 then envVars.map fun e => e.1 ++ "=" ++ e.2 else []

theorem jobEnv_eq (envVars : List (String × String)) :
    jobEnv envVars = envVars.map fun e => e.1 ++ "=" ++ e.2 := by
  unfold jobEnv
  split
  · rfl
  · simp_all

theorem RunErr.exitCode_eq_zero {err : RunErr} : err.exitCode = 0 ↔ err = .none := by
  cases err with
  | exited status h => simp only [exitCode, reduceCtorEq, iff_false]; omega
  | _ => simp [exitCode]

theorem RunErr.exitCode_range (err : RunErr) : -1 ≤ err.exitCode ∧ err.exitCode < 256 := by
  cases err with
  | exited status h => simp only [exitCode]; omega
  | _ => simp [exitCode]

/-- `Execute` never panics: it keeps the exit code and at most 1 MiB of each output. -/
theorem execute_spec (stdout stderr : List UInt8) (err : RunErr) :
    ∃ res, execute stdout stderr err = some res ∧ res.exitCode = err.exitCode ∧
      res.stdout.length ≤ maxOutputSize ∧ res.stderr.length ≤ maxOutputSize := by
  obtain ⟨o, ho, hol⟩ := truncateOutput_bounded stdout
  obtain ⟨e, he, hel⟩ := truncateOutput_bounded (withRunError stderr err)
  exact ⟨⟨o, e, err.exitCode⟩, by simp [execute, ho, he], rfl, hol, hel⟩

/-! ## The report -/

/-- `fmt.Sprintf("%s-%s", cfg.Name, uuid.New().String()[:8])` in `New`. -/
def executorIdOf (name uuid8 : String) : String := name ++ "-" ++ uuid8

theorem executorIdOf_ne_empty (name uuid8 : String) : executorIdOf name uuid8 ≠ "" := fun h => by
  have := congrArg String.length h
  have hsep : "-".length = 1 := rfl
  simp only [executorIdOf, String.length_append, String.length_empty] at this
  omega

/-- `client.CompleteJob` or `client.FailJob` with its request, the outputs as bytes. -/
inductive Report
  | complete (executorId : String) (stdout stderr : List UInt8) (exitCode : Int)
  | fail (executorId errorMessage : String) (stdout stderr : List UInt8) (exitCode : Int)
deriving DecidableEq, Repr

/-- `failJob` on a result with only `Stderr` and `ExitCode`; none when `uuid.Parse` fails. -/
def failJob (executorId : String) (jobID : List UInt8) (stderr : String) (exitCode : Int) :
    Option Report :=
  (uuidParse jobID).map fun _ => .fail executorId stderr [] (utf8 stderr) exitCode

/-- `time.Duration(n) * time.Second`. -/
def heartbeatPeriod (heartbeatInterval : Int) : Int := toInt64 (heartbeatInterval * client.timeSecond)

/-- `sendHeartbeats` over `ticks` ticks: `time.NewTicker` panics (none) on a period that
is not positive; each tick sends `client.Heartbeat` for the parsed `jobID`. -/
def sendHeartbeats (heartbeatInterval : Int) (executorId : String) (jobID : List UInt8) (ticks : Nat) :
    Option (List (List UInt8 × String)) :=
  if heartbeatPeriod heartbeatInterval ≤ 0 then none
  else some ((List.replicate ticks jobID).filterMap fun id => (uuidParse id).map (·, executorId))

/-- What one run meets: ticks, `MkdirAll`'s error, `GetBinary`'s result, the process. -/
structure JobWorld where
  ticks : Nat
  mkdirErr : Option String
  binary : Except String String
  stdout : List UInt8
  stderr : List UInt8
  runErr : RunErr

/-- Every stage succeeds and the process exits 0. -/
def JobWorld.succeeds (w : JobWorld) : Bool :=
  w.mkdirErr.isNone && w.binary.isOk && w.runErr == .none

/-- The report of `executeJob` once its heartbeat goroutine is started. -/
def runReport (executorId : String) (jobID : List UInt8) (w : JobWorld) : Option (Option Report) :=
  match w.mkdirErr with
  | some err => some (failJob executorId jobID ("Failed to create job directory: " ++ err) (-1))
  | none =>
    match w.binary with
    | .error err => some (failJob executorId jobID ("Failed to get binary: " ++ err) (-1))
    | .ok _ => (execute w.stdout w.stderr w.runErr).map fun result =>
      if result.exitCode = 0 then some (.complete executorId result.stdout result.stderr result.exitCode)
      else some (.fail executorId "Job failed with non-zero exit code" result.stdout result.stderr
        result.exitCode)

/-- `executeJob`: the heartbeats sent and the report; none is a panic. -/
def executeJob (heartbeatInterval : Int) (executorId : String) (job : UUID) (w : JobWorld) :
    Option (List (List UInt8 × String) × Option Report) := do
  let beats ← sendHeartbeats heartbeatInterval executorId job.string w.ticks
  let report ← runReport executorId job.string w
  pure (beats, report)

namespace Report

def executorId : Report → String
  | .complete x .. | .fail x .. => x

def stdout : Report → List UInt8
  | .complete _ o .. | .fail _ _ o .. => o

def stderr : Report → List UInt8
  | .complete _ _ e _ | .fail _ _ _ e _ => e

def isComplete : Report → Bool
  | .complete .. => true
  | .fail .. => false

/-- A completion has exit code 0; a failure a message and a non-zero exit code. -/
def Sound : Report → Prop
  | .complete _ _ _ c => c = 0
  | .fail _ m _ _ c => m ≠ "" ∧ c ≠ 0 ∧ -1 ≤ c ∧ c < 256

end Report

theorem prefixed_ne_empty {a : String} (b : String) (ha : 0 < a.length) : a ++ b ≠ "" := fun h => by
  have := congrArg String.length h
  simp only [String.length_append, String.length_empty] at this
  omega

theorem sendHeartbeats_spec {heartbeatInterval : Int} (hp : 0 < heartbeatPeriod heartbeatInterval)
    (x : String) (job : UUID) (ticks : Nat) :
    sendHeartbeats heartbeatInterval x job.string ticks = some (List.replicate ticks (job.bytes, x)) := by
  rw [sendHeartbeats, if_neg (Int.not_le.mpr hp),
    List.filterMap_replicate_of_some (by rw [job.uuidParse_string, Option.map_some'])]

theorem failJob_job (x : String) (job : UUID) {m : String} (hm : m ≠ "") :
    ∃ r, failJob x job.string m (-1) = some r ∧ r.executorId = x ∧ r.Sound ∧ r.isComplete = false :=
  ⟨.fail x m [] (utf8 m) (-1), by simp only [failJob, job.uuidParse_string, Option.map_some'], rfl,
    show m ≠ "" ∧ _ from ⟨hm, by omega, by omega, by omega⟩, rfl⟩

theorem runReport_spec (x : String) (job : UUID) (w : JobWorld) :
    ∃ r, runReport x job.string w = some (some r) ∧ r.executorId = x ∧ r.Sound ∧
      r.isComplete = w.succeeds ∧
      (w.mkdirErr = none → w.binary.isOk → r.stdout.length ≤ maxOutputSize ∧ r.stderr.length ≤ maxOutputSize) := by
  rcases hm : w.mkdirErr with _ | err
  · rcases hb : w.binary with err | path
    · obtain ⟨r, hr, hx, hs, hc⟩ := failJob_job x job (@prefixed_ne_empty "Failed to get binary: " err (by decide))
      refine ⟨r, by simp only [runReport, hm, hb, hr], hx, hs, ?_,
        fun _ h => by simp [hb, Except.isOk, Except.toBool] at h⟩
      simp [hc, JobWorld.succeeds, hb, Except.isOk, Except.toBool]
    · obtain ⟨res, hres, hc, ho, he⟩ := execute_spec w.stdout w.stderr w.runErr
      have hsucc : w.succeeds = (w.runErr == .none) := by
        simp [JobWorld.succeeds, hm, hb, Except.isOk, Except.toBool]
      by_cases h0 : res.exitCode = 0
      · refine ⟨.complete x res.stdout res.stderr res.exitCode, ?_, rfl, h0, ?_, fun _ _ => ⟨ho, he⟩⟩
        · simp [runReport, hm, hb, hres, h0]
        · simp [hsucc, Report.isComplete, RunErr.exitCode_eq_zero.mp (hc ▸ h0)]
      · refine ⟨.fail x "Job failed with non-zero exit code" res.stdout res.stderr res.exitCode, ?_,
          rfl, ⟨by decide, h0, hc ▸ w.runErr.exitCode_range⟩, ?_, fun _ _ => ⟨ho, he⟩⟩
        · simp [runReport, hm, hb, hres, h0]
        · have : w.runErr ≠ .none := fun h => h0 (hc ▸ RunErr.exitCode_eq_zero.mpr h)
          simp [hsucc, Report.isComplete, this]
  · obtain ⟨r, hr, hx, hs, hc⟩ :=
      failJob_job x job (@prefixed_ne_empty "Failed to create job directory: " err (by decide))
    exact ⟨r, by simp only [runReport, hm, hr], hx, hs,
      by simp [hc, JobWorld.succeeds, hm], fun h => nomatch h⟩

/-! ## At the server -/

section post

-- The server reads an output as the JSON string the client encodes its bytes as.
variable (text : List UInt8 → String)

/-- The update of the report's handler. -/
def Report.update (now : Int) : Report → JobUpdate
  | .complete x o e c => completeUpdate ⟨x, text o, text e, c⟩ now
  | .fail x m o e c => failUpdate ⟨x, m, text o, text e, c⟩ now

def Report.message : Report → String
  | .complete .. => "Failed to complete job"
  | .fail .. => "Failed to mark job as failed"

/-- The report posted for job `id`, reaching `handleCompleteJob` or `handleFailJob`. -/
def Report.post (s : Store) (id : Nat) (now : Int) : Report → Response × Store
  | .complete x o e c => handleCompleteJob s id ⟨x, text o, text e, c⟩ now
  | .fail x m o e c => handleFailJob s id ⟨x, m, text o, text e, c⟩ now

theorem Report.post_answer {r : Report} (hx : r.executorId ≠ "") (hr : r.Sound) (s : Store) (id : Nat)
    (now : Int) : GuardedAnswer s id (r.update text now) r.message (r.post text s id now) := by
  cases r with
  | complete x o e c =>
    simpa only [post, handleCompleteJob, if_neg (show x ≠ "" from hx)] using runGuarded_answer _
  | fail x m o e c =>
    have hf : ¬(x = "" ∨ m = "") := by simp only [not_or]; exact ⟨hx, hr.1⟩
    simpa only [post, handleFailJob, if_neg hf] using runGuarded_answer _

/-- A running row closed at `now` under its claimer's id, as the report says. -/
def Report.Closes (r : Report) (now : Int) (j j' : Job) : Prop :=
  j'.executorId = j.executorId ∧ j'.completedAt = some now ∧
    if r.isComplete then j'.status = .completed ∧ j'.exitCode = some 0
    else j'.status = .failed ∧ ∃ c m, j'.exitCode = some c ∧ c ≠ 0 ∧ j'.errorMessage = some m ∧ m ≠ ""

theorem Report.update_running {r : Report} (hr : r.Sound) (now : Int) {j : Job}
    (hj : j.status = .running) :
    (r.update text now).cond j ∧ r.Closes now j ((r.update text now).set j) := by
  cases r with
  | complete x o e c =>
    simp only [Sound] at hr
    subst hr
    simp [update, completeUpdate, executr.store.completeJob, hj, Closes, isComplete, toInt32]
  | fail x m o e c =>
    obtain ⟨hm, hc, hlo, hhi⟩ := hr
    have h32 : toInt32 c = c := by
      simp only [toInt32, Int.bmod, show ((Nat.pow 2 32 : Nat) : Int) = 4294967296 from rfl]
      split <;> omega
    refine ⟨by simp [update, failUpdate, executr.store.failJob, hj], rfl, rfl, ?_⟩
    simp only [update, failUpdate, executr.store.failJob, isComplete, if_neg hc, h32]
    exact ⟨trivial, c, m, rfl, hc, rfl, hm⟩

end post

theorem executeJob_report {heartbeatInterval : Int} {x : String} (hx : x ≠ "") (job : UUID) (w : JobWorld)
    (hp : 0 < heartbeatPeriod heartbeatInterval) :
    ∃ r, executeJob heartbeatInterval x job w = some (List.replicate w.ticks (job.bytes, x), some r) ∧
      r.executorId = x ∧ r.Sound ∧ r.isComplete = w.succeeds ∧
      (w.mkdirErr = none → w.binary.isOk →
        r.stdout.length ≤ maxOutputSize ∧ r.stderr.length ≤ maxOutputSize) ∧
      ∀ text s id now, GuardedAnswer s id (r.update text now) r.message (r.post text s id now) := by
  obtain ⟨r, hr, hrx, hs, hc, ho⟩ := runReport_spec x job w
  exact ⟨r, by simp [executeJob, sendHeartbeats_spec hp, hr], hrx, hs, hc, ho,
    fun text => r.post_answer text (hrx ▸ hx) hs⟩

/-- A period that is not positive panics; otherwise a run sends one heartbeat per tick and
exactly one sound report with the executor's id, which the server guards. -/
theorem execute_job_reports_once (heartbeatInterval : Int) (name uuid8 : String) (job : UUID)
    (w : JobWorld) :
    (heartbeatPeriod heartbeatInterval ≤ 0 → executeJob heartbeatInterval (executorIdOf name uuid8) job w = none) ∧
    (0 < heartbeatPeriod heartbeatInterval → ∃ r,
      executeJob heartbeatInterval (executorIdOf name uuid8) job w =
        some (List.replicate w.ticks (job.bytes, executorIdOf name uuid8), some r) ∧
      r.executorId = executorIdOf name uuid8 ∧ r.Sound ∧ r.isComplete = w.succeeds ∧
      (w.mkdirErr = none → w.binary.isOk →
        r.stdout.length ≤ maxOutputSize ∧ r.stderr.length ≤ maxOutputSize) ∧
      ∀ text s id now, GuardedAnswer s id (r.update text now) r.message (r.post text s id now)) :=
  ⟨fun hp => by simp [executeJob, sendHeartbeats, hp], executeJob_report (executorIdOf_ne_empty _ _) job w⟩

/-- A report reaching a running row closes it with 204, or gets 500 on a text with NUL. -/
theorem report_settles_running_row (heartbeatInterval : Int) (name uuid8 : String) (job : UUID)
    (w : JobWorld) (text : List UInt8 → String) (s : Store) (id : Nat) (now : Int) {j : Job}
    (hp : 0 < heartbeatPeriod heartbeatInterval) (hj : s.row id = some j) (hrun : j.status = .running) :
    ∃ beats r, executeJob heartbeatInterval (executorIdOf name uuid8) job w = some (beats, some r) ∧
      r.isComplete = w.succeeds ∧
      ((r.update text now).textsOk = true → ∃ j', (r.post text s id now).1 = ok 204 ∧
        (r.post text s id now).2.row id = some j' ∧ r.Closes now j j') ∧
      ((r.update text now).textsOk = false → (r.post text s id now).1 = writeError 500 r.message ∧
        ∀ i, (r.post text s id now).2.row i = s.row i) := by
  obtain ⟨r, hr, -, hs, hc, -, hans⟩ := executeJob_report (executorIdOf_ne_empty name uuid8) job w hp
  obtain ⟨hcond, hcl⟩ := r.update_running text hs now hrun
  have hsome : ((s.row id).filter (r.update text now).cond).isSome := by
    rw [hj, Option.filter_some, if_pos hcond]; rfl
  have hg := hans text s id now
  refine ⟨_, r, hr, hc, fun ht => ?_, fun ht => ?_⟩
  · rw [GuardedAnswer, if_pos ⟨ht, hsome⟩] at hg
    rw [hg, row_update_self, hj, Option.map_some', if_pos hcond]
    exact ⟨_, rfl, rfl, hcl⟩
  · rwa [GuardedAnswer, if_neg (by simp [ht])] at hg

/-- A job an executor claimed at time 0: its row runs under the executor's id. -/
def claimedJob : Job :=
  { newJob 0 "build" "b" "" .foreground .running 0 0 with
    executorId := some "worker-1a2b3c4d", startedAt := some 0, lastHeartbeat := some 0 }

def claimedStore : Store := ⟨[claimedJob], [], 1⟩

/-- The run of that job whose process a signal ended, after two heartbeats. -/
def killedRun : JobWorld := ⟨2, none, .ok "/cache/b", [], [], .signaled⟩

/-- An id of sixteen zero bytes. -/
def zeroJob : UUID := ⟨List.replicate 16 0, rfl⟩

theorem killed_run_fails_claimed_row :
    0 < heartbeatPeriod 5 ∧ claimedStore.row 0 = some claimedJob ∧ claimedJob.status = .running ∧
    ∃ beats r, executeJob 5 (executorIdOf "worker" "1a2b3c4d") zeroJob killedRun = some (beats, some r) ∧
      r.isComplete = killedRun.succeeds ∧
      ((r.update (fun _ => "") 5).textsOk = true → ∃ j', (r.post (fun _ => "") claimedStore 0 5).1 = ok 204 ∧
        (r.post (fun _ => "") claimedStore 0 5).2.row 0 = some j' ∧ r.Closes 5 claimedJob j') ∧
      ((r.update (fun _ => "") 5).textsOk = false →
        (r.post (fun _ => "") claimedStore 0 5).1 = writeError 500 r.message ∧
        ∀ i, (r.post (fun _ => "") claimedStore 0 5).2.row i = claimedStore.row i) :=
  ⟨by decide, rfl, rfl, report_settles_running_row 5 "worker" "1a2b3c4d" zeroJob killedRun (fun _ => "")
    claimedStore 0 5 (by decide) rfl rfl⟩

end executr.executor
