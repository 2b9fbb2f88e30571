-- The sqlc queries of the job store, each a function of the tables and `NOW()`;
-- every guarded `UPDATE jobs` is a `JobUpdate`.
import Executr.Store.Rows

namespace executr.store

/-- One second, in the microseconds of a timestamp. -/
def second : Int := 1000000

/-- SQL's `t < bound` on a nullable timestamp: NULL compares true to nothing. -/
def sqlLt : Option Int → Int → Bool
  | some t, bound => decide (t < bound)
  | none, _ => false

/-- `status IN ('completed', 'failed', 'cancelled')`. -/
def Status.isTerminal : Status → Bool
  | .completed | .failed | .cancelled => true
  | .pending | .running => false

/-! ## Inserts -/

/-- The row an insert builds: the given columns and the column defaults. -/
def newJob (id : Nat) (jobType binaryUrl binarySha256 : String) (priority : Priority)
    (status : Status) (maxRetries now : Int) : Job where
  id := id
  jobType := jobType
  binaryUrl := binaryUrl
  binarySha256 := binarySha256
  priority := priority
  status := status
  executorId := none
  stdout := none
  stderr := none
  exitCode := none
  errorMessage := none
  createdAt := now
  startedAt := none
  completedAt := none
  lastHeartbeat := none
  maxRetries := maxRetries
  retryCount := 0
  retryAfter := none

/-- An insert into `jobs` under the fresh id. -/
def Store.insertJob (s : Store) (j : Job) : Store :=
  { s with jobs := s.jobs ++ [j], nextId := s.nextId + 1 }

theorem row_insertJob (s : Store) (j : Job) (i : Nat) :
    (s.insertJob j).row i = (s.row i).or (if j.id = i then some j else none) := by
  simp only [Store.row, Store.insertJob, List.find?_append]
  by_cases h : j.id = i
  · simp [h]
  · have : (j.id == i) = false := by simpa using h
    simp [List.find?_cons, this, h]

/-- `json.Marshal` writes a NUL as `\u0000`, which `jsonb` rejects. -/
def envJsonOk (env : List (String × String)) : Bool := env.all fun e => textOk e.1 && textOk e.2

/-- The `text` and `text[]` parameters of an insert and its `env_variables`. -/
def insertOk (jobType binaryUrl binarySha256 : String) (arguments : List String)
    (envVariables : List (String × String)) : Bool :=
  textOk jobType && textOk binaryUrl && textOk binarySha256 && arguments.all textOk && envJsonOk envVariables

structure CreateJobParams where
  jobType : String
  binaryUrl : String
  binarySha256 : String
  arguments : List String
  envVariables : List (String × String)
  priority : String

/-- `CreateJob`: none when PostgreSQL rejects a parameter or the priority. -/
def createJob (s : Store) (p : CreateJobParams) (now : Int) : Option (Job × Store) :=
  if insertOk p.jobType p.binaryUrl p.binarySha256 p.arguments p.envVariables then
    (Priority.ofText p.priority).map fun pr =>
      let j := newJob s.nextId p.jobType p.binaryUrl p.binarySha256 pr .pending 0 now
      (j, s.insertJob j)
  else none

structure CreateJobWithRetriesParams where
  jobType : String
  binaryUrl : String
  binarySha256 : String
  arguments : List String
  envVariables : List (String × String)
  priority : String
  status : String
  maxRetries : Int

/-- `CreateJobWithRetries`: none when PostgreSQL rejects a parameter or a CHECK fails. -/
def createJobWithRetries (s : Store) (p : CreateJobWithRetriesParams) (now : Int) :
    Option (Job × Store) :=
  if insertOk p.jobType p.binaryUrl p.binarySha256 p.arguments p.envVariables then
    match Priority.ofText p.priority, Status.ofText p.status with
    | some pr, some st =>
      let j := newJob s.nextId p.jobType p.binaryUrl p.binarySha256 pr st p.maxRetries now
      some (j, s.insertJob j)
    | _, _ => none
  else none

theorem createJob_some {s : Store} {p : CreateJobParams} {now : Int} {j : Job} {s' : Store}
    (h : createJob s p now = some (j, s')) :
    ∃ pr, s' = s.insertJob (newJob s.nextId p.jobType p.binaryUrl p.binarySha256 pr .pending 0 now) := by
  unfold createJob at h
  split at h
  · obtain ⟨pr, -, he⟩ := Option.map_eq_some'.mp h
    exact ⟨pr, (Prod.mk.inj he).2.symm⟩
  · cases h

theorem createJobWithRetries_some {s : Store} {p : CreateJobWithRetriesParams} {now : Int} {j : Job}
    {s' : Store} (h : createJobWithRetries s p now = some (j, s')) :
    ∃ pr st, Status.ofText p.status = some st ∧
      s' = s.insertJob (newJob s.nextId p.jobType p.binaryUrl p.binarySha256 pr st p.maxRetries now) := by
  unfold createJobWithRetries at h
  split at h
  · split at h
    · rename_i pr st _ hst
      cases h
      exact ⟨pr, st, hst, rfl⟩
    · cases h
  · cases h

/-- `RecordJobAttempt`: none on a text PostgreSQL rejects or a missing job. -/
def recordJobAttempt (s : Store) (jobId : Nat) (executorId executorIp : String) (now : Int) :
    Option Store :=
  if textOk executorId && textOk executorIp && s.jobs.any (·.id == jobId) then
    some { s with attempts := s.attempts ++ [⟨jobId, executorId, executorIp, now, none, .running, none⟩] }
  else none

/-! ## The guarded updates -/

def cancelJob (now : Int) : JobUpdate where
  cond j := j.status == .pending
  set j := { j with status := .cancelled, completedAt := some now }
  set_id _ := rfl

/-- The UPDATE of `ClaimNextJob`, on the row its subquery locked. -/
def claimNextJob (executorId : String) (now : Int) : JobUpdate where
  cond _ := true
  set j := { j with status := .running, executorId := some executorId, startedAt := some now,
                    lastHeartbeat := some now }
  set_id _ := rfl

def updateHeartbeat (executorId : String) (now : Int) : JobUpdate where
  cond j := j.executorId == some executorId && j.status == .running
  set j := { j with lastHeartbeat := some now }
  set_id _ := rfl
  texts := [executorId]

def completeJob (stdout stderr : Option String) (exitCode : Option Int) (now : Int) : JobUpdate where
  cond j := j.status == .running
  set j := { j with status := .completed, stdout := stdout, stderr := stderr,
                    exitCode := exitCode, completedAt := some now }
  set_id _ := rfl
  texts := stdout.toList ++ stderr.toList

def failJob (stdout stderr : Option String) (exitCode : Option Int) (errorMessage : Option String)
    (now : Int) : JobUpdate where
  cond j := j.status == .running
  set j := { j with status := .failed, stdout := stdout, stderr := stderr, exitCode := exitCode,
                    errorMessage := errorMessage, completedAt := some now }
  set_id _ := rfl
  texts := stdout.toList ++ stderr.toList ++ errorMessage.toList

def resetStaleJob : JobUpdate where
  cond j := j.status == .running
  set j := { j with status := .pending, executorId := none, startedAt := none,
                    lastHeartbeat := none }
  set_id _ := rfl

/-- `IncrementJobRetry`, with `POWER(2, retry_count)` on the count as a `Nat`. -/
def incrementJobRetry (now : Int) : JobUpdate where
  cond j := j.status == .failed && decide (j.retryCount < j.maxRetries)
  set j := { j with retryCount := j.retryCount + 1, status := .pending,
                    retryAfter := some (now + 60 * second * Int.pow 2 j.retryCount.toNat),
                    errorMessage := none, stdout := none, stderr := none, exitCode := none,
                    startedAt := none, completedAt := none, executorId := none,
                    lastHeartbeat := none }
  set_id _ := rfl

/-! ## Selects and deletes -/

/-- The WHERE clause of `FindStaleJobs`, with its fixed `INTERVAL '15 seconds'`. -/
def isStale (now : Int) (j : Job) : Bool :=
  j.status == .running && sqlLt j.lastHeartbeat (now - 15 * second)

def findStaleJobs (s : Store) (now : Int) : List Job := s.jobs.filter (isStale now)

/-- The WHERE clause of `CleanupOldJobs`. -/
def cleanupGone (interval now : Int) (j : Job) : Bool :=
  j.status.isTerminal && sqlLt j.completedAt (now - interval)

/-- `CleanupOldJobs`; `ON DELETE CASCADE` deletes the rows' attempts too. -/
def cleanupOldJobs (s : Store) (interval now : Int) : Store where
  jobs := s.jobs.filter fun j => !cleanupGone interval now j
  attempts := s.attempts.filter fun a =>
    !s.jobs.any fun j => j.id == a.jobId && cleanupGone interval now j
  nextId := s.nextId

theorem find?_id_filter {l : List Job} (hl : (l.map (·.id)).Nodup) (p : Job → Bool) (i : Nat) :
    (l.filter p).find? (·.id == i) = (l.find? (·.id == i)).filter p := by
  induction l with
  | nil => rfl
  | cons x xs ih =>
    simp only [List.map_cons, List.nodup_cons, List.mem_map] at hl
    by_cases hx : x.id = i
    · have hnone : xs.find? (·.id == i) = none := by
        simp only [List.find?_eq_none, beq_iff_eq]
        exact fun y hy hyi => hl.1 ⟨y, hy, hyi.trans hx.symm⟩
      by_cases hp : p x
      · simp [List.filter_cons, Option.filter, hp, hx]
      · simp [List.filter_cons, Option.filter, hp, hx, ih hl.2, hnone]
    · by_cases hp : p x <;> simp [List.filter_cons, hp, hx, ih hl.2]

theorem row_cleanupOldJobs {s : Store} (hs : (s.jobs.map (·.id)).Nodup) (interval now : Int)
    (i : Nat) :
    (cleanupOldJobs s interval now).row i =
      (s.row i).filter fun j => !cleanupGone interval now j := by
  simp only [Store.row, cleanupOldJobs]
  exact find?_id_filter hs _ i

/-- The WHERE clause of `GetRetriableJobs`. -/
def retriable (now : Int) (j : Job) : Bool :=
  j.status == .failed && decide (j.retryCount < j.maxRetries) &&
    match j.retryAfter with
    | none => true
    | some t => decide (t < now)

/-- `ORDER BY priority, created_at`: the priority column is text here. -/
def retryOrder (a b : Job) : Bool :=
  compare a.priority.text b.priority.text == .lt ||
    (a.priority.text == b.priority.text && decide (a.createdAt ≤ b.createdAt))

def getRetriableJobs (s : Store) (now : Int) : List Job :=
  ((s.jobs.filter (retriable now)).mergeSort retryOrder).take 10

/-- The parameters of `ListJobs`; sqlc makes the three `$n::text` Go strings, never NULL. -/
structure ListJobsParams where
  column1 : String
  column2 : String
  column3 : String
  limit : Int
  offset : Int

/-- `($n::text IS NULL OR col = $n)`, NULL being none. -/
def isNullOrEq (param : Option String) (col : String) : Bool :=
  param.isNone || param == some col

/-- The WHERE clause of `ListJobs`. -/
def listFilter (p : ListJobsParams) (j : Job) : Bool :=
  isNullOrEq (some p.column1) j.status.text && isNullOrEq (some p.column2) j.jobType &&
    isNullOrEq (some p.column3) j.priority.text

/-- `ListJobs`: `ORDER BY created_at DESC LIMIT $4 OFFSET $5`, ties in table order;
none when PostgreSQL rejects a negative LIMIT or OFFSET. -/
def listJobs (s : Store) (p : ListJobsParams) : Option (List Job) :=
  if p.limit < 0 ∨ p.offset < 0 then none
  else some ((((s.jobs.filter (listFilter p)).mergeSort fun a b => decide (b.createdAt ≤ a.createdAt)).drop
    p.offset.toNat).take p.limit.toNat)

/-! ## The ClaimNextJob subquery -/

/-- `a` stands strictly before `b` in the ORDER BY of `ClaimNextJob`. -/
def Job.claimsBefore (a b : Job) : Prop :=
  a.priority.rank < b.priority.rank ∨
    a.priority.rank = b.priority.rank ∧ a.createdAt < b.createdAt

instance : DecidableRel Job.claimsBefore := fun _ _ => inferInstanceAs (Decidable (_ ∨ _))

/-- A row the subquery can lock: pending and held by no other transaction. -/
def claimable (locked : List Nat) (j : Job) : Prop := j.status = .pending ∧ j.id ∉ locked

instance (locked : List Nat) : DecidablePred (claimable locked) :=
  fun _ => inferInstanceAs (Decidable (_ ∧ _))

/-- What the `FOR UPDATE SKIP LOCKED LIMIT 1` subquery may return: a first claimable
row of the order (ties in any order), or nothing. -/
def ClaimPick (s : Store) (locked : List Nat) : Option Nat → Prop
  | some i => ∃ j ∈ s.jobs, j.id = i ∧ claimable locked j ∧
      ∀ k ∈ s.jobs, claimable locked k → ¬ k.claimsBefore j
  | none => ∀ k ∈ s.jobs, ¬ claimable locked k

instance (s : Store) (locked : List Nat) : (o : Option Nat) → Decidable (ClaimPick s locked o)
  | some _ => inferInstanceAs (Decidable (∃ _ ∈ _, _))
  | none => inferInstanceAs (Decidable (∀ _ ∈ _, _))

/-- One step of a scan that keeps the first row of the order. -/
def firstOf (best : Option Job) (j : Job) : Option Job :=
  match best with
  | none => some j
  | some b => if j.claimsBefore b then some j else some b

/-- The pick of a plan that scans the claimable rows in table order. -/
def claimCandidate (s : Store) (locked : List Nat) : Option Nat :=
  (((s.jobs.filter fun j => decide (claimable locked j)).foldl firstOf none).map (·.id))

theorem claimsBefore_trans {a b c : Job} (h1 : a.claimsBefore b) (h2 : b.claimsBefore c) :
    a.claimsBefore c := by
  unfold Job.claimsBefore at *
  omega

theorem not_claimsBefore_self (a : Job) : ¬ a.claimsBefore a := by
  unfold Job.claimsBefore
  omega

def FirstOf (xs : List Job) : Option Job → Prop
  | none => xs = []
  | some b => b ∈ xs ∧ ∀ k ∈ xs, ¬ k.claimsBefore b

theorem firstOf_step {xs : List Job} {best : Option Job} (j : Job) (h : FirstOf xs best) :
    FirstOf (xs ++ [j]) (firstOf best j) := by
  cases best with
  | none =>
    simp only [FirstOf] at h
    subst h
    simpa [FirstOf, firstOf] using not_claimsBefore_self j
  | some b =>
    obtain ⟨hb, hmin⟩ := h
    simp only [firstOf]
    split
    · rename_i hjb
      refine ⟨by simp, fun k hk hkj => ?_⟩
      simp only [List.mem_append, List.mem_singleton] at hk
      rcases hk with hk | rfl
      · exact hmin k hk (claimsBefore_trans hkj hjb)
      · exact not_claimsBefore_self k hkj
    · rename_i hjb
      refine ⟨by simp [hb], fun k hk => ?_⟩
      simp only [List.mem_append, List.mem_singleton] at hk
      rcases hk with hk | rfl
      · exact hmin k hk
      · exact hjb

theorem foldl_firstOf (l xs : List Job) (best : Option Job) (h : FirstOf xs best) :
    FirstOf (xs ++ l) (l.foldl firstOf best) := by
  induction l generalizing xs best with
  | nil => simpa using h
  | cons j l ih => simpa using ih _ _ (firstOf_step j h)

theorem claimCandidate_pick (s : Store) (locked : List Nat) :
    ClaimPick s locked (claimCandidate s locked) := by
  have h := foldl_firstOf (s.jobs.filter fun j => decide (claimable locked j)) [] none rfl
  simp only [List.nil_append] at h
  unfold claimCandidate
  cases hf : (s.jobs.filter fun j => decide (claimable locked j)).foldl firstOf none with
  | none =>
    rw [hf] at h
    simpa [ClaimPick, FirstOf, List.filter_eq_nil_iff] using h
  | some b =>
    rw [hf] at h
    obtain ⟨hb, hmin⟩ := h
    simp only [List.mem_filter, decide_eq_true_eq] at hb hmin
    exact ⟨b, hb.1, rfl, hb.2, fun k hk hc => hmin k ⟨hk, hc⟩⟩

end executr.store
