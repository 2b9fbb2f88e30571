-- The `jobs` and `job_attempts` tables with the columns the queries use, and the
-- guarded update that every `UPDATE jobs ... WHERE id = $1 AND ..` is.
import Mathlib.Data.List.Basic

namespace executr.store

/-! ## The enumerations -/

/-- `jobs.status`, as its CHECK constraint allows it. -/
inductive Status
  | pending | running | completed | failed | cancelled
deriving DecidableEq, Repr

/-- The CHECK constraint on `status`. -/
def Status.ofText (t : String) : Option Status :=
  if t = "pending" then some .pending
  else if t = "running" then some .running
  else if t = "completed" then some .completed
  else if t = "failed" then some .failed
  else if t = "cancelled" then some .cancelled
  else none

/-- The text the column stores. -/
def Status.text : Status → String
  | .pending => "pending"
  | .running => "running"
  | .completed => "completed"
  | .failed => "failed"
  | .cancelled => "cancelled"

/-- `jobs.priority`, as its CHECK constraint allows it. -/
inductive Priority
  | foreground | background | bestEffort
deriving DecidableEq, Repr

/-- The text the column stores. -/
def Priority.text : Priority → String
  | .foreground => "foreground"
  | .background => "background"
  | .bestEffort => "best_effort"

/-- The CHECK constraint on `priority`. -/
def Priority.ofText (t : String) : Option Priority :=
  if t = "foreground" then some .foreground
  else if t = "background" then some .background
  else if t = "best_effort" then some .bestEffort
  else none

/-- The `CASE priority` of `ClaimNextJob`. -/
def Priority.rank : Priority → Nat
  | .foreground => 1
  | .background => 2
  | .bestEffort => 3

/-- `job_attempts.status`, as its CHECK constraint allows it. -/
inductive AttemptStatus
  | running | completed | failed | timeout
deriving DecidableEq, Repr

/-! ## The rows -/

/-- A row of `jobs`, with timestamps in microseconds and `id` for its UUID. -/
structure Job where
  id : Nat
  jobType : String
  binaryUrl : String
  binarySha256 : String
  priority : Priority
  status : Status
  executorId : Option String
  stdout : Option String
  stderr : Option String
  exitCode : Option Int
  errorMessage : Option String
  createdAt : Int
  startedAt : Option Int
  completedAt : Option Int
  lastHeartbeat : Option Int
  maxRetries : Int
  retryCount : Int
  retryAfter : Option Int
deriving DecidableEq, Repr

/-- A row of `job_attempts`. -/
structure Attempt where
  jobId : Nat
  executorId : String
  executorIp : String
  startedAt : Int
  endedAt : Option Int
  status : AttemptStatus
  errorMessage : Option String
deriving DecidableEq, Repr

/-- The two tables; `nextId` stands for `gen_random_uuid`, an id no row ever had. -/
structure Store where
  jobs : List Job
  attempts : List Attempt
  nextId : Nat
deriving DecidableEq, Repr

/-- The empty tables after the migrations. -/
def Store.empty : Store := ⟨[], [], 0⟩

/-- `SELECT * FROM jobs WHERE id = $1`. -/
def Store.row (s : Store) (id : Nat) : Option Job := s.jobs.find? (·.id == id)

/-! ## The guarded row update -/

/-- PostgreSQL rejects a text holding NUL: the statement fails and changes nothing. -/
def textOk (t : String) : Bool := !t.data.contains (Char.ofNat 0)

/-- The SET and WHERE clauses of an `UPDATE jobs .. WHERE id = $1 AND cond` and its texts. -/
structure JobUpdate where
  cond : Job → Bool
  set : Job → Job
  set_id : ∀ j, (set j).id = j.id
  texts : List String := []

/-- PostgreSQL takes every text parameter of the statement. -/
def JobUpdate.textsOk (u : JobUpdate) : Bool := u.texts.all textOk

/-- The update applied to the table. -/
def Store.update (s : Store) (id : Nat) (u : JobUpdate) : Store :=
  { s with jobs := s.jobs.map fun j => if j.id == id && u.cond j then u.set j else j }

/-- The row that `RETURNING *` gives back, or none (`ErrNoRows`). -/
def Store.updated (s : Store) (id : Nat) (u : JobUpdate) : Option Job :=
  ((s.row id).filter u.cond).map u.set

section update

variable {s : Store} {id i : Nat} {u : JobUpdate}

@[simp] theorem update_attempts : (s.update id u).attempts = s.attempts := rfl

@[simp] theorem update_nextId : (s.update id u).nextId = s.nextId := rfl

theorem row_update :
    (s.update id u).row i = (s.row i).map fun j => if j.id == id && u.cond j then u.set j else j := by
  simp only [Store.row, Store.update, List.find?_map]
  congr 2
  funext j
  simp only [Function.comp]
  split <;> simp [u.set_id]

theorem row_update_of_ne (h : i ≠ id) : (s.update id u).row i = s.row i := by
  rw [row_update]
  cases hr : s.row i with
  | none => rfl
  | some j =>
    have : j.id = i := by simpa using List.find?_some hr
    simp [this, h]

theorem row_update_self :
    (s.update id u).row id = (s.row id).map fun j => if u.cond j then u.set j else j := by
  rw [row_update]
  cases hr : s.row id with
  | none => rfl
  | some j =>
    have : j.id = id := by simpa using List.find?_some hr
    simp [this]

/-- A row the update changes has the id and meets the WHERE clause. -/
theorem row_changed (h : (s.update id u).row i ≠ s.row i) :
    i = id ∧ ∃ r, s.row i = some r ∧ u.cond r ∧ (s.update id u).row i = some (u.set r) := by
  by_cases hi : i = id
  · subst hi
    rw [row_update_self] at h ⊢
    cases hr : s.row i with
    | none => simp [hr] at h
    | some r =>
      by_cases hc : u.cond r
      · exact ⟨rfl, r, rfl, hc, by simp [hc]⟩
      · simp [hr, hc] at h
  · exact absurd (row_update_of_ne hi) h

end update

theorem row_id {s : Store} {i : Nat} {j : Job} (h : s.row i = some j) : j.id = i := by
  simpa using List.find?_some h

theorem row_mem {s : Store} {i : Nat} {j : Job} (h : s.row i = some j) : j ∈ s.jobs :=
  List.mem_of_find?_eq_some h

end executr.store
