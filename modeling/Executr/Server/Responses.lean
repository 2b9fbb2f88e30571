-- What the single-job handlers answer: no row meeting a guarded post's WHERE
-- clause is the same 500 as a database error.
import Executr.Server.Handlers

namespace executr.server

open executr.store

/-! ## Cancel, complete and fail -/

section guarded

variable {s : Store} {id : Nat} {u : JobUpdate}

theorem row_update_of_filter_none (h : (s.row id).filter u.cond = none) (i : Nat) :
    (s.update id u).row i = s.row i := by
  by_cases hi : i = id
  · subst hi
    rw [row_update_self]
    cases hr : s.row i with
    | none => rfl
    | some j =>
      rw [hr, Option.filter_some] at h
      have hc : u.cond j = false := by simpa using h
      simp [hc]
  · exact row_update_of_ne hi

/-- A guarded post: 204 and its update when its texts pass and the row meets the
WHERE clause, else 500 with its message and no row changed. -/
def GuardedAnswer (s : Store) (id : Nat) (u : JobUpdate) (message : String)
    (r : Response × Store) : Prop :=
  if u.textsOk ∧ ((s.row id).filter u.cond).isSome then r = (ok 204, s.update id u)
  else r.1 = writeError 500 message ∧ ∀ i, r.2.row i = s.row i

theorem runGuarded_answer (message : String) : GuardedAnswer s id u message (runGuarded s id u message) := by
  unfold GuardedAnswer runGuarded Store.updated
  cases ht : u.textsOk
  · simp
  · cases h : (s.row id).filter u.cond with
    | none => exact ⟨rfl, row_update_of_filter_none h⟩
    | some j => rfl

end guarded

/-- Cancel, complete and fail with their fields answer 204 or 500, never 400 or 404. -/
theorem guarded_posts_answer_500 (s : Store) (id : Nat) (now : Int) (creq : CompleteRequest)
    (freq : FailRequest) :
    GuardedAnswer s id (cancelJob now) "Failed to cancel job" (handleCancelJob s id now) ∧
    (creq.executorId = "" ∨
      GuardedAnswer s id (completeUpdate creq now) "Failed to complete job"
        (handleCompleteJob s id creq now)) ∧
    (freq.executorId = "" ∨ freq.errorMessage = "" ∨
      GuardedAnswer s id (failUpdate freq now) "Failed to mark job as failed"
        (handleFailJob s id freq now)) := by
  refine ⟨runGuarded_answer _, ?_, ?_⟩
  · by_cases he : creq.executorId = ""
    · exact .inl he
    · exact .inr (by simpa only [handleCompleteJob, if_neg he] using runGuarded_answer _)
  · by_cases he : freq.executorId = "" ∨ freq.errorMessage = ""
    · exact he.elim .inl (.inr ∘ .inl)
    · exact .inr (.inr (by simpa only [handleFailJob, if_neg he] using runGuarded_answer _))

/-! ## Submissions -/

/-- What the two submission paths insert: non-empty type and URL, texts PostgreSQL
takes and a priority the CHECK accepts. -/
def insertsJob (sub : JobSubmission) : Bool :=
  sub.jobType != "" && sub.binaryUrl != "" &&
    insertOk sub.jobType sub.binaryUrl sub.binarySha256 sub.arguments sub.envVariables &&
    (Priority.ofText sub.priority).isSome

theorem submit_paths_insert (s : Store) (sub : JobSubmission) (now : Int) :
    (insertsJob sub = false →
      (handleSubmitJob s sub now).2 = s ∧ (handleBulkItem s sub now).2 = s ∧
      (handleSubmitJob s sub now).1.code ≠ 201 ∧ (handleBulkItem s sub now).1 ≠ .success) ∧
    ∀ p, insertsJob sub = true → Priority.ofText sub.priority = some p →
      handleSubmitJob s sub now =
        (ok 201, s.insertJob (newJob s.nextId sub.jobType sub.binaryUrl sub.binarySha256 p .pending 0 now)) ∧
      handleBulkItem s sub now =
        (.success, s.insertJob (newJob s.nextId sub.jobType sub.binaryUrl sub.binarySha256 p .pending
          (toInt32 sub.maxRetries) now)) := by
  have hst : Status.ofText "pending" = some .pending := rfl
  unfold insertsJob handleSubmitJob handleBulkItem createJob createJobWithRetries
  rw [hst]
  by_cases he : sub.jobType = "" ∨ sub.binaryUrl = ""
  · have hf : (sub.jobType != "" && sub.binaryUrl != "") = false := by
      rcases he with h | h <;> simp [h]
    simp [he, hf, writeError]
  · have ht : (sub.jobType != "" && sub.binaryUrl != "") = true := by simpa [not_or] using he
    cases hi : insertOk sub.jobType sub.binaryUrl sub.binarySha256 sub.arguments sub.envVariables <;>
      cases hp : Priority.ofText sub.priority <;> simp [he, ht, hi, writeError, ok]

-- An environment value with NUL fails the insert.
example : insertsJob ⟨"t", "http://b", "", [], [("A", ⟨[Char.ofNat 0]⟩)], "foreground", 0⟩ = false := by
  decide

/-- A type with a space is accepted by `POST /jobs` with 201. -/
theorem spaced_type_submitted :
    let sub : JobSubmission := ⟨"echo hello", "http://binaries/echo", "", [], [], "foreground", -1⟩
    (handleSubmitJob Store.empty sub 0).1 = ok 201 ∧
      (handleSubmitJob Store.empty sub 0).2.jobs.length = 1 := by
  decide

end executr.server
