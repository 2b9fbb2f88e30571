-- The lifecycle of one row. `RowChange` says once what a guarded update
-- of the queries can do to a row; the columns each status carries
-- (`Job.Good`), the status DAG and the retry count all follow from it.
import Executr.Store.Queries
import Mathlib.Data.List.Nodup

namespace executr.store

/-! ## The columns of each status -/

/-- No result is recorded. -/
def Job.NoOutput (j : Job) : Prop :=
  j.stdout = none ∧ j.stderr = none ∧ j.exitCode = none ∧ j.errorMessage = none

/-- The columns a row of each status has set (≠ none) or null. -/
def Job.FieldsFit (j : Job) : Prop :=
  match j.status with
  | .pending => j.executorId = none ∧ j.startedAt = none ∧ j.lastHeartbeat = none ∧
      j.completedAt = none ∧ j.NoOutput
  | .running => j.executorId ≠ none ∧ j.startedAt ≠ none ∧ j.lastHeartbeat ≠ none ∧
      j.completedAt = none ∧ j.NoOutput
  | .completed | .failed => j.executorId ≠ none ∧ j.startedAt ≠ none ∧ j.completedAt ≠ none
  | .cancelled => j.completedAt ≠ none ∧ j.executorId = none ∧ j.startedAt = none

/-- The per-row invariant of the store. -/
structure Job.Good (j : Job) : Prop where
  fields : j.FieldsFit
  retry_nonneg : 0 ≤ j.retryCount
  retry_le : j.retryCount ≤ max 0 j.maxRetries

theorem newJob_good (id : Nat) (t u d : String) (p : Priority) (m now : Int) :
    (newJob id t u d p .pending m now).Good :=
  ⟨by simp [Job.FieldsFit, Job.NoOutput, newJob], by simp [newJob], Int.le_max_left 0 m⟩

/-! ## What a statement does to one row -/

/-- The changes the guarded updates make to a row that meets their WHERE clause;
the claim's UPDATE runs on the pending row its subquery locked. -/
inductive RowChange (r : Job) : Job → Prop
  | cancel (now : Int) : r.status = .pending → RowChange r ((cancelJob now).set r)
  | claim (x : String) (now : Int) : r.status = .pending →
      RowChange r ((claimNextJob x now).set r)
  | heartbeat (x : String) (now : Int) : r.executorId = some x → r.status = .running →
      RowChange r ((updateHeartbeat x now).set r)
  | complete (o e : Option String) (c : Option Int) (now : Int) : r.status = .running →
      RowChange r ((completeJob o e c now).set r)
  | fail (o e : Option String) (c : Option Int) (m : Option String) (now : Int) :
      r.status = .running → RowChange r ((failJob o e c m now).set r)
  | reset : r.status = .running → RowChange r (resetStaleJob.set r)
  | retry (now : Int) : r.status = .failed → r.retryCount < r.maxRetries →
      RowChange r ((incrementJobRetry now).set r)

/-- The status changes of the lifecycle DAG. -/
def Status.next : Status → Status → Bool
  | .pending, .running | .pending, .cancelled => true
  | .running, .completed | .running, .failed | .running, .pending => true
  | .failed, .pending => true
  | _, _ => false

/-- A failed row that a change makes pending again: a retry promotion. -/
def promoted (r r' : Job) : Bool := r.status == .failed && r'.status == .pending

section change

variable {r r' : Job}

theorem RowChange.good (h : RowChange r r') (hg : r.Good) : r'.Good := by
  obtain ⟨f, h0, h1⟩ := hg
  cases h with
  | retry now hs hlt =>
    refine ⟨by simp [Job.FieldsFit, Job.NoOutput, incrementJobRetry], by
      simp [incrementJobRetry]; omega, by simp [incrementJobRetry]; omega⟩
  | cancel now hs =>
    simp only [Job.FieldsFit, Job.NoOutput, hs] at f
    exact ⟨by simp [Job.FieldsFit, Job.NoOutput, cancelJob, f], h0, h1⟩
  | claim x now hs =>
    simp only [Job.FieldsFit, Job.NoOutput, hs] at f
    exact ⟨by simp [Job.FieldsFit, Job.NoOutput, claimNextJob, f], h0, h1⟩
  | heartbeat x now _ hs =>
    simp only [Job.FieldsFit, Job.NoOutput, hs] at f
    exact ⟨by simp [Job.FieldsFit, Job.NoOutput, updateHeartbeat, hs, f], h0, h1⟩
  | complete o e c now hs =>
    simp only [Job.FieldsFit, Job.NoOutput, hs] at f
    exact ⟨by simp [Job.FieldsFit, Job.NoOutput, completeJob, f], h0, h1⟩
  | fail o e c m now hs =>
    simp only [Job.FieldsFit, Job.NoOutput, hs] at f
    exact ⟨by simp [Job.FieldsFit, Job.NoOutput, failJob, f], h0, h1⟩
  | reset hs =>
    simp only [Job.FieldsFit, Job.NoOutput, hs] at f
    exact ⟨by simp [Job.FieldsFit, Job.NoOutput, resetStaleJob, f], h0, h1⟩

theorem RowChange.next (h : RowChange r r') : r'.status = r.status ∨ Status.next r.status r'.status := by
  cases h <;> simp_all [Status.next, cancelJob, claimNextJob, updateHeartbeat, completeJob, failJob,
    resetStaleJob, incrementJobRetry]

theorem RowChange.maxRetries_eq (h : RowChange r r') : r'.maxRetries = r.maxRetries := by
  cases h <;> rfl

theorem RowChange.retryCount_eq (h : RowChange r r') :
    r'.retryCount = r.retryCount + if promoted r r' then 1 else 0 := by
  cases h <;> simp_all [promoted, cancelJob, claimNextJob, updateHeartbeat, completeJob, failJob,
    resetStaleJob, incrementJobRetry]

theorem RowChange.promoted_lt (h : RowChange r r') (hp : promoted r r') :
    r.retryCount < r.maxRetries := by
  cases h <;> simp_all [promoted, cancelJob, claimNextJob, updateHeartbeat, completeJob, failJob,
    resetStaleJob, incrementJobRetry]

end change

/-! ## What a statement does to the table -/

/-- The ids of the rows, in table order. -/
def Store.ids (s : Store) : List Nat := s.jobs.map (·.id)

/-- An attempt whose stewardship has not been closed. -/
def Attempt.Open (a : Attempt) : Prop := a.endedAt = none ∧ a.status = .running

/-- A statement as the tables see it: no change to the jobs (but a new open attempt),
a guarded update, an insert of a pending row, or `CleanupOldJobs`. -/
inductive StoreStep (st : Store) : Store → Prop
  | keep {t : Store} : t.jobs = st.jobs → t.nextId = st.nextId →
      (∀ a ∈ t.attempts, a ∈ st.attempts ∨ a.Open) → StoreStep st t
  | update (id : Nat) (u : JobUpdate) :
      (∀ r, st.row id = some r → u.cond r → RowChange r (u.set r)) → StoreStep st (st.update id u)
  | insert (t u d : String) (p : Priority) (m now : Int) :
      StoreStep st (st.insertJob (newJob st.nextId t u d p .pending m now))
  | cleanup (interval now : Int) : StoreStep st (cleanupOldJobs st interval now)

/-- What a statement does to the row of one id. -/
def RowStep (next : Nat) : Option Job → Option Job → Prop
  | none, none => True
  | none, some r' => ∃ t u d p m now, r' = newJob next t u d p .pending m now
  | some r, none => r.status.isTerminal
  | some r, some r' => r' = r ∨ RowChange r r'

theorem RowStep.refl (next : Nat) : ∀ o, RowStep next o o
  | none => trivial
  | some _ => .inl rfl

theorem RowStep.good {n : Nat} {o : Option Job} {r' : Job} (h : RowStep n o (some r'))
    (hg : ∀ r, o = some r → r.Good) : r'.Good := by
  cases o with
  | none =>
    obtain ⟨t, u, d, p, m, now, rfl⟩ := h
    exact newJob_good _ _ _ _ _ _ _
  | some r =>
    rcases h with rfl | hc
    · exact hg _ rfl
    · exact hc.good (hg r rfl)

theorem row_of_mem {s : Store} {j : Job} (hnd : s.ids.Nodup) (hj : j ∈ s.jobs) :
    s.row j.id = some j := by
  cases h : s.row j.id with
  | none =>
    simp only [Store.row, List.find?_eq_none, beq_iff_eq] at h
    exact absurd rfl (h j hj)
  | some k => exact congrArg some (List.inj_on_of_nodup_map hnd (row_mem h) hj (row_id h))

section step

variable {st st' : Store}

theorem StoreStep.row (h : StoreStep st st') (hnd : st.ids.Nodup) (i : Nat) :
    RowStep st.nextId (st.row i) (st'.row i) := by
  cases h with
  | keep hj _ _ => simpa [Store.row, hj] using RowStep.refl st.nextId (st.row i)
  | update id u hu =>
    by_cases hi : i = id
    · subst hi
      rw [row_update_self]
      cases hr : st.row i with
      | none => trivial
      | some r =>
        by_cases hc : u.cond r
        · simpa [hc] using Or.inr (hu r hr hc)
        · simp [hc, RowStep]
    · rw [row_update_of_ne hi]
      exact RowStep.refl _ _
  | insert t u d p m now =>
    rw [row_insertJob]
    cases hr : st.row i with
    | some r => exact .inl rfl
    | none =>
      by_cases hi : (newJob st.nextId t u d p .pending m now).id = i
      · simpa [hi, RowStep] using ⟨t, u, d, p, m, now, rfl⟩
      · simp [hi, RowStep]
  | cleanup interval now =>
    rw [row_cleanupOldJobs hnd]
    cases hr : st.row i with
    | none => trivial
    | some r =>
      by_cases hg : cleanupGone interval now r
      · simp only [Option.filter, hg, Bool.not_true]
        simp only [cleanupGone, Bool.and_eq_true] at hg
        exact hg.1
      · simp [Option.filter, hg, RowStep]

theorem update_ids (id : Nat) (u : JobUpdate) : (st.update id u).ids = st.ids := by
  simp only [Store.ids, Store.update, List.map_map]
  congr 1
  funext j
  simp only [Function.comp]
  split <;> simp [u.set_id]

theorem StoreStep.ids (h : StoreStep st st') (hnd : st.ids.Nodup)
    (hlt : ∀ i ∈ st.ids, i < st.nextId) :
    st'.ids.Nodup ∧ (∀ i ∈ st'.ids, i < st'.nextId) ∧ st.nextId ≤ st'.nextId := by
  cases h with
  | keep hj hn _ =>
    have hids : st'.ids = st.ids := by simp [Store.ids, hj]
    rw [hids, hn]
    exact ⟨hnd, hlt, le_refl _⟩
  | update id u _ => simpa [update_ids] using ⟨hnd, hlt⟩
  | insert t u d p m now =>
    simp only [Store.ids, Store.insertJob, List.map_append, List.map_cons, List.map_nil] at hnd hlt ⊢
    refine ⟨List.nodup_append.mpr ⟨hnd, List.nodup_singleton _, ?_⟩, ?_, by simp⟩
    · intro a ha hb
      have := hlt a ha
      simp [newJob] at hb
      omega
    · intro i hi
      simp only [List.mem_append, List.mem_singleton] at hi
      rcases hi with hi | hi
      · exact Nat.lt_succ_of_lt (hlt i hi)
      · simp [hi, newJob]
  | cleanup interval now =>
    have hsub : (cleanupOldJobs st interval now).ids.Sublist st.ids :=
      (List.filter_sublist _).map _
    exact ⟨hnd.sublist hsub, fun i hi => hlt i (hsub.subset hi), le_refl _⟩

theorem StoreStep.attempts_open (h : StoreStep st st') (ho : ∀ a ∈ st.attempts, a.Open) :
    ∀ a ∈ st'.attempts, a.Open := by
  cases h with
  | keep _ _ ha => exact fun a hm => (ha a hm).elim (ho a) id
  | update => exact ho
  | insert => exact ho
  | cleanup => exact fun a hm => ho a (List.mem_of_mem_filter hm)

end step

end executr.store
