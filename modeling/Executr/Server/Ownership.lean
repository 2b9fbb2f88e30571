-- Who may change a running row. `UpdateHeartbeat` is guarded by status and
-- executor id, `CompleteJob` and `FailJob` by status alone, and a stale
-- tick resets what its scan found without looking at the heartbeat again.
import Executr.Server.Invariant

namespace executr.server

open executr.store

section guards

variable {cfg : Config} {s s' : Sys} {i id : Nat} {now : Int}

theorem heartbeat_guard {req : HeartbeatRequest} (h : exec cfg s (.heartbeat id req now) = some s')
    (hc : s'.store.row i ≠ s.store.row i) :
    i = id ∧ ∃ r, s.store.row i = some r ∧ r.status = .running ∧
      r.executorId = some req.executorId := by
  cases h
  simp only [Sys.setStore, handleHeartbeat_store] at hc
  split at hc
  · exact absurd rfl hc
  · obtain ⟨rfl, r, hr, hcond, -⟩ := row_changed hc
    simp only [updateHeartbeat, Bool.and_eq_true, beq_iff_eq] at hcond
    exact ⟨rfl, r, hr, hcond.2, hcond.1⟩

theorem complete_guard {req : CompleteRequest} (h : exec cfg s (.complete id req now) = some s')
    (hc : s'.store.row i ≠ s.store.row i) :
    i = id ∧ ∃ r r', s.store.row i = some r ∧ r.status = .running ∧ s'.store.row i = some r' ∧
      r'.status = .completed ∧ r'.executorId = r.executorId ∧ r'.stdout = some req.stdout ∧
      r'.stderr = some req.stderr := by
  cases h
  simp only [Sys.setStore, handleCompleteJob_store] at hc ⊢
  split at hc
  · exact absurd rfl hc
  · rename_i hx
    obtain ⟨rfl, r, hr, hcond, hr'⟩ := row_changed hc
    simp only [completeUpdate, completeJob, beq_iff_eq] at hcond
    exact ⟨rfl, r, (completeUpdate req now).set r, hr, hcond, by simpa [hx] using hr', rfl, rfl,
      rfl, rfl⟩

theorem fail_guard {req : FailRequest} (h : exec cfg s (.fail id req now) = some s')
    (hc : s'.store.row i ≠ s.store.row i) :
    i = id ∧ ∃ r r', s.store.row i = some r ∧ r.status = .running ∧ s'.store.row i = some r' ∧
      r'.status = .failed ∧ r'.executorId = r.executorId ∧
      r'.errorMessage = some req.errorMessage := by
  cases h
  simp only [Sys.setStore, handleFailJob_store] at hc ⊢
  split at hc
  · exact absurd rfl hc
  · rename_i hx
    obtain ⟨rfl, r, hr, hcond, hr'⟩ := row_changed hc
    simp only [failUpdate, failJob, beq_iff_eq] at hcond
    exact ⟨rfl, r, (failUpdate req now).set r, hr, hcond, by simpa [hx] using hr', rfl, rfl, rfl⟩

theorem complete_closes {req : CompleteRequest} {r : Job} (hr : s.store.row id = some r)
    (hrun : r.status = .running) (hx : req.executorId ≠ "") (ht : (completeUpdate req now).textsOk = true) :
    ∃ s' r', exec cfg s (.complete id req now) = some s' ∧ s'.store.row id = some r' ∧
      r'.status = .completed ∧ r'.executorId = r.executorId ∧ r'.stdout = some req.stdout := by
  refine ⟨_, (completeUpdate req now).set r, rfl, ?_, rfl, rfl, rfl⟩
  show (handleCompleteJob s.store id req now).2.row id = _
  rw [handleCompleteJob_store, if_neg (by simp [hx, ht]), row_update_self, hr]
  simp [completeUpdate, completeJob, hrun]

theorem fail_closes {req : FailRequest} {r : Job} (hr : s.store.row id = some r)
    (hrun : r.status = .running) (hx : req.executorId ≠ "") (hm : req.errorMessage ≠ "")
    (ht : (failUpdate req now).textsOk = true) :
    ∃ s' r', exec cfg s (.fail id req now) = some s' ∧ s'.store.row id = some r' ∧
      r'.status = .failed ∧ r'.executorId = r.executorId := by
  refine ⟨_, (failUpdate req now).set r, rfl, ?_, rfl, rfl⟩
  show (handleFailJob s.store id req now).2.row id = _
  rw [handleFailJob_store, if_neg (by simp [hx, hm, ht]), row_update_self, hr]
  simp [failUpdate, failJob, hrun]

end guards

/-- A heartbeat changes only its own executor's running row; a complete or fail
changes only a running row, keeps its executor id, and closes it whoever owns it. -/
theorem post_guards (cfg : Config) (s s' : Sys) (i : Nat) :
    (∀ id req now, exec cfg s (.heartbeat id req now) = some s' →
      s'.store.row i ≠ s.store.row i →
      ∃ r, s.store.row i = some r ∧ r.status = .running ∧ r.executorId = some req.executorId) ∧
    (∀ id req now, exec cfg s (.complete id req now) = some s' →
      s'.store.row i ≠ s.store.row i →
      ∃ r r', s.store.row i = some r ∧ r.status = .running ∧ s'.store.row i = some r' ∧
        r'.status = .completed ∧ r'.executorId = r.executorId ∧ r'.stdout = some req.stdout) ∧
    (∀ id req now, exec cfg s (.fail id req now) = some s' →
      s'.store.row i ≠ s.store.row i →
      ∃ r r', s.store.row i = some r ∧ r.status = .running ∧ s'.store.row i = some r' ∧
        r'.status = .failed ∧ r'.executorId = r.executorId) ∧
    (∀ id req now r, s.store.row id = some r → r.status = .running → req.executorId ≠ "" →
      (completeUpdate req now).textsOk = true →
      ∃ s'' r', exec cfg s (.complete id req now) = some s'' ∧ s''.store.row id = some r' ∧
        r'.status = .completed ∧ r'.executorId = r.executorId ∧ r'.stdout = some req.stdout) ∧
    (∀ id req now r, s.store.row id = some r → r.status = .running → req.executorId ≠ "" →
      req.errorMessage ≠ "" → (failUpdate req now).textsOk = true →
      ∃ s'' r', exec cfg s (.fail id req now) = some s'' ∧ s''.store.row id = some r' ∧
        r'.status = .failed ∧ r'.executorId = r.executorId) := by
  refine ⟨fun _ _ _ h hc => (heartbeat_guard h hc).2, fun _ _ _ h hc => ?_,
    fun _ _ _ h hc => ?_, fun _ _ _ _ hr hrun hx ht => complete_closes hr hrun hx ht,
    fun _ _ _ _ hr hrun hx hm ht => fail_closes hr hrun hx hm ht⟩
  · obtain ⟨-, r, r', hr, hs, hr', hs', hx, ho, -⟩ := complete_guard h hc
    exact ⟨r, r', hr, hs, hr', hs', hx, ho⟩
  · obtain ⟨-, r, r', hr, hs, hr', hs', hx, -⟩ := fail_guard h hc
    exact ⟨r, r', hr, hs, hr', hs', hx⟩

/-- `A` claims job 0 and stops heartbeating; a stale tick resets it; `B` claims it. -/
def reclaimRun : List Event :=
  [.submit ⟨"t", "u", "d", [], [], "background", 0⟩ 0, .claim ⟨"A", "h"⟩ (some 0), .claimUpdate 0 1,
   .claimRecord 0 1, .staleScan (100 * second), .staleReset, .claim ⟨"B", "h"⟩ (some 0),
   .claimUpdate 0 (100 * second + 1), .claimRecord 0 (100 * second + 1)]

/-- `A`'s late completion changes job 0 while `B` owns it. -/
theorem late_complete_changes_reclaimed_row :
    ¬ ∀ s s', Reachable defaultConfig s →
      exec defaultConfig s (.complete 0 ⟨"A", "outA", "", 0⟩ (100 * second + 2)) = some s' →
      s'.store.row 0 ≠ s.store.row 0 →
      ∃ r, s.store.row 0 = some r ∧ r.status = .running ∧ r.executorId = some "A" := by
  intro h
  let s := Sys.after defaultConfig reclaimRun
  have hs : Reachable defaultConfig s := Sys.after_reachable (by decide)
  obtain ⟨r, hr, -, hx⟩ := h s ((exec defaultConfig s
    (.complete 0 ⟨"A", "outA", "", 0⟩ (100 * second + 2))).getD s) hs (by decide) (by decide)
  have := congrArg (Option.map (·.executorId)) hr
  rw [Option.map_some', hx] at this
  revert this
  decide

/-- After the reclaim, `A`'s late completion closes job 0 under `B`'s id. -/
theorem late_complete_closes_under_claimer :
    let s := Sys.after defaultConfig reclaimRun
    ∃ r, s.store.row 0 = some r ∧ r.status = .running ∧ r.executorId = some "B" ∧
      ∃ s'' r', exec defaultConfig s (.complete 0 ⟨"A", "outA", "", 0⟩ (100 * second + 2)) = some s'' ∧
        s''.store.row 0 = some r' ∧ r'.status = .completed ∧ r'.executorId = r.executorId ∧
        r'.stdout = some "outA" := by
  intro s
  obtain ⟨r, hr⟩ := Option.isSome_iff_exists.mp (show (s.store.row 0).isSome by decide)
  have hst : (s.store.row 0).map (fun r => (r.status, r.executorId)) = some (.running, some "B") := by decide
  rw [hr] at hst
  simp only [Option.map_some', Option.some.injEq, Prod.mk.injEq] at hst
  exact ⟨r, hr, hst.1, hst.2,
    (post_guards defaultConfig s s 0).2.2.2.1 0 _ _ r hr hst.1 (by decide) (by decide)⟩

/-! ## The attempts of a stewardship -/

/-- No statement closes an attempt: no handler or tick calls `UpdateJobAttempt`. -/
theorem attempts_never_closed {cfg : Config} {s : Sys} (h : Reachable cfg s) :
    ∀ a ∈ s.store.attempts, a.Open := by
  induction h with
  | init => intro a ha; simp [Sys.init, Store.empty] at ha
  | step e hr he ih => exact (step_store hr.inv he).attempts_open ih

/-- `A` claims job 0 and completes it: the attempt stays open beside a completed job. -/
theorem attempt_left_open :
    let s : Sys := Sys.after defaultConfig
      [.submit ⟨"t", "u", "d", [], [], "background", 0⟩ 0, .claim ⟨"A", "h"⟩ (some 0), .claimUpdate 0 1,
       .claimRecord 0 1, .complete 0 ⟨"A", "out", "", 0⟩ 2]
    Reachable defaultConfig s ∧ ∃ a ∈ s.store.attempts, a.endedAt = none ∧
      (s.store.row a.jobId).map (·.status) = some .completed := by
  intro s
  have hs : Reachable defaultConfig s := Sys.after_reachable (by decide)
  obtain ⟨a, ha⟩ := List.exists_mem_of_ne_nil _ (show s.store.attempts ≠ [] by decide)
  have hdone : ∀ a ∈ s.store.attempts, (s.store.row a.jobId).map (·.status) = some .completed := by decide
  exact ⟨hs, a, ha, (attempts_never_closed hs a ha).1, hdone a ha⟩

/-! ## The stale tick -/

/-- The rows a stale tick has still to reset are rows its scan found stale. -/
def StaleOk (s : Sys) : Prop :=
  ∀ r ∈ s.stale.rows, r.status = .running ∧ sqlLt r.lastHeartbeat (s.stale.now - 15 * second)

section tick

variable {cfg : Config} {s s' : Sys} {e : Event}

theorem exec_stale (h : exec cfg s e = some s') :
    s'.stale = s.stale ∨ (∃ now, s'.stale = ⟨now, findStaleJobs s.store now⟩) ∨
      (∃ r rest, s.stale.rows = r :: rest ∧ s'.stale = { s.stale with rows := rest }) := by
  cases e <;> simp only [exec] at h <;> (repeat' split at h) <;> cases h <;>
    first
    | exact .inl rfl
    | exact .inr (.inl ⟨_, rfl⟩)
    | exact .inr (.inr ⟨_, _, ‹_›, rfl⟩)

theorem exec_staleOk (hs : StaleOk s) (h : exec cfg s e = some s') : StaleOk s' := by
  rcases exec_stale h with heq | ⟨now, heq⟩ | ⟨r, rest, hrows, heq⟩ <;> rw [StaleOk, heq]
  · exact hs
  · intro r hr
    simp only [findStaleJobs, isStale, List.mem_filter, Bool.and_eq_true, beq_iff_eq] at hr
    exact hr.2
  · exact fun r' hr' => hs r' (by rw [hrows]; exact List.mem_cons_of_mem _ hr')

theorem Reachable.staleOk (h : Reachable cfg s) : StaleOk s := by
  induction h with
  | init => intro r hr; simp [Sys.init] at hr
  | step e _ he ih => exact exec_staleOk ih he

theorem staleReset_resets {r₀ r : Job} (h₀ : s.stale.rows.head? = some r₀) (hr : s.store.row r₀.id = some r)
    (hrun : r.status = .running) :
    ∃ s', exec cfg s .staleReset = some s' ∧ s'.store.row r₀.id = some (resetStaleJob.set r) := by
  obtain ⟨rest, hrows⟩ := List.head?_eq_some_iff.mp h₀
  refine ⟨{ s with store := s.store.update r₀.id resetStaleJob, stale := { s.stale with rows := rest } },
    by simp only [exec, hrows], ?_⟩
  simp [row_update_self, hr, resetStaleJob, hrun]

end tick

/-- `A` claims job 0; the stale tick scans at 100 s; `A`'s heartbeat lands 1 µs later. -/
def freshHeartbeatRun : List Event :=
  [.submit ⟨"t", "u", "d", [], [], "background", 0⟩ 0, .claim ⟨"A", "h"⟩ (some 0), .claimUpdate 0 1,
   .claimRecord 0 1, .staleScan (100 * second), .heartbeat 0 ⟨"A"⟩ (100 * second + 1)]

/-- A reset changes only a running row the scan found stale, and resets every such row. -/
theorem stale_reset_scanned (cfg : Config) :
    (∀ s s' i, Reachable cfg s → exec cfg s .staleReset = some s' →
      s'.store.row i ≠ s.store.row i →
      ∃ r₀ r, s.stale.rows.head? = some r₀ ∧ r₀.id = i ∧ r₀.status = .running ∧
        sqlLt r₀.lastHeartbeat (s.stale.now - 15 * second) ∧
        s.store.row i = some r ∧ r.status = .running ∧ s'.store.row i = some (resetStaleJob.set r)) ∧
    (∀ s r₀ r, s.stale.rows.head? = some r₀ → s.store.row r₀.id = some r → r.status = .running →
      ∃ s', exec cfg s .staleReset = some s' ∧ s'.store.row r₀.id = some (resetStaleJob.set r)) := by
  refine ⟨fun s s' i hs h hc => ?_, fun _ _ _ h₀ hr hrun => staleReset_resets h₀ hr hrun⟩
  simp only [exec] at h
  split at h
  · rename_i r₀ rest hrows
    cases h
    obtain ⟨rfl, r, hr, hcond, hr'⟩ := row_changed hc
    obtain ⟨hrun, hold⟩ := hs.staleOk r₀ (by rw [hrows]; exact List.mem_cons_self _ _)
    exact ⟨r₀, r, by simp [hrows], rfl, hrun, hold, hr, by simpa [resetStaleJob] using hcond, hr'⟩
  · cases h

theorem fresh_heartbeat_reset_scanned :
    let s : Sys := Sys.after defaultConfig freshHeartbeatRun
    ∃ r₀ r, s.stale.rows.head? = some r₀ ∧ s.store.row r₀.id = some r ∧ r.status = .running ∧
      r.lastHeartbeat = some (100 * second + 1) ∧
      ∃ s', exec defaultConfig s .staleReset = some s' ∧ s'.store.row r₀.id = some (resetStaleJob.set r) := by
  intro s
  obtain ⟨r₀, h₀⟩ := Option.isSome_iff_exists.mp (show s.stale.rows.head?.isSome by decide)
  obtain ⟨r, hr⟩ := Option.isSome_iff_exists.mp (show (s.store.row r₀.id).isSome by
    rw [show r₀.id = 0 by simpa [h₀] using (show s.stale.rows.head?.map (·.id) = some 0 by decide)]; decide)
  have hst : (s.store.row r₀.id).map (fun r => (r.status, r.lastHeartbeat)) =
      some (.running, some (100 * second + 1)) := by
    rw [show r₀.id = 0 by simpa [h₀] using (show s.stale.rows.head?.map (·.id) = some 0 by decide)]; decide
  rw [hr] at hst
  simp only [Option.map_some', Option.some.injEq, Prod.mk.injEq] at hst
  exact ⟨r₀, r, h₀, hr, hst.1, hst.2, (stale_reset_scanned defaultConfig).2 s r₀ r h₀ hr hst.1⟩

/-- The tick's reset at 100 s + 2 µs resets job 0 although its heartbeat is 1 µs old. -/
theorem reset_after_fresh_heartbeat :
    ¬ ∀ s s', Reachable defaultConfig s → exec defaultConfig s .staleReset = some s' →
      s'.store.row 0 ≠ s.store.row 0 →
      ∃ r, s.store.row 0 = some r ∧ sqlLt r.lastHeartbeat (100 * second + 2 - 15 * second) := by
  intro h
  let s := Sys.after defaultConfig freshHeartbeatRun
  have hs : Reachable defaultConfig s := Sys.after_reachable (by decide)
  obtain ⟨r, hr, hold⟩ := h s ((exec defaultConfig s .staleReset).getD s) hs (by decide) (by decide)
  have := congrArg (Option.map fun r => sqlLt r.lastHeartbeat (100 * second + 2 - 15 * second)) hr
  rw [Option.map_some', hold] at this
  revert this
  decide

end executr.server
