-- One tick of the stale recovery and of the retention cleanup: what each deletes
-- or resets, and the configuration each reads.
import Executr.Server.Invariant

namespace executr.server

open executr.store

/-! ## Stale recovery -/

theorem foldl_update_jobs (u : JobUpdate) :
    ∀ (l : List Job) (st : Store), (l.map (·.id)).Nodup →
      (l.foldl (fun t r => t.update r.id u) st).jobs =
        st.jobs.map fun j => if j.id ∈ l.map (·.id) ∧ u.cond j then u.set j else j
  | [], st, _ => by simp
  | r :: l, st, hnd => by
    simp only [List.map_cons, List.nodup_cons] at hnd
    rw [List.foldl_cons, foldl_update_jobs u l _ hnd.2, Store.update, List.map_map]
    refine List.map_congr_left fun j _ => ?_
    by_cases hj : j.id = r.id
    · by_cases hc : u.cond j <;>
        simp only [Function.comp_apply, hj, hc, u.set_id, hnd.1, beq_self_eq_true, Bool.and_true,
          Bool.and_false, List.map_cons, List.mem_cons, true_or, false_and, and_true, if_true, if_false,
          Bool.false_eq_true, and_false]
    · simp [hj]

/-- `checkStaleJobs` resets exactly the running rows with a heartbeat over 15 s old. -/
theorem checkStaleJobs_jobs (cfg : Config) {st : Store} (hnd : st.ids.Nodup) (now : Int) :
    (checkStaleJobs cfg st now).jobs =
      st.jobs.map fun j => if isStale now j then resetStaleJob.set j else j := by
  have hsub : (findStaleJobs st now).map (·.id) |>.Sublist st.ids := (List.filter_sublist _).map _
  rw [checkStaleJobs, foldl_update_jobs _ _ _ (hnd.sublist hsub)]
  refine List.map_congr_left fun j hj => ?_
  have hiff : (j.id ∈ (findStaleJobs st now).map (·.id) ∧ resetStaleJob.cond j) ↔ isStale now j := by
    constructor
    · rintro ⟨hm, -⟩
      obtain ⟨k, hk, hkj⟩ := List.mem_map.mp hm
      have hk' := List.mem_filter.mp hk
      exact List.inj_on_of_nodup_map hnd hk'.1 hj hkj ▸ hk'.2
    · intro hs
      refine ⟨List.mem_map_of_mem _ (List.mem_filter.mpr ⟨hj, hs⟩), ?_⟩
      simp only [isStale, Bool.and_eq_true] at hs
      simpa [resetStaleJob] using hs.1
  by_cases hs : isStale now j
  · rw [if_pos (hiff.mpr hs), if_pos hs]
  · rw [if_neg (mt hiff.mp hs), if_neg hs]

/-- With `HeartbeatTimeout` 60 s, a heartbeat 20 s old is reset. -/
theorem stale_tick_ignores_heartbeat_timeout :
    let cfg : Config := ⟨3600, 172800, 60⟩
    let st := (Sys.after cfg
      [.submit ⟨"t", "u", "d", [], [], "background", 0⟩ 0, .claim ⟨"A", "h"⟩ (some 0), .claimUpdate 0 0]).store
    (st.row 0).map (fun r => (r.status, r.lastHeartbeat)) = some (.running, some 0) ∧
      ((checkStaleJobs cfg st (20 * second)).row 0).map (·.status) = some .pending := by
  intro cfg st
  refine ⟨by decide, ?_⟩
  rw [Store.row, checkStaleJobs_jobs cfg (by decide)]
  decide

/-! ## Retention cleanup -/

/-- `cleanupOldJobs` keeps a row unless terminal and completed before the retention read as hours. -/
theorem cleanupOldJobs_row (cfg : Config) {st : Store} (hnd : st.ids.Nodup) (now : Int) (i : Nat) :
    (cleanupOldJobs cfg st now).row i =
      (st.row i).filter fun j => !(j.status.isTerminal &&
        sqlLt j.completedAt (now - toInt64 (cfg.jobRetention * 3600 * second))) := by
  rw [cleanupOldJobs, row_cleanupOldJobs hnd]
  simp [cleanupGone, retentionInterval, second, Int.mul_assoc]

/-- With the default retention of 172800 s, a job completed 49 hours ago survives. -/
theorem cleanup_keeps_expired_job :
    let st : Store := (Sys.after defaultConfig
      [.submit ⟨"t", "u", "d", [], [], "background", 0⟩ 0, .claim ⟨"A", "h"⟩ (some 0), .claimUpdate 0 0,
       .complete 0 ⟨"A", "out", "", 0⟩ 0]).store
    (st.row 0).map (fun r => (r.status, r.completedAt)) = some (.completed, some 0) ∧
      ((cleanupOldJobs defaultConfig st (49 * 3600 * second)).row 0).map (·.status) =
        some .completed := by
  intro st
  refine ⟨by decide, ?_⟩
  rw [cleanupOldJobs_row defaultConfig (by decide)]
  decide

end executr.server
