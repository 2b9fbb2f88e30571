-- The invariant of the server (distinct ids, `Good` rows, and each locked row pending
-- and held by one claim) holds in every reachable state, whatever the interleaving.
import Executr.Server.System
import Executr.Store.Lifecycle

namespace executr.server

open executr.store

structure Sys.Inv (s : Sys) : Prop where
  ids_nodup : s.store.ids.Nodup
  ids_lt : ∀ i ∈ s.store.ids, i < s.store.nextId
  good : ∀ i r, s.store.row i = some r → r.Good
  locked_pending : ∀ i ∈ s.locked, ∃ r, s.store.row i = some r ∧ r.status = .pending
  locked_nodup : s.locked.Nodup

theorem init_inv : Sys.init.Inv :=
  ⟨List.nodup_nil, by simp [Store.ids, Sys.init, Store.empty], by simp [Store.row, Sys.init, Store.empty],
    by simp [Sys.locked, Sys.init], by simp [Sys.locked, Sys.init]⟩

theorem mem_locked {s : Sys} {k : Nat} {tx : ClaimTx} (h : s.claims[k]? = some tx)
    (hc : tx.committed = false) : tx.jobId ∈ s.locked :=
  List.mem_filterMap.mpr ⟨tx, List.getElem?_mem h, by simp [ClaimTx.lock, hc]⟩

theorem recordJobAttempt_jobs {st t : Store} {i : Nat} {x ip : String} {now : Int}
    (h : recordJobAttempt st i x ip now = some t) : t.jobs = st.jobs ∧ t.nextId = st.nextId ∧
      ∀ a ∈ t.attempts, a ∈ st.attempts ∨ a.Open := by
  unfold recordJobAttempt at h
  split at h <;> cases h
  refine ⟨rfl, rfl, fun a ha => ?_⟩
  simp only [List.mem_append, List.mem_singleton] at ha
  rcases ha with ha | rfl
  · exact .inl ha
  · exact .inr ⟨rfl, rfl⟩

/-! ## The table side of a statement -/

section step

variable {cfg : Config} {s s' : Sys} {e : Event}

theorem storeStep_guarded (st : Store) (id : Nat) (u : JobUpdate)
    (hu : ∀ r, u.cond r → RowChange r (u.set r)) : StoreStep st (st.update id u) :=
  .update id u fun r _ hc => hu r hc

theorem step_store (hi : s.Inv) (h : exec cfg s e = some s') : StoreStep s.store s'.store := by
  have keep : ∀ t : Sys, t.store = s.store → StoreStep s.store t.store :=
    fun t ht => .keep (by rw [ht]) (by rw [ht]) (by rw [ht]; exact fun a ha => .inl ha)
  cases e with
  | submit sub now =>
    cases h
    rcases handleSubmitJob_store s.store sub now with hs | ⟨p, hs⟩
    · exact keep _ hs
    · simp only [Sys.setStore, hs]; exact .insert _ _ _ _ _ _
  | submitBulk sub now =>
    cases h
    rcases handleBulkItem_store s.store sub now with hs | ⟨p, hs⟩
    · exact keep _ hs
    · simp only [Sys.setStore, hs]; exact .insert _ _ _ _ _ _
  | cancel id now =>
    simp only [exec] at h
    split at h <;> cases h
    simp only [Sys.setStore, handleCancelJob_store]
    exact storeStep_guarded _ _ _ fun r hc => .cancel now (by simpa [cancelJob] using hc)
  | claim req pick =>
    simp only [exec] at h
    split at h
    · cases h; exact keep _ rfl
    · split at h
      · split at h <;> cases h <;> exact keep _ rfl
      · cases h
  | claimUpdate k now =>
    simp only [exec] at h
    split at h
    · rename_i tx htx
      split at h
      · cases h
      · rename_i hc
        cases h
        refine .update _ _ fun r hr _ => .claim _ _ ?_
        obtain ⟨r', hr', hp⟩ := hi.locked_pending _ (mem_locked htx (by simpa using hc))
        rw [hr] at hr'
        cases hr'
        exact hp
    · cases h
  | claimRecord k now =>
    simp only [exec] at h
    split at h
    · split at h
      · cases h
      · cases h
        cases hr : recordJobAttempt s.store _ _ _ _ with
        | none => exact keep _ (by simp [hr])
        | some t =>
          obtain ⟨hj, hn, ha⟩ := recordJobAttempt_jobs hr
          exact .keep (by simp [hr, hj]) (by simp [hr, hn]) (by simpa [hr] using ha)
    · cases h
  | heartbeat id req now =>
    cases h
    simp only [Sys.setStore, handleHeartbeat_store]
    split
    · exact keep _ rfl
    · exact storeStep_guarded _ _ _ fun r hc => by
        simp only [updateHeartbeat, Bool.and_eq_true, beq_iff_eq] at hc
        exact .heartbeat _ now hc.1 hc.2
  | complete id req now =>
    cases h
    simp only [Sys.setStore, handleCompleteJob_store]
    split
    · exact keep _ rfl
    · exact storeStep_guarded _ _ _ fun r hc => .complete _ _ _ now (by simpa [completeUpdate, completeJob] using hc)
  | fail id req now =>
    cases h
    simp only [Sys.setStore, handleFailJob_store]
    split
    · exact keep _ rfl
    · exact storeStep_guarded _ _ _ fun r hc => .fail _ _ _ _ now (by simpa [failUpdate, failJob] using hc)
  | staleScan now =>
    simp only [exec] at h
    split at h <;> cases h
    exact keep _ rfl
  | staleReset =>
    simp only [exec] at h
    split at h <;> cases h
    exact storeStep_guarded _ _ _ fun r hc => .reset (by simpa [resetStaleJob] using hc)
  | retryScan now =>
    simp only [exec] at h
    split at h <;> cases h
    exact keep _ rfl
  | retryPromote now =>
    simp only [exec] at h
    split at h <;> cases h
    exact storeStep_guarded _ _ _ fun r hc => by
      simp only [incrementJobRetry, Bool.and_eq_true, beq_iff_eq, decide_eq_true_eq] at hc
      exact .retry now hc.1 hc.2
  | cleanup now =>
    cases h
    exact .cleanup _ _

/-! ## The locks of a statement -/

theorem row_keep_update {st : Store} {id i : Nat} {u : JobUpdate} {r : Job}
    (hu : ∀ r, u.cond r → r.status ≠ .pending) (hr : st.row i = some r)
    (hp : r.status = .pending) : (st.update id u).row i = some r := by
  have : u.cond r = false := by
    cases hc : u.cond r
    · rfl
    · exact absurd hp (hu r hc)
  simp [row_update, hr, this]

theorem row_keep_insert {st : Store} {i : Nat} {r j : Job} (hr : st.row i = some r) :
    (st.insertJob j).row i = some r := by
  simp [row_insertJob, hr]

theorem row_keep_cleanup {st : Store} {i : Nat} {r : Job} (hnd : st.ids.Nodup)
    (hr : st.row i = some r) (hp : r.status = .pending) (interval now : Int) :
    (store.cleanupOldJobs st interval now).row i = some r := by
  simp [row_cleanupOldJobs hnd, hr, Option.filter, cleanupGone, hp, Status.isTerminal]

/-- The lock part of the invariant. -/
def LocksOk (s : Sys) : Prop :=
  (∀ i ∈ s.locked, ∃ r, s.store.row i = some r ∧ r.status = .pending) ∧ s.locked.Nodup

theorem locks_of_kept (hi : s.Inv) (hl : s'.locked = s.locked)
    (hk : ∀ i ∈ s.locked, ∀ r, s.store.row i = some r → r.status = .pending →
      s'.store.row i = some r) : LocksOk s' := by
  rw [LocksOk, hl]
  refine ⟨fun i hm => ?_, hi.locked_nodup⟩
  obtain ⟨r, hr, hp⟩ := hi.locked_pending i hm
  exact ⟨r, hk i hm r hr hp, hp⟩

theorem locks_update (hi : s.Inv) {id : Nat} {u : JobUpdate}
    (hu : ∀ r, u.cond r → r.status ≠ .pending) (hc : s'.claims = s.claims)
    (hst : s'.store = s.store.update id u) : LocksOk s' :=
  locks_of_kept hi (by simp [Sys.locked, hc]) fun _ _ _ hr hp => by
    rw [hst]; exact row_keep_update hu hr hp

theorem exec_locks (hi : s.Inv) (h : exec cfg s e = some s') : LocksOk s' := by
  have same : LocksOk s := ⟨hi.locked_pending, hi.locked_nodup⟩
  cases e with
  | submit sub now =>
    cases h
    refine locks_of_kept hi rfl fun i _ r hr _ => ?_
    rcases handleSubmitJob_store s.store sub now with hs | ⟨p, hs⟩
    · simpa [Sys.setStore, hs] using hr
    · simpa [Sys.setStore, hs] using row_keep_insert hr
  | submitBulk sub now =>
    cases h
    refine locks_of_kept hi rfl fun i _ r hr _ => ?_
    rcases handleBulkItem_store s.store sub now with hs | ⟨p, hs⟩
    · simpa [Sys.setStore, hs] using hr
    · simpa [Sys.setStore, hs] using row_keep_insert hr
  | cancel id now =>
    simp only [exec] at h
    split at h
    · cases h
    · rename_i hid
      cases h
      refine locks_of_kept hi rfl fun i hm r hr _ => ?_
      have hne : i ≠ id := fun he => hid (he ▸ hm)
      simpa [Sys.setStore, row_update_of_ne hne] using hr
  | claim req pick =>
    simp only [exec] at h
    split at h
    · cases h; exact same
    · split at h
      · rename_i hpick
        split at h
        · cases h; exact same
        · rename_i i
          cases h
          obtain ⟨j, hj, rfl, ⟨hpend, hfree⟩, -⟩ := hpick
          have hl : Sys.locked { s with claims := s.claims ++ [⟨req, j.id, false⟩] } =
              s.locked ++ [j.id] := by
            simp [Sys.locked, List.filterMap_append, ClaimTx.lock]
          rw [LocksOk, hl]
          refine ⟨fun i hm => ?_, ?_⟩
          · simp only [List.mem_append, List.mem_singleton] at hm
            rcases hm with hm | rfl
            · exact hi.locked_pending i hm
            · exact ⟨j, row_of_mem hi.ids_nodup hj, hpend⟩
          · exact List.nodup_append.mpr ⟨hi.locked_nodup, List.nodup_singleton _,
              fun a ha hb => hfree (by simp at hb; exact hb ▸ ha)⟩
      · cases h
  | claimUpdate k now =>
    simp only [exec] at h
    split at h
    · rename_i tx htx
      split at h
      · cases h
      · rename_i hc
        cases h
        obtain ⟨l₁, l₂, hl, hl'⟩ := locked_commit htx (by simpa using hc)
        have hnd := hi.locked_nodup
        rw [hl] at hnd
        simp only [LocksOk, Sys.locked] at hl' ⊢
        rw [hl']
        refine ⟨fun i hm => ?_, ?_⟩
        · have hne : i ≠ tx.jobId := by
            rintro rfl
            simp only [List.nodup_append, List.nodup_cons, List.mem_append] at hnd
            rcases List.mem_append.mp hm with hm | hm
            · exact hnd.2.2 hm (List.mem_cons_self _ _)
            · exact hnd.2.1.1 hm
          have hm' : i ∈ s.locked := by
            rw [hl]; rcases List.mem_append.mp hm with hm | hm <;> simp [hm]
          obtain ⟨r, hr, hp⟩ := hi.locked_pending i hm'
          exact ⟨r, by rw [row_update_of_ne hne]; exact hr, hp⟩
        · exact hnd.sublist ((List.sublist_cons_self _ _).append_left l₁)
    · cases h
  | claimRecord k now =>
    simp only [exec] at h
    split at h
    · rename_i tx htx
      split at h
      · cases h
      · rename_i hc
        cases h
        have hcom : tx.committed = true := by simp at hc; exact hc.1
        refine locks_of_kept hi (locked_record htx hcom) fun i _ r hr _ => ?_
        cases hrec : recordJobAttempt s.store tx.jobId tx.req.executorId tx.req.executorIp now with
        | none => simpa [hrec] using hr
        | some t =>
          obtain ⟨hj, -, -⟩ := recordJobAttempt_jobs hrec
          simpa [hrec, Store.row, hj] using hr
    · cases h
  | heartbeat id req now =>
    cases h
    simp only [Sys.setStore, handleHeartbeat_store]
    split
    · exact same
    · exact locks_update hi (fun r hc => by simp [updateHeartbeat] at hc; simp [hc.2]) rfl rfl
  | complete id req now =>
    cases h
    simp only [Sys.setStore, handleCompleteJob_store]
    split
    · exact same
    · exact locks_update hi (fun r hc => by simp [completeUpdate, completeJob] at hc; simp [hc])
        rfl rfl
  | fail id req now =>
    cases h
    simp only [Sys.setStore, handleFailJob_store]
    split
    · exact same
    · exact locks_update hi (fun r hc => by simp [failUpdate, failJob] at hc; simp [hc]) rfl rfl
  | staleScan now =>
    simp only [exec] at h
    split at h <;> cases h
    exact locks_of_kept hi rfl fun i _ r hr _ => hr
  | staleReset =>
    simp only [exec] at h
    split at h <;> cases h
    exact locks_update hi (fun r hc => by simp [resetStaleJob] at hc; simp [hc]) rfl rfl
  | retryScan now =>
    simp only [exec] at h
    split at h <;> cases h
    exact locks_of_kept hi rfl fun i _ r hr _ => hr
  | retryPromote now =>
    simp only [exec] at h
    split at h <;> cases h
    exact locks_update hi (fun r hc => by simp [incrementJobRetry] at hc; simp [hc.1]) rfl rfl
  | cleanup now =>
    cases h
    exact locks_of_kept hi rfl fun i _ r hr hp =>
      row_keep_cleanup hi.ids_nodup hr hp _ _

/-! ## Every reachable state -/

theorem exec_inv (hi : s.Inv) (h : exec cfg s e = some s') : s'.Inv := by
  have hst := step_store hi h
  obtain ⟨hnd, hlt, -⟩ := hst.ids hi.ids_nodup hi.ids_lt
  obtain ⟨hlp, hln⟩ := exec_locks hi h
  exact ⟨hnd, hlt, fun i r' hr' => (hr' ▸ hst.row hi.ids_nodup i).good (hi.good i),
    hlp, hln⟩

theorem run_inv {es : List Event} (hi : s.Inv) (h : run cfg s es = some s') : s'.Inv := by
  induction es generalizing s with
  | nil => cases h; exact hi
  | cons e es ih =>
    rw [run_cons] at h
    cases he : exec cfg s e with
    | none => simp [he] at h
    | some t => exact ih (exec_inv hi he) (by simpa [he] using h)

end step

theorem Reachable.inv {cfg : Config} {s : Sys} (h : Reachable cfg s) : s.Inv := by
  induction h with
  | init => exact init_inv
  | step e _ he ih => exact exec_inv ih he

/-- Every reachable row carries its status's columns and a retry count in
`0 .. max(0, max_retries)`. -/
theorem reachable_rows_good {cfg : Config} {s : Sys} (h : Reachable cfg s) :
    ∀ j ∈ s.store.jobs, j.Good :=
  fun j hj => h.inv.good j.id j (row_of_mem h.inv.ids_nodup hj)

/-- A job submitted and claimed: the state is reachable and its row is `Good`. -/
theorem claimed_rows_good :
    let s := Sys.after defaultConfig
      [.submit ⟨"t", "u", "d", [], [], "foreground", 2⟩ 0, .claim ⟨"A", "h"⟩ (some 0), .claimUpdate 0 1]
    Reachable defaultConfig s ∧ ∀ j ∈ s.store.jobs, j.Good := by
  intro s
  have h : Reachable defaultConfig s := Sys.after_reachable (by decide)
  exact ⟨h, reachable_rows_good h⟩

end executr.server
