-- The bulk endpoints (server.go `handleBulkJobs` and `handleBulkCancel`): one
-- statement per item, no transaction, and an answer by the counts.
import Mathlib.Data.List.Dedup
import Executr.Server.Responses

namespace executr.server

open executr.store

/-! ## `handleBulkJobs` -/

/-- The loop of `handleBulkJobs`: each item's result, in order, and the tables after it. -/
def bulkLoop (now : Int) : Store → List JobSubmission → List ItemResult × Store
  | s, [] => ([], s)
  | s, sub :: rest =>
    let r := handleBulkItem s sub now
    let r' := bulkLoop now r.2 rest
    (r.1 :: r'.1, r'.2)

/-- The body of a bulk answer: `total`, `successful`, `failed` and `results`. -/
structure BulkBody where
  total : Nat
  successful : Nat
  failed : Nat
  results : List ItemResult
deriving DecidableEq, Repr

/-- `handleBulkJobs` once the body has decoded. -/
def handleBulkJobs (s : Store) (submissions : List JobSubmission) (now : Int) :
    Response × Option BulkBody × Store :=
  if submissions.length = 0 then (writeError 400 "No jobs provided", none, s)
  else if submissions.length > 100 then (writeError 400 "Too many jobs (max 100)", none, s)
  else
    let r := bulkLoop now s submissions
    let successCount := r.1.countP (· == .success)
    (ok (if successCount = 0 then 400 else if successCount < submissions.length then 206 else 201),
      some ⟨submissions.length, successCount, submissions.length - successCount, r.1⟩, r.2)

/-- The row a bulk item adds: pending, with `int32(max_retries)`. -/
def BulkRow (now : Int) (j : Job) (sub : JobSubmission) : Prop :=
  ∃ p, Priority.ofText sub.priority = some p ∧
    j = newJob j.id sub.jobType sub.binaryUrl sub.binarySha256 p .pending (toInt32 sub.maxRetries) now

theorem bulkLoop_spec (now : Int) : ∀ (s : Store) (subs : List JobSubmission),
    (bulkLoop now s subs).1.map (· == .success) = subs.map insertsJob ∧
    ∃ added : List Job,
      (bulkLoop now s subs).2 = { s with jobs := s.jobs ++ added, nextId := s.nextId + added.length } ∧
      List.Forall₂ (BulkRow now) added (subs.filter insertsJob)
  | s, [] => ⟨rfl, [], by simp [bulkLoop], .nil⟩
  | s, sub :: rest => by
    obtain ⟨hfalse, htrue⟩ := submit_paths_insert s sub now
    cases hi : insertsJob sub with
    | false =>
      obtain ⟨-, hst, -, hres⟩ := hfalse hi
      obtain ⟨hmap, added, hs, hrows⟩ := bulkLoop_spec now s rest
      have hb : ((handleBulkItem s sub now).1 == .success) = false := beq_false_of_ne hres
      simp only [bulkLoop, hst, List.map_cons, hb, hmap, List.filter_cons, hi]
      exact ⟨trivial, added, hs, by simpa using hrows⟩
    | true =>
      obtain ⟨p, hp⟩ := Option.isSome_iff_exists.mp
        (by simp only [insertsJob, Bool.and_eq_true] at hi; exact hi.2)
      have hitem := (htrue p hi hp).2
      set j := newJob s.nextId sub.jobType sub.binaryUrl sub.binarySha256 p .pending (toInt32 sub.maxRetries) now
      obtain ⟨hmap, added, hs, hrows⟩ := bulkLoop_spec now (s.insertJob j) rest
      simp only [bulkLoop, hitem, List.map_cons, beq_self_eq_true, hmap, List.filter_cons, hi, if_true]
      refine ⟨trivial, j :: added, ?_, .cons ⟨p, hp, rfl⟩ hrows⟩
      rw [hs]
      simp only [Store.insertJob, List.append_assoc, List.singleton_append, List.length_cons]
      congr 1
      omega

/-- A bulk submission: 400 and no change for 0 or over 100 items; else each item passes
exactly by `insertsJob`, in order, and the answer is 201, 206 or 400 by the count. -/
theorem bulk_submit_by_count (s : Store) (subs : List JobSubmission) (now : Int) :
    let r := handleBulkJobs s subs now
    let k := subs.countP insertsJob
    ((subs = [] ∨ 100 < subs.length) → r.1.code = 400 ∧ r.2 = (none, s)) ∧
    (subs ≠ [] → subs.length ≤ 100 →
      r.1 = ok (if k = 0 then 400 else if k < subs.length then 206 else 201) ∧
      ∃ results added, r.2.1 = some ⟨subs.length, k, subs.length - k, results⟩ ∧
        results.map (· == .success) = subs.map insertsJob ∧
        r.2.2 = { s with jobs := s.jobs ++ added, nextId := s.nextId + k } ∧
        List.Forall₂ (BulkRow now) added (subs.filter insertsJob)) := by
  intro r k
  refine ⟨fun h => ?_, fun hne hle => ?_⟩
  · rcases h with rfl | h
    · exact ⟨rfl, rfl⟩
    · have h0 : subs.length ≠ 0 := by omega
      simp only [r, handleBulkJobs, if_neg h0, if_pos h]
      exact ⟨rfl, trivial⟩
  · obtain ⟨hmap, added, hs, hrows⟩ := bulkLoop_spec now s subs
    have hlen : added.length = k := by
      rw [hrows.length_eq, ← List.countP_eq_length_filter]
    have hcount : (bulkLoop now s subs).1.countP (· == .success) = k := by
      have := congrArg (List.countP id) hmap
      simpa only [List.countP_map] using this
    have h0 : subs.length ≠ 0 := fun h => hne (List.eq_nil_of_length_eq_zero h)
    simp only [r, handleBulkJobs, if_neg h0, if_neg (Nat.not_lt.mpr hle), hcount]
    exact ⟨trivial, _, added, rfl, hmap, hlen ▸ hs, hrows⟩

/-! ## `handleBulkCancel` -/

/-- The counts of a bulk cancel's answer. -/
structure CancelCounts where
  cancelled : Nat
  failed : Nat
  total : Nat
deriving DecidableEq, Repr

/-- One turn of `handleBulkCancel`'s loop, on an id as `uuid.Parse` reads it. -/
def cancelStep (now : Int) : Nat × Nat × Store → Option Nat → Nat × Nat × Store
  | (cancelledCount, failedCount, s), none => (cancelledCount, failedCount + 1, s)
  | (cancelledCount, failedCount, s), some id =>
    match s.updated id (cancelJob now) with
    | some _ => (cancelledCount + 1, failedCount, s.update id (cancelJob now))
    | none => (cancelledCount, failedCount + 1, s.update id (cancelJob now))

/-- `handleBulkCancel` once the body has decoded. -/
def handleBulkCancel (s : Store) (jobIds : List (Option Nat)) (jobType status : String) (now : Int) :
    Response × Option CancelCounts × Store :=
  if jobIds.length > 0 then
    let r := jobIds.foldl (cancelStep now) (0, 0, s)
    (ok 200, some ⟨r.1, r.2.1, r.1 + r.2.1⟩, r.2.2)
  else if jobType ≠ "" ∨ status ≠ "" then
    (writeError 501 "Cancellation by criteria not yet implemented", none, s)
  else (writeError 400 "Must provide job_ids or criteria", none, s)

/-- The job of `id` is pending. -/
def pendingIn (s : Store) (id : Nat) : Bool := (s.row id).any (·.status == .pending)

section cancel

variable {s : Store} {now : Int}

theorem updated_cancelJob_isSome (id : Nat) : (s.updated id (cancelJob now)).isSome = pendingIn s id := by
  unfold Store.updated pendingIn
  cases s.row id with
  | none => rfl
  | some j => by_cases hp : j.status = .pending <;> simp [cancelJob, Option.filter, hp]

theorem pendingIn_cancel (a k : Nat) : pendingIn (s.update a (cancelJob now)) k = (pendingIn s k && k != a) := by
  by_cases hk : k = a
  · subst hk
    unfold pendingIn
    rw [row_update_self]
    cases s.row k with
    | none => rfl
    | some j => by_cases hp : j.status = .pending <;> simp [cancelJob, hp]
  · simp [pendingIn, row_update_of_ne hk, hk]

theorem countP_nodup_split (P : Nat → Bool) (a : Nat) : ∀ {l : List Nat}, l.Nodup →
    l.countP P = l.countP (fun k => P k && k != a) + if a ∈ l ∧ P a then 1 else 0
  | [], _ => by simp
  | x :: l, h => by
    obtain ⟨hx, hl⟩ := List.nodup_cons.mp h
    have ih := countP_nodup_split P a hl
    by_cases hxa : x = a
    · subst hxa
      simp only [List.countP_cons, ih, List.mem_cons, true_or, true_and, bne_self_eq_false, Bool.and_false,
        hx, false_and, if_false]
      split_ifs <;> simp_all
    · have hne : (x != a) = true := bne_iff_ne.mpr hxa
      simp only [List.countP_cons, ih, List.mem_cons, hne, Bool.and_true, Ne.symm hxa, false_or]
      split_ifs <;> omega

theorem countP_dedup_cons (P : Nat → Bool) (a : Nat) (l : List Nat) :
    (a :: l).dedup.countP P = l.dedup.countP (fun k => P k && k != a) + if P a then 1 else 0 := by
  by_cases ha : a ∈ l
  · rw [List.dedup_cons_of_mem ha, countP_nodup_split P a (List.nodup_dedup l)]
    simp [List.mem_dedup, ha]
  · rw [List.dedup_cons_of_not_mem ha, List.countP_cons, countP_nodup_split P a (List.nodup_dedup l)]
    simp [List.mem_dedup, ha]

theorem foldl_cancelStep : ∀ (ids : List (Option Nat)) (c f : Nat) (s : Store),
    let r := ids.foldl (cancelStep now) (c, f, s)
    r.1 = c + (ids.filterMap id).dedup.countP (pendingIn s) ∧ r.1 + r.2.1 = c + f + ids.length ∧
    r.2.2.attempts = s.attempts ∧ r.2.2.nextId = s.nextId ∧
    ∀ i, r.2.2.row i = (s.row i).map fun j =>
      if some i ∈ ids ∧ j.status = .pending then (cancelJob now).set j else j
  | [], c, f, s => ⟨by simp, rfl, rfl, rfl, fun i => by simp⟩
  | none :: rest, c, f, s => by
    obtain ⟨h1, h2, h3, h4, h5⟩ := foldl_cancelStep rest c (f + 1) s
    refine ⟨by simpa using h1, by simp only [List.foldl_cons, cancelStep, List.length_cons] at h2 ⊢; omega,
      h3, h4, fun i => by simpa using h5 i⟩
  | some a :: rest, c, f, s => by
    have hstep : cancelStep now (c, f, s) (some a) = (c + (if pendingIn s a then 1 else 0),
        f + (if pendingIn s a then 0 else 1), s.update a (cancelJob now)) := by
      have := @updated_cancelJob_isSome s now a
      simp only [cancelStep]
      split <;> simp_all
    obtain ⟨h1, h2, h3, h4, h5⟩ := foldl_cancelStep rest _ _ (s.update a (cancelJob now))
    rw [List.foldl_cons, hstep]
    refine ⟨?_, ?_, h3, h4, fun i => ?_⟩
    · have hc : (some a :: rest).filterMap id = a :: rest.filterMap id := rfl
      have hp : (fun k => pendingIn s k && k != a) = pendingIn (s.update a (cancelJob now)) :=
        funext fun k => (pendingIn_cancel a k).symm
      rw [h1, hc, countP_dedup_cons, hp]
      split_ifs <;> omega
    · rw [h2, List.length_cons]
      split_ifs <;> omega
    · rw [h5 i, row_update]
      cases hr : s.row i with
      | none => rfl
      | some j =>
        have hid : j.id = i := row_id hr
        by_cases hia : i = a
        · subst hia
          by_cases hp : j.status = .pending <;> simp [cancelJob, hid, hp]
        · simp [hid, hia]

end cancel

/-- A bulk cancel cancels each listed pending job once and no other row, and counts
every other id as failed. -/
theorem bulk_cancel_each_once (s : Store) (jobIds : List (Option Nat)) (jobType status : String) (now : Int) :
    let r := handleBulkCancel s jobIds jobType status now
    let cancelled := (jobIds.filterMap id).dedup.countP (pendingIn s)
    (jobIds = [] → r.2 = (none, s) ∧
      r.1 = if jobType ≠ "" ∨ status ≠ "" then writeError 501 "Cancellation by criteria not yet implemented"
        else writeError 400 "Must provide job_ids or criteria") ∧
    (jobIds ≠ [] → r.1 = ok 200 ∧ r.2.1 = some ⟨cancelled, jobIds.length - cancelled, jobIds.length⟩ ∧
      r.2.2.attempts = s.attempts ∧ r.2.2.nextId = s.nextId ∧
      ∀ i, r.2.2.row i = (s.row i).map fun j =>
        if some i ∈ jobIds ∧ j.status = .pending then (cancelJob now).set j else j) := by
  intro r cancelled
  refine ⟨fun h => ?_, fun h => ?_⟩
  · subst h
    simp only [r, handleBulkCancel, List.length_nil, Nat.lt_irrefl, if_false]
    split_ifs <;> simp_all
  · have hpos : jobIds.length > 0 := List.length_pos.mpr h
    obtain ⟨h1, h2, h3, h4, h5⟩ := @foldl_cancelStep now jobIds 0 0 s
    simp only [r, handleBulkCancel, if_pos hpos]
    refine ⟨trivial, ?_, h3, h4, h5⟩
    congr 1
    simp only [CancelCounts.mk.injEq]
    omega

example : (handleBulkCancel (handleSubmitJob Store.empty ⟨"t", "u", "", [], [], "foreground", 0⟩ 0).2
    [some 0, some 0, none] "" "" 1).2.1 = some ⟨1, 2, 3⟩ := by decide

end executr.server
