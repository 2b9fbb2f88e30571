-- The statistics of the admin endpoint: the GROUP BY counts partition the table,
-- the queue gauge is rebuilt from them, and `active_executors` counts jobs.
import Mathlib.Data.List.Dedup
import Executr.Server.Invariant
import Executr.Go

namespace executr.server

open executr.store

/-! ## The queries -/

/-- One group of a `SELECT key, COUNT(*) .. GROUP BY key`. -/
structure GroupCount where
  key : String
  count : Nat
deriving DecidableEq, Repr

/-- A `GROUP BY` over a column with values `keys`: one group per value some row has. -/
def groupCount {κ : Type} [DecidableEq κ] (keys : List κ) (text : κ → String) (col : Job → κ)
    (rows : List Job) : List GroupCount :=
  keys.filterMap fun k =>
    let n := rows.countP (col · == k)
    if n = 0 then none else some ⟨text k, n⟩

/-- The values the CHECK constraint on `status` allows. -/
def allStatuses : List Status := [.pending, .running, .completed, .failed, .cancelled]

/-- The values the CHECK constraint on `priority` allows. -/
def allPriorities : List Priority := [.foreground, .background, .bestEffort]

def countJobsByStatus (s : Store) : List GroupCount :=
  groupCount allStatuses Status.text (·.status) s.jobs

def countPendingJobsByPriority (s : Store) : List GroupCount :=
  groupCount allPriorities Priority.text (·.priority) (s.jobs.filter (·.status == .pending))

/-- The WHERE clause of `GetActiveExecutors`. -/
def isActive (now : Int) (j : Job) : Bool :=
  j.status == .running && j.lastHeartbeat.any (now - 30 * second < ·)

/-- A row of `GetActiveExecutors`. -/
structure ActiveExecutor where
  executorId : Option String
  jobId : Nat
  jobType : String
  lastHeartbeat : Option Int
  jobsCompleted : Nat
deriving DecidableEq, Repr

/-- `GetActiveExecutors`, a row per active job; its `ORDER BY` is left out. -/
def getActiveExecutors (s : Store) (now : Int) : List ActiveExecutor :=
  ((s.jobs.filter (isActive now)).map fun j =>
    ⟨j.executorId, j.id, j.jobType, j.lastHeartbeat,
      s.jobs.countP fun k => k.executorId.isSome && k.executorId == j.executorId &&
        k.status == .completed⟩).dedup

/-! ## The maps and the gauge -/

/-- The loop of `UpdateQueueMetrics` that adds the counts of a map. -/
def mapTotal (m : List (String × Nat)) : Nat := m.foldl (fun total e => total + e.2) 0

/-- `metrics.UpdateQueueMetrics`: after `Reset`, a value per pending priority and the
total of each other map under `all`. -/
def updateQueueMetrics (pending running completed failed cancelled : List (String × Nat)) :
    List ((String × String) × Nat) :=
  let g := pending.foldl (fun g e => assign g ("pending", e.1) e.2) []
  assign (assign (assign (assign g ("running", "all") (mapTotal running))
    ("completed", "all") (mapTotal completed)) ("failed", "all") (mapTotal failed))
    ("cancelled", "all") (mapTotal cancelled)

/-- The JSON body of `handleAdminStats`, its timestamp left out. -/
structure AdminStats where
  jobsByStatus : List GroupCount
  pendingByPriority : List GroupCount
  activeExecutors : Nat
deriving DecidableEq, Repr

/-- The map of a status that the loop over the status groups fills. -/
def statusMap (statusCounts : List GroupCount) (status : String) : List (String × Nat) :=
  statusCounts.foldl (fun m g => if g.key = status then assign m "all" g.count else m) []

/-- `handleAdminStats`: the body and the gauge it leaves. -/
def handleAdminStats (s : Store) (method : String) (now : Int) :
    Response × Option (AdminStats × List ((String × String) × Nat)) :=
  if method ≠ "GET" then (⟨405, none⟩, none)
  else
    let statusCounts := countJobsByStatus s
    let priorityCounts := countPendingJobsByPriority s
    let pendingMap := priorityCounts.foldl (fun m p => assign m p.key p.count) []
    (ok 200, some (⟨statusCounts, priorityCounts, (getActiveExecutors s now).length⟩,
      updateQueueMetrics pendingMap (statusMap statusCounts "running")
        (statusMap statusCounts "completed") (statusMap statusCounts "failed")
        (statusMap statusCounts "cancelled")))

/-! ## What the statistics should show -/

/-- The rows with status `st`. -/
def statusTotal (s : Store) (st : Status) : Nat := s.jobs.countP (·.status == st)

/-- The pending rows of priority `p`. -/
def pendingOf (s : Store) (p : Priority) : Nat :=
  s.jobs.countP fun j => j.status == .pending && j.priority == p

/-- The rows the groups count, all together. -/
def groupsTotal : List GroupCount → Nat
  | [] => 0
  | g :: gs => g.count + groupsTotal gs

/-- What the queue gauge is meant to show of a table. -/
def queueReading (s : Store) (labels : String × String) : Option Nat :=
  match Status.ofText labels.1 with
  | some .pending =>
    (Priority.ofText labels.2).bind fun p => if pendingOf s p = 0 then none else some (pendingOf s p)
  | some st => if labels.2 = "all" then some (statusTotal s st) else none
  | none => none

/-! ## The groups -/

theorem countP_or_of_disjoint {α : Type} {p q : α → Bool} :
    ∀ l : List α, (∀ a ∈ l, ¬(p a ∧ q a)) → l.countP (fun a => p a || q a) = l.countP p + l.countP q
  | [], _ => rfl
  | a :: l, h => by
    have ih := countP_or_of_disjoint l fun b hb => h b (List.mem_cons_of_mem a hb)
    have ha := h a (List.mem_cons_self a l)
    rw [List.countP_cons, List.countP_cons, List.countP_cons, ih]
    cases hp : p a <;> cases hq : q a <;> simp [hp, hq] at ha ⊢ <;> omega

section groups

variable {κ : Type} [DecidableEq κ] (text : κ → String) (col : Job → κ) (rows : List Job)

theorem groupCount_cons (k : κ) (ks : List κ) :
    groupCount (k :: ks) text col rows =
      (if rows.countP (col · == k) = 0 then [] else [⟨text k, rows.countP (col · == k)⟩]) ++
        groupCount ks text col rows := by
  unfold groupCount
  rw [List.filterMap_cons]
  by_cases h : rows.countP (col · == k) = 0 <;> simp [h]

theorem groupCount_keys_sublist :
    ∀ keys : List κ, ((groupCount keys text col rows).map (·.key)).Sublist (keys.map text)
  | [] => List.Sublist.slnil
  | k :: ks => by
    have ih := groupCount_keys_sublist ks
    rw [groupCount_cons]
    split_ifs
    · exact ih.cons _
    · exact ih.cons₂ _

theorem find?_groupCount (t : String) :
    ∀ keys : List κ, (keys.map text).Nodup →
      (groupCount keys text col rows).find? (·.key == t) =
        (keys.find? (text · == t)).bind fun k =>
          if rows.countP (col · == k) = 0 then none else some ⟨t, rows.countP (col · == k)⟩
  | [], _ => rfl
  | k :: ks, hnd => by
    rw [List.map_cons, List.nodup_cons] at hnd
    rw [groupCount_cons, List.find?_append, find?_groupCount t ks hnd.2, List.find?_cons]
    by_cases hk : text k = t
    · have hnone : ks.find? (text · == t) = none :=
        List.find?_eq_none.mpr fun x hx ht => hnd.1 (List.mem_map.mpr ⟨x, hx, (beq_iff_eq.mp ht).trans hk.symm⟩)
      rw [hnone, Option.none_bind, Option.or_none, hk, beq_self_eq_true, Option.some_bind]
      split_ifs <;> simp only [List.find?_nil, List.find?_singleton, hk, beq_self_eq_true, if_true]
    · rw [beq_eq_false_iff_ne.mpr hk]
      split_ifs <;> simp only [List.find?_nil, List.find?_singleton, hk, beq_eq_false_iff_ne.mpr hk,
        Option.none_or, if_false, Bool.false_eq_true]

theorem groupsTotal_groupCount :
    ∀ keys : List κ, keys.Nodup → groupsTotal (groupCount keys text col rows) =
      rows.countP fun r => keys.contains (col r)
  | [], _ => by simp [groupCount, groupsTotal]
  | k :: ks, hnd => by
    rw [List.nodup_cons] at hnd
    have hdis : ∀ r ∈ rows, ¬((col r == k) = true ∧ ks.contains (col r) = true) := by
      rintro r - ⟨hk, hks⟩
      exact hnd.1 (by simpa [beq_iff_eq.mp hk] using hks)
    simp only [List.contains_cons]
    rw [countP_or_of_disjoint rows hdis, groupCount_cons, ← groupsTotal_groupCount ks hnd.2]
    split_ifs with h0
    · simp [h0]
    · simp [groupsTotal]

end groups

theorem foldl_select (t : String) :
    ∀ (gs : List GroupCount) (m : List (String × Nat)), (gs.map (·.key)).Nodup →
      gs.foldl (fun m g => if g.key = t then assign m "all" g.count else m) m =
        match gs.find? (·.key == t) with
        | some g => assign m "all" g.count
        | none => m
  | [], _, _ => rfl
  | g :: gs, m, hnd => by
    rw [List.map_cons, List.nodup_cons] at hnd
    rw [List.foldl_cons, foldl_select t gs _ hnd.2, List.find?_cons]
    by_cases hg : g.key = t
    · have hnone : gs.find? (·.key == t) = none :=
        List.find?_eq_none.mpr fun x hx ht => hnd.1 (List.mem_map.mpr ⟨x, hx, (beq_iff_eq.mp ht).trans hg.symm⟩)
      simp [hnone, hg]
    · cases gs.find? (·.key == t) <;> simp [hg, beq_eq_false_iff_ne.mpr hg]

/-! ## The handler -/

theorem find?_allStatuses (st : Status) : allStatuses.find? (Status.text · == st.text) = some st := by
  cases st <;> rfl

theorem find?_allPriorities (b : String) :
    allPriorities.find? (Priority.text · == b) = Priority.ofText b := by
  unfold Priority.ofText
  split_ifs with h1 h2 h3 <;> (try subst_vars) <;> try decide
  exact List.find?_eq_none.mpr fun p _ h => by
    cases p <;> simp only [Priority.text, beq_iff_eq] at h <;> subst h <;> contradiction

theorem Status.ofText_text (st : Status) : Status.ofText st.text = some st := by
  cases st <;> rfl

theorem mapTotal_statusMap (s : Store) (st : Status) :
    mapTotal (statusMap (countJobsByStatus s) st.text) = statusTotal s st := by
  have hkeys : ((countJobsByStatus s).map (·.key)).Nodup :=
    (groupCount_keys_sublist _ _ _ _).nodup (by decide)
  rw [statusMap, foldl_select _ _ _ hkeys, countJobsByStatus, find?_groupCount _ _ _ _ _ (by decide),
    find?_allStatuses, Option.some_bind]
  split_ifs with h0 <;> simp [mapTotal, assign, statusTotal, h0]

theorem mapGet_pendingMap (s : Store) (b : String) :
    mapGet ((countPendingJobsByPriority s).foldl (fun m p => assign m p.key p.count) []) b =
      (Priority.ofText b).bind fun p => if pendingOf s p = 0 then none else some (pendingOf s p) := by
  have hkeys : ((countPendingJobsByPriority s).map (·.key)).Nodup :=
    (groupCount_keys_sublist _ _ _ _).nodup (by decide)
  have hp : ∀ p, (s.jobs.filter (·.status == .pending)).countP (·.priority == p) = pendingOf s p :=
    fun p => by simp only [List.countP_filter, pendingOf, Bool.and_comm]
  rw [mapGet_foldl_assign GroupCount.key GroupCount.count b _ _ hkeys, countPendingJobsByPriority,
    find?_groupCount _ _ _ _ _ (by decide), find?_allPriorities]
  cases Priority.ofText b with
  | none => rfl
  | some p =>
    simp only [Option.some_bind, hp]
    split_ifs <;> rfl

theorem mapGet_pendingGauge {pm : List (String × Nat)} (hnd : (pm.map (·.1)).Nodup) (a b : String) :
    mapGet (pm.foldl (fun g e => assign g ("pending", e.1) e.2) []) (a, b) =
      if a = "pending" then mapGet pm b else none := by
  have hnd' : (pm.map fun e => ("pending", e.1)).Nodup := by
    simpa [List.map_map, Function.comp_def] using hnd.map (Prod.mk.inj_left "pending")
  have hl := mapGet_foldl_assign (fun e : String × Nat => ("pending", e.1)) (fun e => e.2) (a, b) pm [] hnd'
  simp only at hl
  rw [hl, mapGet]
  by_cases ha : a = "pending"
  · subst ha
    simp only [instBEqOfDecidableEq, Prod.mk.injEq, true_and, if_true, mapGet]
    cases pm.find? fun x => decide (x.1 = b) <;> rfl
  · rw [if_neg ha, List.find?_eq_none.mpr fun e _ h => ha (by
      simp only [instBEqOfDecidableEq, decide_eq_true_eq, Prod.mk.injEq] at h
      exact h.1.symm)]
    rfl

theorem Status.text_of_ofText {a : String} {st : Status} (h : Status.ofText a = some st) :
    st.text = a := by
  by_cases h1 : a = "pending"
  · subst h1; cases h; rfl
  by_cases h2 : a = "running"
  · subst h2; cases h; rfl
  by_cases h3 : a = "completed"
  · subst h3; cases h; rfl
  by_cases h4 : a = "failed"
  · subst h4; cases h; rfl
  by_cases h5 : a = "cancelled"
  · subst h5; cases h; rfl
  simp [Status.ofText, h1, h2, h3, h4, h5] at h

theorem updateQueueMetrics_reads_table (s : Store) (labels : String × String) :
    mapGet (updateQueueMetrics ((countPendingJobsByPriority s).foldl (fun m p => assign m p.key p.count) [])
      (statusMap (countJobsByStatus s) "running") (statusMap (countJobsByStatus s) "completed")
      (statusMap (countJobsByStatus s) "failed") (statusMap (countJobsByStatus s) "cancelled")) labels =
      queueReading s labels := by
  obtain ⟨a, b⟩ := labels
  have hpm : (((countPendingJobsByPriority s).foldl (fun m p => assign m p.key p.count) []).map (·.1)).Nodup :=
    foldl_assign_keys_nodup GroupCount.key GroupCount.count _ List.nodup_nil
  have hr : mapTotal (statusMap (countJobsByStatus s) "running") = statusTotal s .running :=
    mapTotal_statusMap s .running
  have hc : mapTotal (statusMap (countJobsByStatus s) "completed") = statusTotal s .completed :=
    mapTotal_statusMap s .completed
  have hf : mapTotal (statusMap (countJobsByStatus s) "failed") = statusTotal s .failed :=
    mapTotal_statusMap s .failed
  have hx : mapTotal (statusMap (countJobsByStatus s) "cancelled") = statusTotal s .cancelled :=
    mapTotal_statusMap s .cancelled
  simp only [updateQueueMetrics, mapGet_assign, mapGet_pendingGauge hpm, mapGet_pendingMap, hr, hc, hf, hx]
  rcases hst : Status.ofText a with _ | st
  · have hne : ∀ st : Status, a ≠ st.text := fun st h => by
      rw [h, Status.ofText_text] at hst
      cases hst
    have h1 : a ≠ "pending" := hne .pending
    have h2 : a ≠ "running" := hne .running
    have h3 : a ≠ "completed" := hne .completed
    have h4 : a ≠ "failed" := hne .failed
    have h5 : a ≠ "cancelled" := hne .cancelled
    simp [queueReading, hst, h1, h2, h3, h4, h5]
  · obtain rfl := Status.text_of_ofText hst
    cases st <;> simp only [queueReading, hst] <;> simp [Status.text]

theorem groupsTotal_countJobsByStatus (s : Store) : groupsTotal (countJobsByStatus s) = s.jobs.length := by
  rw [countJobsByStatus, groupsTotal_groupCount _ _ _ _ (by decide)]
  exact List.countP_eq_length.mpr fun j _ => by cases j.status <;> decide

theorem groupsTotal_countPendingJobsByPriority (s : Store) :
    groupsTotal (countPendingJobsByPriority s) = statusTotal s .pending := by
  rw [countPendingJobsByPriority, groupsTotal_groupCount _ _ _ _ (by decide),
    List.countP_eq_length.mpr fun j _ => by cases j.priority <;> decide, ← List.countP_eq_length_filter]
  rfl

theorem length_getActiveExecutors {s : Store} (hnd : s.ids.Nodup) (now : Int) :
    (getActiveExecutors s now).length = s.jobs.countP (isActive now) := by
  have hrows : ((s.jobs.filter (isActive now)).map (·.id)).Nodup :=
    ((List.filter_sublist _).map _).nodup hnd
  unfold getActiveExecutors
  rw [List.dedup_eq_self.mpr (List.Nodup.of_map ActiveExecutor.jobId (by simpa [List.map_map] using hrows)),
    List.length_map, List.countP_eq_length_filter]

/-- In every reachable state the stats answer 200, their groups partition the rows,
`active_executors` counts running jobs, and the gauge reads the table. -/
theorem admin_stats_mirror_table {cfg : Config} {sys : Sys} (h : Reachable cfg sys) (now : Int) :
    ∃ stats gauge, handleAdminStats sys.store "GET" now = (ok 200, some (stats, gauge)) ∧
      groupsTotal stats.jobsByStatus = sys.store.jobs.length ∧
      groupsTotal stats.pendingByPriority = statusTotal sys.store .pending ∧
      stats.activeExecutors = sys.store.jobs.countP (isActive now) ∧
      ∀ labels, mapGet gauge labels = queueReading sys.store labels :=
  ⟨_, _, rfl, groupsTotal_countJobsByStatus _, groupsTotal_countPendingJobsByPriority _,
    length_getActiveExecutors h.inv.ids_nodup now, updateQueueMetrics_reads_table _⟩

/-- One executor that claimed two jobs. -/
def oneExecutorTwoJobs : List Event :=
  [.submit ⟨"t", "u", "d", [], [], "foreground", 0⟩ 0, .submit ⟨"t", "u", "d", [], [], "background", 0⟩ 0,
   .claim ⟨"A", "h"⟩ (some 0), .claimUpdate 0 1, .claim ⟨"A", "h"⟩ (some 1), .claimUpdate 1 1]

theorem one_executor_two_jobs_stats :
    Reachable defaultConfig (Sys.after defaultConfig oneExecutorTwoJobs) ∧
    ∃ stats gauge, handleAdminStats (Sys.after defaultConfig oneExecutorTwoJobs).store "GET" 2 =
        (ok 200, some (stats, gauge)) ∧
      groupsTotal stats.jobsByStatus = (Sys.after defaultConfig oneExecutorTwoJobs).store.jobs.length ∧
      groupsTotal stats.pendingByPriority = statusTotal (Sys.after defaultConfig oneExecutorTwoJobs).store .pending ∧
      stats.activeExecutors = (Sys.after defaultConfig oneExecutorTwoJobs).store.jobs.countP (isActive 2) ∧
      ∀ labels, mapGet gauge labels = queueReading (Sys.after defaultConfig oneExecutorTwoJobs).store labels :=
  have h : Reachable defaultConfig (Sys.after defaultConfig oneExecutorTwoJobs) := Sys.after_reachable (by decide)
  ⟨h, admin_stats_mirror_table h 2⟩

example : ((handleAdminStats (Sys.after defaultConfig oneExecutorTwoJobs).store "GET" 2).2.map
    (·.1.activeExecutors)) = some 2 := by decide

end executr.server
