-- `GET /api/v1/jobs`: the query parameters, `strconv.Atoi` on limit and offset, and
-- `ListJobs`; an absent filter reaches the SQL as the empty text, not NULL.
import Executr.Server.Handlers

namespace executr.server

open executr.store

/-! ## The request -/

/-- The decoded query string, pairs in the order they appear. -/
def Query := List (String × String)

/-- `url.Values.Get`: the first value of the key, "" when there is none. -/
def Query.get (q : Query) (key : String) : String :=
  ((List.find? (fun kv : String × String => kv.1 == key) q).map (·.2)).getD ""

/-- `strconv.Atoi` on a 64-bit `int`. -/
def atoi (t : String) : Option Int :=
  let (neg, ds) : Bool × List Char := match t.data with
    | '-' :: ds => (true, ds)
    | '+' :: ds => (false, ds)
    | ds => (false, ds)
  if ds = [] ∨ ds.all Char.isDigit = false then none
  else
    let n : Int := ds.foldl (fun n c => 10 * n + (c.toNat - '0'.toNat)) 0
    let v := if neg then -n else n
    if -9223372036854775808 ≤ v ∧ v ≤ 9223372036854775807 then some v else none

/-- The limit the handler passes: `int32` of a positive parsed limit, else 100. -/
def listLimit (q : Query) : Int :=
  match atoi (q.get "limit") with
  | some n => if n > 0 then toInt32 n else 100
  | none => 100

/-- The offset the handler passes: `int32` of a non-negative parsed offset, else 0. -/
def listOffset (q : Query) : Int :=
  match atoi (q.get "offset") with
  | some n => if n ≥ 0 then toInt32 n else 0
  | none => 0

/-- The parameters `handleListJobs` passes to `ListJobs`. -/
def listParams (q : Query) : ListJobsParams :=
  ⟨q.get "status", q.get "type", q.get "priority", listLimit q, listOffset q⟩

/-- `handleListJobs`: the answer and the jobs it encodes. -/
def handleListJobs (s : Store) (q : Query) : Response × List Job :=
  match listJobs s (listParams q) with
  | none => (writeError 500 "Failed to list jobs", [])
  | some jobs => (ok 200, jobs)

/-! ## What the list holds -/

theorem Status.text_ne_empty (st : Status) : st.text ≠ "" := by
  cases st <;> decide

theorem Priority.text_ne_empty (p : Priority) : p.text ≠ "" := by
  cases p <;> decide

theorem listFilter_empty {p : ListJobsParams} (h : p.column1 = "" ∨ p.column3 = "") (j : Job) :
    listFilter p j = false := by
  have hs := Status.text_ne_empty j.status
  have hp := Priority.text_ne_empty j.priority
  rcases h with h | h <;> simp [listFilter, isNullOrEq, h, Ne.symm hs, Ne.symm hp]

theorem listJobs_empty {s : Store} {p : ListJobsParams} (h : p.column1 = "" ∨ p.column3 = "")
    {jobs : List Job} (hl : listJobs s p = some jobs) : jobs = [] := by
  unfold listJobs at hl
  split at hl
  · cases hl
  · cases hl
    have hnil : s.jobs.filter (listFilter p) = [] :=
      List.filter_eq_nil_iff.mpr fun j _ => by simp [listFilter_empty h j]
    simp [hnil]

theorem handleListJobs_unfiltered {s : Store} {q : Query} (h : q.get "status" = "" ∨ q.get "priority" = "") :
    (handleListJobs s q).2 = [] := by
  unfold handleListJobs
  split
  · rfl
  · exact listJobs_empty h ‹_›

theorem listLimit_eq {q : Query} {n : Int} (h : atoi (q.get "limit") = some n) (h0 : 0 < n)
    (h1 : n < 2147483648) : listLimit q = n := by
  have hp : ((Nat.pow 2 32 : Nat) : Int) = 4294967296 := rfl
  simp only [listLimit, h, if_pos h0, toInt32, Int.bmod, hp]
  rw [Int.emod_eq_of_lt (by omega) (by omega)]
  split <;> omega

example : listLimit [("limit", "5000")] = 5000 := by decide

theorem listJobs_length {s : Store} {p : ListJobsParams} {jobs : List Job} (hl : listJobs s p = some jobs) :
    jobs.length = min p.limit.toNat ((s.jobs.filter (listFilter p)).length - p.offset.toNat) := by
  unfold listJobs at hl
  split at hl
  · cases hl
  · cases hl
    simp only [List.length_take, List.length_drop, List.length_mergeSort]

/-- The plain `GET /api/v1/jobs` lists nothing, and the limit is not clamped to 1000. -/
theorem list_unfiltered_empty (s : Store) :
    (handleListJobs s []).1 = ok 200 ∧ (handleListJobs s []).2 = [] ∧
    ∀ q n jobs, atoi (q.get "limit") = some n → 0 < n → n < 2147483648 →
      listJobs s (listParams q) = some jobs →
      jobs.length = min n.toNat ((s.jobs.filter (listFilter (listParams q))).length - (listOffset q).toNat) := by
  have hl : listLimit [] = 100 := rfl
  have ho : listOffset [] = 0 := rfl
  refine ⟨?_, handleListJobs_unfiltered (.inl rfl), fun q n jobs hn h0 h1 hj => ?_⟩
  · simp [handleListJobs, listParams, listJobs, hl, ho]
  · rw [listJobs_length hj]
    simp only [listParams, listLimit_eq hn h0 h1]

end executr.server
