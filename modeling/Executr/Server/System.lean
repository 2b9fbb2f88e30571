-- The server as a concurrent system: a handler is one statement, while a claim
-- and a tick are several, between which any other statement may run.
import Executr.Server.Handlers

namespace executr.server

open executr.store

/-- An in-flight claim: its subquery holds row `jobId` until the UPDATE commits. -/
structure ClaimTx where
  req : ClaimRequest
  jobId : Nat
  committed : Bool
deriving DecidableEq, Repr

/-- A tick of a scan-then-update loop: its scan time and the rows still to update. -/
structure Tick where
  now : Int
  rows : List Job
deriving DecidableEq, Repr

structure Sys where
  store : Store
  claims : List ClaimTx
  stale : Tick
  retry : Tick
deriving DecidableEq, Repr

/-- The server with empty tables. -/
def Sys.init : Sys := ⟨Store.empty, [], ⟨0, []⟩, ⟨0, []⟩⟩

/-- The row a claim holds locked: its own until its UPDATE commits. -/
def ClaimTx.lock (tx : ClaimTx) : Option Nat := if tx.committed then none else some tx.jobId

/-- The rows that in-flight claim subqueries hold locked. -/
def Sys.locked (s : Sys) : List Nat := s.claims.filterMap ClaimTx.lock

/-- A statement of some request or loop; `pick` is the row the claim's subquery returns. -/
inductive Event
  | submit (sub : JobSubmission) (now : Int)
  | submitBulk (sub : JobSubmission) (now : Int)
  | cancel (id : Nat) (now : Int)
  | claim (req : ClaimRequest) (pick : Option Nat)
  | claimUpdate (k : Nat) (now : Int)
  | claimRecord (k : Nat) (now : Int)
  | heartbeat (id : Nat) (req : HeartbeatRequest) (now : Int)
  | complete (id : Nat) (req : CompleteRequest) (now : Int)
  | fail (id : Nat) (req : FailRequest) (now : Int)
  | staleScan (now : Int)
  | staleReset
  | retryScan (now : Int)
  | retryPromote (now : Int)
  | cleanup (now : Int)
deriving DecidableEq, Repr

def Sys.setStore (s : Sys) (st : Store) : Sys := { s with store := st }

/-- One statement; none when it cannot run now (a pick the subquery cannot make, a step
of nothing in flight, or a statement waiting for a row lock). -/
def exec (cfg : Config) (s : Sys) : Event → Option Sys
  | .submit sub now => some (s.setStore (handleSubmitJob s.store sub now).2)
  | .submitBulk sub now => some (s.setStore (handleBulkItem s.store sub now).2)
  | .cancel id now =>
    if id ∈ s.locked then none else some (s.setStore (handleCancelJob s.store id now).2)
  | .claim req pick =>
    if !claimRequestOk req then some s
    else if ClaimPick s.store s.locked pick then
      match pick with
      | none => some s
      | some i => some { s with claims := s.claims ++ [⟨req, i, false⟩] }
    else none
  | .claimUpdate k now =>
    match s.claims[k]? with
    | some tx =>
      if tx.committed then none
      else some { s with store := s.store.update tx.jobId (claimNextJob tx.req.executorId now)
                         claims := s.claims.set k { tx with committed := true } }
    | none => none
  | .claimRecord k now =>
    match s.claims[k]? with
    | some tx =>
      if !tx.committed || tx.jobId ∈ s.locked then none
      else some { s with store := (recordJobAttempt s.store tx.jobId tx.req.executorId
                                     tx.req.executorIp now).getD s.store
                         claims := s.claims.eraseIdx k }
    | none => none
  | .heartbeat id req now => some (s.setStore (handleHeartbeat s.store id req now).2)
  | .complete id req now => some (s.setStore (handleCompleteJob s.store id req now).2)
  | .fail id req now => some (s.setStore (handleFailJob s.store id req now).2)
  | .staleScan now =>
    if s.stale.rows.isEmpty then some { s with stale := ⟨now, findStaleJobs s.store now⟩ }
    else none
  | .staleReset =>
    match s.stale.rows with
    | r :: rest => some { s with store := s.store.update r.id resetStaleJob
                                 stale := { s.stale with rows := rest } }
    | [] => none
  | .retryScan now =>
    if s.retry.rows.isEmpty then some { s with retry := ⟨now, getRetriableJobs s.store now⟩ }
    else none
  | .retryPromote now =>
    match s.retry.rows with
    | r :: rest => some { s with store := s.store.update r.id (incrementJobRetry now)
                                 retry := { s.retry with rows := rest } }
    | [] => none
  | .cleanup now => some (s.setStore (cleanupOldJobs cfg s.store now))

/-! ## The locks a step leaves -/

theorem claims_split {cs : List ClaimTx} {k : Nat} {tx : ClaimTx} (h : cs[k]? = some tx) :
    cs = cs.take k ++ tx :: cs.drop (k + 1) ∧
      cs.set k { tx with committed := true } =
        cs.take k ++ { tx with committed := true } :: cs.drop (k + 1) ∧
      cs.eraseIdx k = cs.take k ++ cs.drop (k + 1) := by
  obtain ⟨hk, rfl⟩ := List.getElem?_eq_some_iff.mp h
  refine ⟨?_, List.set_eq_take_cons_drop _ hk, List.eraseIdx_eq_take_drop_succ _ _⟩
  conv => lhs; rw [← List.take_append_drop k cs]
  rw [List.drop_eq_getElem_cons hk]

theorem locked_commit {s : Sys} {k : Nat} {tx : ClaimTx} (h : s.claims[k]? = some tx)
    (hc : tx.committed = false) : ∃ l₁ l₂, s.locked = l₁ ++ tx.jobId :: l₂ ∧
      (s.claims.set k { tx with committed := true }).filterMap ClaimTx.lock = l₁ ++ l₂ := by
  obtain ⟨hs, hset, -⟩ := claims_split h
  refine ⟨(s.claims.take k).filterMap ClaimTx.lock, (s.claims.drop (k + 1)).filterMap ClaimTx.lock,
    ?_, ?_⟩
  · conv => lhs; rw [Sys.locked, hs]
    simp [List.filterMap_append, ClaimTx.lock, hc]
  · simp [hset, List.filterMap_append, ClaimTx.lock]

theorem locked_record {s : Sys} {k : Nat} {tx : ClaimTx} (h : s.claims[k]? = some tx)
    (hc : tx.committed = true) : (s.claims.eraseIdx k).filterMap ClaimTx.lock = s.locked := by
  obtain ⟨hs, -, herase⟩ := claims_split h
  rw [herase, Sys.locked]
  conv => rhs; rw [hs]
  simp [List.filterMap_append, ClaimTx.lock, hc]

/-- A run: the statements one after another, none when one cannot run. -/
def run (cfg : Config) (s : Sys) (es : List Event) : Option Sys := es.foldlM (exec cfg) s

@[simp] theorem run_nil (cfg : Config) (s : Sys) : run cfg s [] = some s := rfl

theorem run_cons (cfg : Config) (s : Sys) (e : Event) (es : List Event) :
    run cfg s (e :: es) = (exec cfg s e).bind fun s' => run cfg s' es := rfl

/-- The states the server reaches from empty tables. -/
inductive Reachable (cfg : Config) : Sys → Prop
  | init : Reachable cfg Sys.init
  | step {s s' : Sys} (e : Event) : Reachable cfg s → exec cfg s e = some s' → Reachable cfg s'

theorem Reachable.run {cfg : Config} {s s' : Sys} {es : List Event} (hs : Reachable cfg s)
    (h : run cfg s es = some s') : Reachable cfg s' := by
  induction es generalizing s with
  | nil => cases h; exact hs
  | cons e es ih =>
    rw [run_cons] at h
    cases he : exec cfg s e with
    | none => simp [he] at h
    | some t => exact ih (hs.step e he) (by simpa [he] using h)

/-- The state a run from empty tables ends in (empty tables if a statement cannot run). -/
def Sys.after (cfg : Config) (es : List Event) : Sys := (run cfg Sys.init es).getD Sys.init

theorem Sys.after_reachable {cfg : Config} {es : List Event} (h : (run cfg Sys.init es).isSome) :
    Reachable cfg (Sys.after cfg es) := by
  obtain ⟨s, hs⟩ := Option.isSome_iff_exists.mp h
  simpa [Sys.after, hs] using Reachable.init.run hs

end executr.server
