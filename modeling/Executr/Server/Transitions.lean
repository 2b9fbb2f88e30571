-- The status DAG over every run, and the bound `max(0, max_retries)` on the
-- failed -> pending moves of each job.
import Executr.Server.Invariant

namespace executr.server

open executr.store

section step

variable {cfg : Config} {s s' : Sys} {e : Event} {i : Nat}

theorem row_lt_nextId {r : Job} (hi : s.Inv) (hr : s.store.row i = some r) :
    i < s.store.nextId :=
  hi.ids_lt i (row_id hr ▸ List.mem_map_of_mem _ (row_mem hr))

theorem exec_nextId_le (hi : s.Inv) (h : exec cfg s e = some s') :
    s.store.nextId ≤ s'.store.nextId :=
  ((step_store hi h).ids hi.ids_nodup hi.ids_lt).2.2

theorem exec_created {r' : Job} (hi : s.Inv) (h : exec cfg s e = some s')
    (hr : s.store.row i = none) (hr' : s'.store.row i = some r') :
    i = s.store.nextId ∧ r'.status = .pending ∧ r'.retryCount = 0 := by
  have hrow := (step_store hi h).row hi.ids_nodup i
  rw [hr, hr'] at hrow
  obtain ⟨t, u, d, p, m, now, rfl⟩ := hrow
  exact ⟨(row_id hr').symm, rfl, rfl⟩

theorem exec_gone (hi : s.Inv) (h : exec cfg s e = some s') (hr : s.store.row i = none)
    (hlt : i < s.store.nextId) : s'.store.row i = none ∧ i < s'.store.nextId := by
  obtain ⟨-, -, hle⟩ := (step_store hi h).ids hi.ids_nodup hi.ids_lt
  refine ⟨?_, Nat.lt_of_lt_of_le hlt hle⟩
  cases hr' : s'.store.row i with
  | none => rfl
  | some r' => exact absurd (exec_created hi h hr hr').1 (Nat.ne_of_lt hlt)

theorem exec_status {r r' : Job} (hi : s.Inv) (h : exec cfg s e = some s')
    (hr : s.store.row i = some r) (hr' : s'.store.row i = some r') :
    (r'.status = r.status ∨ Status.next r.status r'.status) ∧ r'.maxRetries = r.maxRetries ∧
      r'.retryCount = r.retryCount + (if promoted r r' then 1 else 0) ∧
      (promoted r r' → r.retryCount < r.maxRetries) := by
  have hrow := (step_store hi h).row hi.ids_nodup i
  rw [hr, hr'] at hrow
  rcases hrow with heq | hc
  · have : promoted r r = false := by
      cases hs : r.status <;> simp [promoted, hs]
    simp [heq, this]
  · exact ⟨hc.next, hc.maxRetries_eq, hc.retryCount_eq, hc.promoted_lt⟩

end step

/-! ## Counting promotions along a run -/

/-- The statement took job `i` from failed to pending. -/
def stepPromotes (i : Nat) (s s' : Sys) : Bool :=
  match s.store.row i, s'.store.row i with
  | some r, some r' => promoted r r'
  | _, _ => false

/-- The failed -> pending transitions of job `i` along a run. -/
def promotions (cfg : Config) (i : Nat) : Sys → List Event → Nat
  | _, [] => 0
  | s, e :: es =>
    match exec cfg s e with
    | some s' => (if stepPromotes i s s' then 1 else 0) + promotions cfg i s' es
    | none => 0

section run

variable {cfg : Config} {i : Nat}

theorem promotions_cons {s s' : Sys} {e : Event} (es : List Event)
    (h : exec cfg s e = some s') :
    promotions cfg i s (e :: es) = (if stepPromotes i s s' then 1 else 0) + promotions cfg i s' es := by
  simp [promotions, h]

theorem promotions_append {s t : Sys} {es₁ : List Event} (es₂ : List Event)
    (h : run cfg s es₁ = some t) :
    promotions cfg i s (es₁ ++ es₂) = promotions cfg i s es₁ + promotions cfg i t es₂ := by
  induction es₁ generalizing s with
  | nil => cases h; simp [promotions]
  | cons e es ih =>
    rw [run_cons] at h
    cases he : exec cfg s e with
    | none => simp [he] at h
    | some s1 =>
      rw [he, Option.some_bind] at h
      rw [List.cons_append, promotions_cons _ he, promotions_cons _ he, ih h, Nat.add_assoc]

theorem promotions_gone {s : Sys} (es : List Event) (hi : s.Inv) (hr : s.store.row i = none)
    (hlt : i < s.store.nextId) : promotions cfg i s es = 0 := by
  induction es generalizing s with
  | nil => rfl
  | cons e es ih =>
    cases he : exec cfg s e with
    | none => simp [promotions, he]
    | some s1 =>
      obtain ⟨hr1, hlt1⟩ := exec_gone hi he hr hlt
      rw [promotions_cons _ he, ih (exec_inv hi he) hr1 hlt1]
      simp [stepPromotes, hr]

theorem run_gone {s s' : Sys} {es : List Event} (hi : s.Inv) (h : run cfg s es = some s')
    (hr : s.store.row i = none) (hlt : i < s.store.nextId) : s'.store.row i = none := by
  induction es generalizing s with
  | nil => cases h; exact hr
  | cons e es ih =>
    rw [run_cons] at h
    cases he : exec cfg s e with
    | none => simp [he] at h
    | some s1 =>
      obtain ⟨hr1, hlt1⟩ := exec_gone hi he hr hlt
      exact ih (exec_inv hi he) (by simpa [he] using h) hr1 hlt1

/-- The promotions still to come fit in what the retry count leaves of the budget. -/
theorem promotions_budget {s : Sys} {r : Job} (es : List Event) (hi : s.Inv)
    (hr : s.store.row i = some r) :
    (promotions cfg i s es : Int) + r.retryCount ≤ max 0 r.maxRetries := by
  induction es generalizing s r with
  | nil => simpa [promotions] using (hi.good i r hr).retry_le
  | cons e es ih =>
    cases he : exec cfg s e with
    | none => simpa [promotions, he] using (hi.good i r hr).retry_le
    | some s1 =>
      rw [promotions_cons _ he]
      cases hr1 : s1.store.row i with
      | none =>
        have hlt := Nat.lt_of_lt_of_le (row_lt_nextId hi hr) (exec_nextId_le hi he)
        rw [promotions_gone es (exec_inv hi he) hr1 hlt]
        simpa [stepPromotes, hr, hr1] using (hi.good i r hr).retry_le
      | some r1 =>
        obtain ⟨-, hm, hc, -⟩ := exec_status hi he hr hr1
        have := ih (exec_inv hi he) hr1
        simp only [stepPromotes, hr, hr1] at this ⊢
        rw [hm, hc] at this
        by_cases hp : promoted r r1 <;> simp [hp] at this ⊢ <;> omega

/-- The retry count of job `i` at the end of a run, or 0 before it exists. -/
def retryCountOf (i : Nat) (s : Sys) : Int := ((s.store.row i).map (·.retryCount)).getD 0

theorem promotions_count {s s' : Sys} {r' : Job} {es : List Event} (hi : s.Inv)
    (h : run cfg s es = some s') (hr' : s'.store.row i = some r')
    (hnew : s.store.row i = none → s.store.nextId ≤ i) :
    (promotions cfg i s es : Int) + retryCountOf i s = r'.retryCount := by
  induction es generalizing s with
  | nil => cases h; simp [promotions, retryCountOf, hr']
  | cons e es ih =>
    rw [run_cons] at h
    cases he : exec cfg s e with
    | none => simp [he] at h
    | some s1 =>
      rw [he, Option.some_bind] at h
      have hi1 := exec_inv hi he
      have hnew1 : s1.store.row i = none → s1.store.nextId ≤ i := fun hn => by
        by_contra hlt
        have := run_gone hi1 h hn (by omega)
        simp [this] at hr'
      have step := ih hi1 h hnew1
      rw [promotions_cons _ he]
      cases hr : s.store.row i with
      | none =>
        cases hr1 : s1.store.row i with
        | none => simpa [stepPromotes, hr, retryCountOf, hr1] using step
        | some r1 =>
          obtain ⟨-, -, h0⟩ := exec_created hi he hr hr1
          simpa [stepPromotes, hr, hr1, retryCountOf, h0] using step
      | some r =>
        cases hr1 : s1.store.row i with
        | none =>
          have := Nat.lt_of_lt_of_le (row_lt_nextId hi hr) (exec_nextId_le hi he)
          exact absurd (hnew1 hr1) (by omega)
        | some r1 =>
          obtain ⟨-, -, hc, -⟩ := exec_status hi he hr hr1
          simp only [stepPromotes, hr, hr1, retryCountOf, Option.map_some', Option.getD_some] at step ⊢
          rw [hc] at step
          by_cases hp : promoted r r1 <;> simp [hp] at step ⊢ <;> omega

end run

/-- Every statement moves a status along the DAG or keeps it, keeps `max_retries`,
and promotes only below it; over a run, promotions fit in `max(0, max_retries)`. -/
theorem status_dag_retry_budget (cfg : Config) :
    (∀ s e s' i r r', Reachable cfg s → exec cfg s e = some s' →
        s.store.row i = some r → s'.store.row i = some r' →
        (r'.status = r.status ∨ Status.next r.status r'.status) ∧
        r'.maxRetries = r.maxRetries ∧ r.retryCount ≤ r'.retryCount ∧
        (promoted r r' → r.retryCount < r.maxRetries)) ∧
    (∀ s e s' i r', Reachable cfg s → exec cfg s e = some s' →
        s.store.row i = none → s'.store.row i = some r' →
        r'.status = .pending ∧ r'.retryCount = 0) ∧
    (∀ es i k r, (run cfg Sys.init (es.take k)).bind (fun t => t.store.row i) = some r →
        (promotions cfg i Sys.init es : Int) ≤ max 0 r.maxRetries) := by
  refine ⟨fun s e s' i r r' hs h hr hr' => ?_, fun s e s' i r' hs h hr hr' => ?_,
    fun es i k r hk => ?_⟩
  · obtain ⟨hn, hm, hc, hp⟩ := exec_status hs.inv h hr hr'
    refine ⟨hn, hm, ?_, hp⟩
    rw [hc]
    split <;> omega
  · exact (exec_created hs.inv h hr hr').2
  · obtain ⟨sk, hsk, hrk⟩ := Option.bind_eq_some.mp hk
    rw [← List.take_append_drop k es, promotions_append _ hsk]
    have hc := promotions_count init_inv hsk hrk fun _ => Nat.zero_le _
    have hb := @promotions_budget cfg i sk r (es.drop k) (run_inv init_inv hsk) hrk
    have h0 : retryCountOf i Sys.init = 0 := rfl
    rw [h0, Int.add_zero] at hc
    push_cast
    omega

/-- The UPDATE of a claim takes job 0 along an edge of the DAG. -/
theorem claim_update_follows_dag :
    let s := Sys.after defaultConfig [.submit ⟨"t", "u", "d", [], [], "foreground", 2⟩ 0, .claim ⟨"A", "h"⟩ (some 0)]
    ∃ s' r r', exec defaultConfig s (.claimUpdate 0 1) = some s' ∧ s.store.row 0 = some r ∧
      s'.store.row 0 = some r' ∧ (r'.status = r.status ∨ Status.next r.status r'.status) ∧
      r'.maxRetries = r.maxRetries ∧ r.retryCount ≤ r'.retryCount ∧
      (promoted r r' → r.retryCount < r.maxRetries) := by
  intro s
  have hs : Reachable defaultConfig s := Sys.after_reachable (by decide)
  obtain ⟨s', he⟩ := Option.isSome_iff_exists.mp (show (exec defaultConfig s (.claimUpdate 0 1)).isSome by decide)
  obtain ⟨r, hr⟩ := Option.isSome_iff_exists.mp (show (s.store.row 0).isSome by decide)
  obtain ⟨r', hr'⟩ := Option.isSome_iff_exists.mp (show (s'.store.row 0).isSome by
    rw [show s' = (exec defaultConfig s (.claimUpdate 0 1)).getD s by simp [he]]; decide)
  exact ⟨s', r, r', he, hr, hr', (status_dag_retry_budget defaultConfig).1 s _ s' 0 r r' hs he hr hr'⟩

end executr.server
