-- The claim under concurrency: its subquery locks the first pending row no other
-- claim holds, and its UPDATE finds that row still pending.
import Executr.Server.Invariant

namespace executr.server

open executr.store

section claim

variable {cfg : Config} {s s' : Sys}

theorem claimUpdate_spec {k : Nat} {now : Int} (hi : s.Inv)
    (h : exec cfg s (.claimUpdate k now) = some s') :
    ∃ tx r r', s.claims[k]? = some tx ∧ tx.committed = false ∧
      s.store.row tx.jobId = some r ∧ r.status = .pending ∧
      s.store.updated tx.jobId (claimNextJob tx.req.executorId now) = some r' ∧
      s'.store.row tx.jobId = some r' ∧ r'.status = .running ∧
      r'.executorId = some tx.req.executorId := by
  simp only [exec] at h
  split at h
  · rename_i tx htx
    split at h
    · cases h
    · rename_i hc
      cases h
      have hc : tx.committed = false := by simpa using hc
      obtain ⟨r, hr, hp⟩ := hi.locked_pending _ (mem_locked htx hc)
      refine ⟨tx, r, (claimNextJob tx.req.executorId now).set r, htx, hc, hr, hp, ?_, ?_, rfl, rfl⟩
      · simp [Store.updated, hr, claimNextJob]
      · simp [row_update_self, hr, claimNextJob]
  · cases h

theorem claimUpdate_enabled {k : Nat} {tx : ClaimTx} (now : Int) (htx : s.claims[k]? = some tx)
    (hc : tx.committed = false) : exec cfg s (.claimUpdate k now) ≠ none := by
  simp [exec, htx, hc]

theorem claims_distinct_rows {k₁ k₂ : Nat} {tx₁ tx₂ : ClaimTx} (hi : s.Inv) (hk : k₁ ≠ k₂)
    (h₁ : s.claims[k₁]? = some tx₁) (h₂ : s.claims[k₂]? = some tx₂)
    (hc₁ : tx₁.committed = false) (hc₂ : tx₂.committed = false) : tx₁.jobId ≠ tx₂.jobId := by
  intro heq
  wlog hlt : k₁ < k₂ generalizing k₁ k₂ tx₁ tx₂
  · exact this (Ne.symm hk) h₂ h₁ hc₂ hc₁ heq.symm (by omega)
  have hnd := hi.locked_nodup
  have hsplit := (claims_split h₂).1
  obtain ⟨hk₁, rfl⟩ := List.getElem?_eq_some_iff.mp h₁
  have hmem : s.claims[k₁] ∈ s.claims.take k₂ :=
    List.mem_iff_getElem.mpr ⟨k₁, by simp; omega, by simp⟩
  simp only [Sys.locked] at hnd
  rw [hsplit, List.filterMap_append, List.filterMap_cons] at hnd
  simp only [ClaimTx.lock, hc₂, Bool.false_eq_true, ↓reduceIte, List.nodup_append,
    List.nodup_cons] at hnd
  exact hnd.2.2 (List.mem_filterMap.mpr ⟨_, hmem, by simp [ClaimTx.lock, hc₁, heq]⟩)
    (List.mem_cons_self _ _)

theorem claim_pick_some {req : ClaimRequest} {i : Nat} (h : exec cfg s (.claim req (some i)) = some s')
    (hreq : claimRequestOk req) :
    ∃ j ∈ s.store.jobs, j.id = i ∧ j.status = .pending ∧ i ∉ s.locked ∧
      ∀ a ∈ s.store.jobs, a.status = .pending → a.id ∉ s.locked → ¬ a.claimsBefore j := by
  by_cases hpick : ClaimPick s.store s.locked (some i)
  · obtain ⟨j, hj, rfl, ⟨hp, hl⟩, hmin⟩ := hpick
    exact ⟨j, hj, rfl, hp, hl, fun a ha hap hal => hmin a ha ⟨hap, hal⟩⟩
  · simp [exec, hreq, hpick] at h

theorem claim_pick_none {req : ClaimRequest} (h : exec cfg s (.claim req none) = some s')
    (hreq : claimRequestOk req) : ∀ a ∈ s.store.jobs, a.status = .pending → a.id ∈ s.locked := by
  by_cases hpick : ClaimPick s.store s.locked none
  · intro a ha hap
    by_contra hal
    exact hpick a ha ⟨hap, hal⟩
  · simp [exec, hreq, hpick] at h

theorem claim_candidate_enabled (req : ClaimRequest) :
    exec cfg s (.claim req (claimCandidate s.store s.locked)) ≠ none := by
  have hpick := claimCandidate_pick s.store s.locked
  simp only [exec, if_pos hpick]
  split
  · simp
  · split <;> simp

end claim

/-- Against every interleaving, a claim's UPDATE runs on its pending row, in-flight
claims hold distinct rows, the pick is first of the order, and no claim step waits. -/
theorem claim_exclusive_ordered (cfg : Config) :
    (∀ s k now s', Reachable cfg s → exec cfg s (.claimUpdate k now) = some s' →
      ∃ tx r r', s.claims[k]? = some tx ∧ tx.committed = false ∧
        s.store.row tx.jobId = some r ∧ r.status = .pending ∧
        s.store.updated tx.jobId (claimNextJob tx.req.executorId now) = some r' ∧
        s'.store.row tx.jobId = some r' ∧ r'.status = .running ∧
        r'.executorId = some tx.req.executorId) ∧
    (∀ s (k₁ k₂ : Nat) (tx₁ tx₂ : ClaimTx), Reachable cfg s → k₁ ≠ k₂ → s.claims[k₁]? = some tx₁ →
      s.claims[k₂]? = some tx₂ → tx₁.committed = false → tx₂.committed = false →
      tx₁.jobId ≠ tx₂.jobId) ∧
    (∀ s req i s', exec cfg s (.claim req (some i)) = some s' → claimRequestOk req →
      ∃ j ∈ s.store.jobs, j.id = i ∧ j.status = .pending ∧ i ∉ s.locked ∧
        ∀ a ∈ s.store.jobs, a.status = .pending → a.id ∉ s.locked → ¬ a.claimsBefore j) ∧
    (∀ s req s', exec cfg s (.claim req none) = some s' → claimRequestOk req →
      ∀ a ∈ s.store.jobs, a.status = .pending → a.id ∈ s.locked) ∧
    (∀ s req, exec cfg s (.claim req (claimCandidate s.store s.locked)) ≠ none) ∧
    (∀ s k tx now, s.claims[k]? = some tx → tx.committed = false →
      exec cfg s (.claimUpdate k now) ≠ none) :=
  ⟨fun _ _ _ _ hs h => claimUpdate_spec hs.inv h,
    fun _ _ _ _ _ hs hk h₁ h₂ hc₁ hc₂ => claims_distinct_rows hs.inv hk h₁ h₂ hc₁ hc₂,
    fun _ _ _ _ h hreq => claim_pick_some h hreq,
    fun _ _ _ h hreq => claim_pick_none h hreq,
    fun _ req => claim_candidate_enabled req,
    fun _ _ _ now htx hc => claimUpdate_enabled now htx hc⟩

/-- Two jobs, claimed by `A` and `B` at once, neither claim committed. -/
def twoClaimsRun : List Event :=
  [.submit ⟨"t", "u", "d", [], [], "foreground", 0⟩ 0, .submit ⟨"t", "u", "d", [], [], "foreground", 0⟩ 1,
   .claim ⟨"A", "h"⟩ (some 0), .claim ⟨"B", "h"⟩ (some 1)]

theorem two_claims_hold_distinct_rows :
    let s := Sys.after defaultConfig twoClaimsRun
    Reachable defaultConfig s ∧ ∃ tx₁ tx₂, s.claims[0]? = some tx₁ ∧ s.claims[1]? = some tx₂ ∧
      tx₁.committed = false ∧ tx₂.committed = false ∧ tx₁.jobId ≠ tx₂.jobId := by
  intro s
  have hs : Reachable defaultConfig s := Sys.after_reachable (by decide)
  have h₁ : s.claims[0]? = some ⟨⟨"A", "h"⟩, 0, false⟩ := by decide
  have h₂ : s.claims[1]? = some ⟨⟨"B", "h"⟩, 1, false⟩ := by decide
  exact ⟨hs, _, _, h₁, h₂, rfl, rfl,
    (claim_exclusive_ordered defaultConfig).2.1 s 0 1 _ _ hs (by decide) h₁ h₂ rfl rfl⟩

end executr.server
