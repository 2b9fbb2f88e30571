-- The slot accounting of `pollForJobs` and `executeJob`: a tick fills a slot of
-- `jobSem` before it claims, and the claim or the job's deferred receive frees it.
import Mathlib.Data.List.Nodup

namespace executr.executor

/-! ## The loop and the goroutines -/

/-- Where a job goroutine stands in `executeJob`. -/
inductive Stage
  /-- Before `os.MkdirAll(jobDir)`. -/
  | mkdir
  /-- Before `GetBinary`. -/
  | getBinary
  /-- `runner.Execute`. -/
  | execute
  /-- Posting complete or fail. -/
  | report
deriving DecidableEq, Repr

/-- A running `executeJob`: the slot it holds and its stage. -/
structure JobRun where
  slot : Nat
  stage : Stage
deriving DecidableEq, Repr

/-- The claim loop: at its `select`, inside `claimJob` with its slot, or returned. -/
inductive Loop
  | idle
  | claiming (slot : Nat)
  | stopped
deriving DecidableEq, Repr

/-- The slot the claim loop holds. -/
def Loop.slots : Loop → List Nat
  | .claiming t => [t]
  | _ => []

/-- A send to or a receive from `jobSem`. -/
inductive SlotOp
  | acquire (slot : Nat)
  | release (slot : Nat)
deriving DecidableEq, Repr

/-- The part of `Executor` that `pollForJobs` and `executeJob` share, with the sends and
receives on `jobSem`. -/
structure Poller where
  maxJobs : Nat
  networkTimeout : Int
  held : Nat
  loop : Loop
  jobs : List JobRun
  networkFailureStart : Option Int
  filled : Nat
  log : List SlotOp
deriving DecidableEq, Repr

/-- What `ClaimNextJob` gives the loop. -/
inductive ClaimOutcome
  | job
  | noJob
  | error
deriving DecidableEq, Repr

/-- One move of the executor; times are `time.Time` in nanoseconds. -/
inductive PollEvent
  /-- `pollTicker.C` taken by the loop's `select`. -/
  | tick
  /-- `claimJob` returns at time `now`. -/
  | claimed (o : ClaimOutcome) (now : Int)
/-- The job holding `slot` ends its stage, whose call succeeded when `ok`. -/
  | advance (slot : Nat) (ok : Bool)
  /-- `e.ctx.Done()` taken by the loop's `select`. -/
  | shutdown
deriving DecidableEq, Repr

/-- The stage a job goes to when its current one ends, none when it returns. -/
def Stage.next : Stage → Bool → Option Stage
  | .mkdir, true => some .getBinary
  | .getBinary, true => some .execute
  | .execute, _ => some .report
  | _, _ => none

namespace Poller

/-- `Executor` after `New` and `Run`, before the first tick. -/
def init (maxJobs : Nat) (networkTimeout : Int) : Poller :=
  ⟨maxJobs, networkTimeout, 0, .idle, [], none, 0, []⟩

/-- `<-e.jobSem` for `slot`. -/
def release (s : Poller) (slot : Nat) : Poller :=
  { s with held := s.held - 1, log := s.log ++ [.release slot] }

/-- The failure branch of the loop after the slot is released. -/
def claimFailed (s : Poller) (now : Int) : Poller :=
  match s.networkFailureStart with
  | none => { s with loop := .idle, networkFailureStart := some now }
  | some start =>
    if now - start > s.networkTimeout * 1000000000 then { s with loop := .stopped }
    else { s with loop := .idle }

/-- Move the job holding `slot` to `stage`. -/
def setStage (s : Poller) (slot : Nat) (stage : Stage) : Poller :=
  { s with jobs := s.jobs.map fun g => if g.slot = slot then { g with stage := stage } else g }

/-- `executeJob` returns: its deferred receive frees its slot. -/
def finish (s : Poller) (slot : Nat) : Poller :=
  { s.release slot with jobs := s.jobs.filter (·.slot != slot) }

def step (s : Poller) : PollEvent → Option Poller
  | .tick =>
    match s.loop with
    | .idle =>
      if s.held < s.maxJobs then
        some { s with held := s.held + 1, loop := .claiming s.filled, filled := s.filled + 1,
                      log := s.log ++ [.acquire s.filled] }
      else some s
    | _ => none
  | .claimed o now =>
    match s.loop with
    | .claiming t =>
      some (match o with
        | .job => { s with loop := .idle, jobs := s.jobs ++ [⟨t, .mkdir⟩], networkFailureStart := none }
        | .noJob => { s.release t with loop := .idle, networkFailureStart := none }
        | .error => (s.release t).claimFailed now)
    | _ => none
  | .advance slot ok =>
    match s.jobs.find? (·.slot == slot) with
    | some g =>
      match Stage.next g.stage ok with
      | some st => some (s.setStage slot st)
      | none => some (s.finish slot)
    | none => none
  | .shutdown =>
    match s.loop with
    | .idle => some { s with loop := .stopped }
    | _ => none

/-- The states a run reaches from `init`. -/
inductive Reachable : Poller → Prop
  | init (maxJobs : Nat) (networkTimeout : Int) : Reachable (init maxJobs networkTimeout)
  | step {s s' : Poller} {e : PollEvent} : Reachable s → s.step e = some s' → Reachable s'

/-- The slots held by the loop and the goroutines. -/
def owners (s : Poller) : List Nat := s.loop.slots ++ s.jobs.map (·.slot)

/-! ## What one step does to the slots -/

/-- A step does nothing to `jobSem`, fills the next slot, or frees a holder's slot. -/
inductive SlotStep (s s' : Poller) : Prop
  | keep : s'.held = s.held → s'.owners.Perm s.owners → s'.log = s.log → s'.filled = s.filled →
      SlotStep s s'
  | acquire : s.held < s.maxJobs → s'.held = s.held + 1 → s'.owners = s.filled :: s.owners →
      s'.log = s.log ++ [.acquire s.filled] → s'.filled = s.filled + 1 → SlotStep s s'
  | release (t : Nat) : t ∈ s.owners → s'.held = s.held - 1 → s'.owners = s.owners.erase t →
      s'.log = s.log ++ [.release t] → s'.filled = s.filled → SlotStep s s'

theorem claimFailed_eq (s : Poller) (now : Int) :
    ∃ l, l.slots = [] ∧ s.claimFailed now =
      { s with loop := l, networkFailureStart := (s.claimFailed now).networkFailureStart } := by
  unfold claimFailed
  split
  · exact ⟨.idle, rfl, rfl⟩
  · split
    · exact ⟨.stopped, rfl, rfl⟩
    · exact ⟨.idle, rfl, rfl⟩

theorem owners_setStage (s : Poller) (t : Nat) (st : Stage) : (s.setStage t st).owners = s.owners := by
  simp only [owners, setStage, List.map_map]
  congr 1
  refine List.map_congr_left fun g _ => ?_
  simp only [Function.comp_apply]
  split <;> rfl

theorem owners_finish {s : Poller} {t : Nat} (hnd : s.owners.Nodup) (ht : t ∈ s.jobs.map (·.slot)) :
    (s.finish t).owners = s.owners.erase t := by
  have hnd' := List.nodup_append.mp hnd
  have hA : t ∉ s.loop.slots := fun h => hnd'.2.2 h ht
  have hf : (s.jobs.filter (·.slot != t)).map (·.slot) = (s.jobs.map (·.slot)).filter (· != t) := by
    rw [List.filter_map]
    rfl
  simp only [owners, finish, release, List.erase_append_right _ hA, hf, hnd'.2.1.erase_eq_filter]

theorem step_slots {s s' : Poller} {e : PollEvent} (hnd : s.owners.Nodup) (h : s.step e = some s') :
    s'.maxJobs = s.maxJobs ∧ SlotStep s s' := by
  cases e with
  | tick =>
    simp only [step] at h
    split at h
    · rename_i hl
      split at h
      · cases h
        refine ⟨rfl, .acquire ‹_› rfl ?_ rfl rfl⟩
        simp [owners, hl, Loop.slots]
      · cases h
        exact ⟨rfl, .keep rfl (List.Perm.refl _) rfl rfl⟩
    · cases h
  | claimed o now =>
    simp only [step] at h
    split at h
    · rename_i t hl
      have ho : s.owners = t :: s.jobs.map (·.slot) := by simp [owners, hl, Loop.slots]
      cases h
      cases o with
      | job =>
        refine ⟨rfl, .keep rfl ?_ rfl rfl⟩
        rw [ho]
        simp [owners, Loop.slots]
      | noJob =>
        refine ⟨rfl, .release t (by simp [ho]) rfl ?_ rfl rfl⟩
        rw [ho]
        simp [owners, release, Loop.slots]
      | error =>
        obtain ⟨l, hl', he⟩ := claimFailed_eq (s.release t) now
        rw [he]
        refine ⟨rfl, .release t (by simp [ho]) rfl ?_ rfl rfl⟩
        rw [ho]
        simp [owners, release, hl']
    · cases h
  | advance t ok =>
    simp only [step] at h
    split at h
    · rename_i g hg
      have hgt : g.slot = t := by simpa using List.find?_some hg
      have ht : t ∈ s.jobs.map (·.slot) := List.mem_map.mpr ⟨g, List.mem_of_find?_eq_some hg, hgt⟩
      split at h
      · cases h
        exact ⟨rfl, .keep rfl (by rw [owners_setStage]) rfl rfl⟩
      · cases h
        exact ⟨rfl, .release t (List.mem_append_right _ ht) rfl (owners_finish hnd ht) rfl rfl⟩
    · cases h
  | shutdown =>
    simp only [step] at h
    split at h
    · rename_i hl
      cases h
      exact ⟨rfl, .keep rfl (by simp [owners, hl, Loop.slots]) rfl rfl⟩
    · cases h

/-! ## The slots over a run -/

/-- `jobSem` holds one slot per owner, at most `MaxJobs`, each sent once and received
once its owner gave it up. -/
structure Inv (s : Poller) : Prop where
  held_eq : s.held = s.owners.length
  held_le : s.held ≤ s.maxJobs
  nodup : s.owners.Nodup
  owned_lt : ∀ t ∈ s.owners, t < s.filled
  acquired : ∀ t, s.log.count (.acquire t) = if t < s.filled then 1 else 0
  released : ∀ t, s.log.count (.release t) = if t < s.filled ∧ t ∉ s.owners then 1 else 0

theorem init_inv (maxJobs : Nat) (networkTimeout : Int) : (init maxJobs networkTimeout).Inv where
  held_eq := rfl
  held_le := Nat.zero_le _
  nodup := List.nodup_nil
  owned_lt _ h := absurd h (List.not_mem_nil _)
  acquired _ := rfl
  released _ := rfl

theorem SlotStep.inv {s s' : Poller} (h : SlotStep s s') (hmax : s'.maxJobs = s.maxJobs) (hi : s.Inv) :
    s'.Inv := by
  cases h with
  | keep hh ho hl hf =>
    refine ⟨by rw [hh, hi.held_eq, ho.length_eq], by rw [hh, hmax]; exact hi.held_le,
      ho.nodup_iff.mpr hi.nodup, fun t ht => hf ▸ hi.owned_lt t (ho.subset ht), fun t => ?_, fun t => ?_⟩
    · rw [hl, hf, hi.acquired]
    · simp only [hl, hf, hi.released, ho.mem_iff]
  | acquire hlt hh ho hl hf =>
    have hnew : s.filled ∉ s.owners := fun h => Nat.lt_irrefl _ (hi.owned_lt _ h)
    refine ⟨by rw [hh, ho, hi.held_eq]; rfl, by rw [hh, hmax]; exact hlt, ?_, fun t ht => ?_,
      fun t => ?_, fun t => ?_⟩
    · rw [ho]
      exact List.nodup_cons.mpr ⟨hnew, hi.nodup⟩
    · rw [ho, List.mem_cons] at ht
      rcases ht with rfl | ht
      · rw [hf]; exact Nat.lt_succ_self _
      · rw [hf]; exact Nat.lt_succ_of_lt (hi.owned_lt t ht)
    · rw [hl, hf, List.count_append, hi.acquired]
      by_cases ht : t = s.filled
      · subst ht; simp
      · simp only [List.count_singleton', SlotOp.acquire.injEq, Ne.symm ht, if_false]
        split_ifs <;> omega
    · rw [hl, hf, ho, List.count_append, hi.released]
      by_cases ht : t = s.filled
      · subst ht; simp [hnew]
      · by_cases hm : t ∈ s.owners <;> simp [hm, ht]
        split_ifs <;> omega
  | release t ht hh ho hl hf =>
    have hmem : ∀ t', t' ∈ s'.owners ↔ t' ≠ t ∧ t' ∈ s.owners := fun t' => by
      rw [ho]; exact hi.nodup.mem_erase_iff
    refine ⟨by rw [hh, ho, List.length_erase_of_mem ht, hi.held_eq], ?_, by rw [ho]; exact hi.nodup.erase t,
      fun t' h' => hf ▸ hi.owned_lt t' ((hmem t').mp h').2, fun t' => ?_, fun t' => ?_⟩
    · rw [hh, hmax]; exact Nat.le_trans (Nat.sub_le _ _) hi.held_le
    · rw [hl, hf, List.count_append, hi.acquired]
      simp
    · rw [hl, hf, List.count_append, hi.released]
      have hlt := hi.owned_lt t ht
      by_cases h' : t' = t
      · subst h'; simp [hmem, ht, hlt]
      · by_cases hm : t' ∈ s.owners <;> simp [hm, hmem, h', Ne.symm h']

theorem Reachable.inv {s : Poller} (h : s.Reachable) : s.Inv := by
  induction h with
  | init maxJobs networkTimeout => exact init_inv maxJobs networkTimeout
  | step _ hs ih =>
    obtain ⟨hmax, hstep⟩ := step_slots ih.nodup hs
    exact hstep.inv hmax ih

theorem step_tick_full {s : Poller} (h : s.maxJobs ≤ s.held) : s.step .tick = none ∨ s.step .tick = some s := by
  simp only [step]
  split
  · exact .inr (if_neg (Nat.not_lt.mpr h))
  · exact .inl rfl

def run (s : Poller) (events : List PollEvent) : Option Poller := events.foldlM step s

theorem Reachable.run {s s' : Poller} {events : List PollEvent} (h : s.Reachable)
    (hr : s.run events = some s') : s'.Reachable := by
  induction events generalizing s with
  | nil => cases hr; exact h
  | cons e events ih =>
    simp only [Poller.run, List.foldlM_cons] at hr
    cases hs : s.step e with
    | none => simp [hs] at hr
    | some s₁ =>
      rw [hs] at hr
      exact ih (h.step hs) hr

/-- The state after `events`, or the start when one of them cannot happen. -/
def after (s : Poller) (events : List PollEvent) : Poller := (s.run events).getD s

theorem after_reachable {s : Poller} {events : List PollEvent} (h : s.Reachable)
    (hr : (s.run events).isSome) : (s.after events).Reachable := by
  obtain ⟨s', hs'⟩ := Option.isSome_iff_exists.mp hr
  simpa [after, hs'] using h.run hs'

end Poller

open Poller

/-- Over every run, `jobSem` holds a slot per running job and outstanding claim, at most
`MaxJobs`, each sent once and received once its holder returns. -/
theorem slots_follow_jobs (s : Poller) (h : s.Reachable) :
    s.held = s.jobs.length + s.loop.slots.length ∧ s.held ≤ s.maxJobs ∧
    (∀ t, s.log.count (.release t) ≤ s.log.count (.acquire t) ∧ s.log.count (.acquire t) ≤ 1 ∧
      (s.log.count (.acquire t) = 1 → (s.log.count (.release t) = 0 ↔ t ∈ s.owners))) ∧
    (s.held = s.maxJobs → s.step .tick = none ∨ s.step .tick = some s) := by
  have hi := h.inv
  refine ⟨by rw [hi.held_eq, owners, List.length_append, List.length_map, Nat.add_comm], hi.held_le,
    fun t => ?_, fun hf => step_tick_full (Nat.le_of_eq hf.symm)⟩
  rw [hi.acquired, hi.released]
  by_cases hlt : t < s.filled
  · by_cases hm : t ∈ s.owners <;> simp [hlt, hm]
  · have hm : t ∉ s.owners := fun hm => hlt (hi.owned_lt t hm)
    simp [hlt, hm]

/-- A claimed job at `MkdirAll`, and a second tick whose claim brought no job. -/
def twoTickRun : List PollEvent := [.tick, .claimed .job 0, .tick, .claimed .noJob 1]

theorem two_ticks_follow_jobs :
    let s := (init 2 60).after twoTickRun
    s.Reachable ∧ (s.held = s.jobs.length + s.loop.slots.length ∧ s.held ≤ s.maxJobs ∧
      (∀ t, s.log.count (.release t) ≤ s.log.count (.acquire t) ∧ s.log.count (.acquire t) ≤ 1 ∧
        (s.log.count (.acquire t) = 1 → (s.log.count (.release t) = 0 ↔ t ∈ s.owners))) ∧
      (s.held = s.maxJobs → s.step .tick = none ∨ s.step .tick = some s)) := by
  intro s
  have hr : s.Reachable := after_reachable (.init 2 60) (by decide)
  exact ⟨hr, slots_follow_jobs s hr⟩

end executr.executor
