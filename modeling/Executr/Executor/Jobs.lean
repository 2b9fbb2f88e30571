-- The executor's jobs around the binary cache: between one job's `GetBinary` and
-- its launch, another job's call may run and evict the first job's file.
import Executr.Executor.Cache

namespace executr.executor

/-! ## The executor -/

/-- A job of `executeJob` before `GetBinary`, or holding the path it returned. -/
inductive Phase
  | fetching (url sha : String)
  | ready (path sha : String)
  deriving DecidableEq, Repr

/-- The executor: its slots, the cache, the cache directory's files and its jobs. -/
structure Executor where
  maxJobs : Nat
  cache : BinaryCache
  files : Files
  jobs : List Phase

/-- One move of the executor. -/
inductive Step
  /-- `pollForJobs` takes a free slot and the server hands it a job. -/
  | claim (url sha : String)
/-- Job `k` calls `GetBinary`; on an error it reports and frees its slot. -/
  | fetch (k : Nat) (env : Env)
  /-- Job `k` runs the file at its path, reports, and frees its slot. -/
  | launch (k : Nat)

namespace Executor

variable (sortBy : List CacheEntry → List CacheEntry)

def step (ex : Executor) : Step → Option Executor
  | .claim url sha =>
    if ex.jobs.length < ex.maxJobs then some { ex with jobs := ex.jobs ++ [.fetching url sha] }
    else none
  | .fetch k env =>
    match ex.jobs[k]? with
    | some (.fetching url sha) =>
      let r := getBinary sortBy env ex.cache ex.files url sha
      some { ex with
        cache := r.2.1
        files := r.2.2
        jobs := match r.1 with
          | .ok path => ex.jobs.set k (.ready path sha)
          | .error _ => ex.jobs.eraseIdx k }
    | _ => none
  | .launch k =>
    match ex.jobs[k]? with
    | some (.ready _ _) => some { ex with jobs := ex.jobs.eraseIdx k }
    | _ => none

def run (ex : Executor) (steps : List Step) : Option Executor := steps.foldlM (step sortBy) ex

/-- The states reachable from no job and every entry at its path. -/
inductive Reachable : Executor → Prop
  | start {ex : Executor} : ex.jobs = [] → ex.cache.PathsOk → Reachable ex
  | step {ex ex' : Executor} {st : Step} : Reachable ex → ex.step sortBy st = some ex' → Reachable ex'

variable {sortBy}

theorem Reachable.run {ex ex' : Executor} {steps : List Step} (h : Reachable sortBy ex)
    (hr : ex.run sortBy steps = some ex') : Reachable sortBy ex' := by
  induction steps generalizing ex with
  | nil => cases hr; exact h
  | cons st steps ih =>
    simp only [Executor.run, List.foldlM_cons] at hr
    cases hs : ex.step sortBy st with
    | none => simp [hs] at hr
    | some ex₁ =>
      rw [hs] at hr
      exact ih (h.step hs) hr

variable (sortBy)

/-- The state after `steps`, or the start when one of them cannot run. -/
def after (ex : Executor) (steps : List Step) : Executor := (ex.run sortBy steps).getD ex

variable {sortBy}

theorem after_reachable {ex : Executor} {steps : List Step} (h : Reachable sortBy ex)
    (hr : (ex.run sortBy steps).isSome) : Reachable sortBy (ex.after sortBy steps) := by
  obtain ⟨ex', hex'⟩ := Option.isSome_iff_exists.mp hr
  simpa [after, hex'] using h.run hex'

end Executor

/-! ## What a job holding a path can rely on -/

/-- A job holding `p` for `d`: `p` is `cacheDir/d`, and while `d` is indexed `p` holds `d`. -/
def ReadyOk (c : BinaryCache) (fs : Files) : Phase → Prop
  | .fetching _ _ => True
  | .ready p d => p = c.pathOf d ∧ isHexDigest d = true ∧
      ((∃ e ∈ c.entries, e.sha256 = d) → ∃ b, fs p = some b ∧ b.sha256 = d)

structure Executor.Inv (ex : Executor) : Prop where
  paths : ex.cache.PathsOk
  ready : ∀ ph ∈ ex.jobs, ReadyOk ex.cache ex.files ph

section step

variable {sortBy : List CacheEntry → List CacheEntry} (hs : SortsByAccess sortBy)
  {env : Env} {c c' : BinaryCache} {fs fs' : Files} {url d : String} {r : Except String String}
include hs

theorem readyOk_getBinary (hp : c.PathsOk) (h : getBinary sortBy env c fs url d = (r, c', fs'))
    {ph : Phase} (hph : ReadyOk c fs ph) : ReadyOk c' fs' ph := by
  cases ph with
  | fetching => trivial
  | ready p d₀ =>
    obtain ⟨rfl, hx, hf⟩ := hph
    have hdir := (getBinary_pathsOk hs hp h).1
    refine ⟨by simp only [BinaryCache.pathOf, hdir], hx, fun hk => ?_⟩
    by_cases hd : d₀ = d
    · subst hd
      exact getBinary_self hs hp h hk
    · obtain ⟨hk₀, hfs⟩ := getBinary_frame hs hp h hd hx hk
      rw [hfs]
      exact hf hk₀

theorem readyOk_of_ok {p : String} (hp : c.PathsOk) (h : getBinary sortBy env c fs url d = (r, c', fs'))
    (hr : r = .ok p) : ReadyOk c' fs' (.ready p d) := by
  obtain ⟨rfl, hx⟩ := getBinary_ok hp h hr
  have hdir := (getBinary_pathsOk hs hp h).1
  exact ⟨by simp only [BinaryCache.pathOf, hdir], hx, getBinary_self hs hp h⟩

theorem step_inv {ex ex' : Executor} {st : Step} (hi : ex.Inv) (h : ex.step sortBy st = some ex') :
    ex'.Inv := by
  cases st with
  | claim url sha =>
    simp only [Executor.step] at h
    split at h
    · cases h
      refine ⟨hi.paths, fun ph hph => ?_⟩
      rcases List.mem_append.mp hph with hph | hph
      · exact hi.ready ph hph
      · simp only [List.mem_singleton] at hph
        subst hph
        trivial
    · cases h
  | fetch k env =>
    simp only [Executor.step] at h
    split at h
    · rename_i url sha _
      cases h
      rcases hg : getBinary sortBy env ex.cache ex.files url sha with ⟨r, c', fs'⟩
      have hold : ∀ ph ∈ ex.jobs, ReadyOk c' fs' ph :=
        fun ph hph => readyOk_getBinary hs hi.paths hg (hi.ready ph hph)
      refine ⟨(getBinary_pathsOk hs hi.paths hg).2, fun ph hph => ?_⟩
      split at hph
      · rename_i p hr
        rcases List.mem_or_eq_of_mem_set hph with hph | rfl
        · exact hold ph hph
        · exact readyOk_of_ok hs hi.paths hg hr
      · exact hold ph (List.mem_of_mem_eraseIdx hph)
    · cases h
  | launch k =>
    simp only [Executor.step] at h
    split at h
    · cases h
      exact ⟨hi.paths, fun ph hph => hi.ready ph (List.mem_of_mem_eraseIdx hph)⟩
    · cases h

theorem Executor.Reachable.inv {ex : Executor} (h : ex.Reachable sortBy) : ex.Inv := by
  induction h with
  | start hj hp => exact ⟨hp, by simp [hj]⟩
  | step _ hs' ih => exact step_inv hs ih hs'

end step

/-! ## A job's binary against later calls -/

/-- A successful `GetBinary(url, d)` returns `cacheDir/d` for a hex `d`, holding `d` while
indexed; it stays indexed on a hit or a newest download within the `int64` budget. -/
theorem get_binary_path_until_evicted (sortBy : List CacheEntry → List CacheEntry)
    (hs : SortsByAccess sortBy) :
    (∀ env c fs url d p c' fs', c.PathsOk → getBinary sortBy env c fs url d = (.ok p, c', fs') →
      p = c.pathOf d ∧ isHexDigest d = true ∧
      ((c'.lookup d).isSome → ∃ b, fs' p = some b ∧ b.sha256 = d) ∧
      ((∃ e, c.lookup d = some e ∧ verifySHA256 fs e.path d = true) → (c'.lookup d).isSome) ∧
      ((∀ b, env.fetched = some b → (b.size : Int) ≤ toInt64 (c.maxSizeMB * 1024 * 1024)) →
        (∀ e ∈ c.entries, e.sha256 ≠ d → e.lastAccess < env.now) → (c'.lookup d).isSome)) ∧
    (∀ ex : Executor, ex.Reachable sortBy → ∀ p d, Phase.ready p d ∈ ex.jobs →
      p = ex.cache.pathOf d ∧ ((ex.cache.lookup d).isSome → ∃ b, ex.files p = some b ∧ b.sha256 = d)) := by
  refine ⟨fun env c fs url d p c' fs' hp h => ?_, fun ex hr p d hj => ?_⟩
  · obtain ⟨rfl, hx⟩ := getBinary_ok hp h rfl
    refine ⟨rfl, hx, fun hk => getBinary_self hs hp h (BinaryCache.lookup_isSome.mp hk),
      fun ⟨e, hl, hv⟩ => ?_,
      fun hfit hold => BinaryCache.lookup_isSome.mpr (getBinary_keeps hs hp h rfl hfit hold)⟩
    obtain ⟨-, rfl, -⟩ := getBinary_hit hl hv h
    exact BinaryCache.lookup_isSome.mpr (BinaryCache.touch_keys ⟨e, BinaryCache.lookup_eq_some hl⟩)
  · obtain ⟨hpath, -, hf⟩ := (hr.inv hs).ready _ hj
    exact ⟨hpath, fun hk => hf (BinaryCache.lookup_isSome.mp hk)⟩

theorem insertion_sort_path_until_evicted :
    SortsByAccess sortByAccess ∧ ∀ ex : Executor, ex.Reachable sortByAccess →
      ∀ p d, Phase.ready p d ∈ ex.jobs → p = ex.cache.pathOf d ∧
        ((ex.cache.lookup d).isSome → ∃ b, ex.files p = some b ∧ b.sha256 = d) :=
  ⟨sortByAccess_sorts, (get_binary_path_until_evicted sortByAccess sortByAccess_sorts).2⟩

def digestA : String := ⟨List.replicate 64 'a'⟩

def digestB : String := ⟨List.replicate 64 'b'⟩

/-- An executor with two slots and the default 400 MB cache, empty. -/
def twoSlotStart : Executor := ⟨2, ⟨"/cache", 400, []⟩, fun _ => none, []⟩

/-- Two jobs claimed at once, their 300 MB binaries fetched at times 1 and 2. -/
def twoJobRun : List Step :=
  [.claim "url-a" digestA, .claim "url-b" digestB,
   .fetch 0 ⟨1, some ⟨digestA, 300 * 1024 * 1024, by decide⟩, none⟩,
   .fetch 1 ⟨2, some ⟨digestB, 300 * 1024 * 1024, by decide⟩, none⟩]

theorem later_fetch_evicts_ready_binary :
    ¬ ∀ ex : Executor, ex.Reachable sortByAccess → ∀ p d, Phase.ready p d ∈ ex.jobs →
      ∃ b, ex.files p = some b ∧ b.sha256 = d := by
  intro h
  have hr : (twoSlotStart.after sortByAccess twoJobRun).Reachable sortByAccess :=
    Executor.after_reachable (.start rfl fun _ h => nomatch h) (by decide)
  obtain ⟨b, hb, -⟩ := h _ hr (twoSlotStart.cache.pathOf digestA) digestA (by decide)
  have hgone : (twoSlotStart.after sortByAccess twoJobRun).files
      (twoSlotStart.cache.pathOf digestA) = none := by decide
  rw [hgone] at hb
  cases hb

end executr.executor
