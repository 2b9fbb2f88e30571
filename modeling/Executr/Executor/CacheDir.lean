-- Where the binary cache changes files: with plain digests, only inside the cache
-- directory; an empty digest puts the temporary file beside it.
import Executr.Executor.Jobs

namespace executr.executor

/-! ## The files of the cache directory -/

namespace BinaryCache

/-- `q` is a file directly inside the cache directory. -/
def inDir (c : BinaryCache) (q : String) : Bool :=
  (dirPrefix c.cacheDir).data.isPrefixOf q.data &&
    isPathElem ⟨q.data.drop (dirPrefix c.cacheDir).data.length⟩

variable {c : BinaryCache} {n : String}

theorem inDir_iff {q : String} : c.inDir q = true ↔ ∃ n, isPathElem n = true ∧ q = c.pathOf n := by
  constructor
  · intro h
    simp only [inDir, Bool.and_eq_true, List.isPrefixOf_iff_prefix] at h
    refine ⟨_, h.2, ?_⟩
    rw [pathOf, filepathJoin_elem _ h.2]
    exact String.ext (List.prefix_iff_eq_append.mp h.1).symm
  · rintro ⟨n, hn, rfl⟩
    rw [pathOf, filepathJoin_elem _ hn]
    simp only [inDir, String.data_append, List.drop_left, Bool.and_eq_true, List.isPrefixOf_iff_prefix]
    exact ⟨List.prefix_append _ _, hn⟩

theorem inDir_of_cacheDir {c' : BinaryCache} (h : c'.cacheDir = c.cacheDir) : c'.inDir = c.inDir := by
  funext q
  unfold inDir
  rw [h]

theorem inDir_pathOf (hn : isPathElem n = true) : c.inDir (c.pathOf n) = true := inDir_iff.mpr ⟨n, hn, rfl⟩

theorem inDir_temp (hn : isPathElem n = true) : c.inDir (c.pathOf n ++ ".tmp") = true := by
  rw [pathOf, filepathJoin_tmp hn]
  exact inDir_pathOf (isPathElem_append_tmp hn)

theorem PathsOk.inDir_path (hp : c.PathsOk) {e : CacheEntry} (he : e ∈ c.entries) : c.inDir e.path = true := by
  obtain ⟨hk, hpe⟩ := hp e he
  rw [hpe]
  exact inDir_pathOf hk

end BinaryCache

open BinaryCache

/-! ## What one call changes -/

section call

variable {sortBy : List CacheEntry → List CacheEntry} (hs : SortsByAccess sortBy) {env : Env}
  {c c' : BinaryCache} {fs fs' : Files} {url d q : String} {r : Except String String}
include hs

theorem downloadAndCache_inDir (hp : c.PathsOk) (h : downloadAndCache sortBy env c fs d = (r, c', fs'))
    (hq : fs' q ≠ fs q) : q = c.pathOf d ++ ".tmp" ∨ c.inDir q = true := by
  by_cases ht : q = c.pathOf d ++ ".tmp"
  · exact .inl ht
  refine .inr ?_
  have hplaced : ∀ b : Blob, b.sha256 = d →
      (((fs.write (c.pathOf d ++ ".tmp") b).remove (c.pathOf d ++ ".tmp")).write (c.pathOf d) b) q ≠ fs q →
      c.inDir q = true := fun b hbd hw => by
    by_cases hc : q = c.pathOf d
    · rw [hc]
      exact inDir_pathOf (isPathElem_of_hex (hbd ▸ b.sha256_hex))
    · simp [hc, ht] at hw
  rcases downloadAndCache_cases h with ⟨-, -, hfs | ⟨b, -, hbd, rfl⟩⟩ | ⟨b, -, hbd, -, he⟩
  · simp [hfs, ht] at hq
  · exact hplaced b hbd hq
  · obtain ⟨-, -, hfs⟩ := evictIfNeeded_spec (fun e he => (hs _).1.subset he) he
    rcases hfs q with hw | ⟨e, he, rfl, -⟩
    · exact hplaced b hbd (hw ▸ hq)
    · exact (hp.insert (isPathElem_of_hex (hbd ▸ b.sha256_hex)) rfl).inDir_path he

theorem getBinary_inDir (hp : c.PathsOk) (h : getBinary sortBy env c fs url d = (r, c', fs'))
    (hq : fs' q ≠ fs q) : q = c.pathOf d ++ ".tmp" ∨ c.inDir q = true := by
  rcases getBinary_cases hp h with ⟨-, -, -, -, -, rfl⟩ | ⟨es, fs₀, hes, hfs, hd⟩
  · exact absurd rfl hq
  by_cases h₀ : fs' q = fs₀ q
  · rcases hfs with rfl | ⟨hel, hfs⟩
    · exact absurd h₀ hq
    · refine .inr ?_
      by_cases hc : q = c.pathOf d
      · rw [hc]
        exact inDir_pathOf hel
      · exact absurd (h₀.trans (hfs q hc)) hq
  · have hp₀ : ({ c with entries := es } : BinaryCache).PathsOk := hp.of_subset rfl fun e he => (hes e he).1
    exact (downloadAndCache_inDir hs hp₀ hd h₀ :)

theorem getBinary_stays_inDir (hp : c.PathsOk) (hd : isPathElem d = true)
    (h : getBinary sortBy env c fs url d = (r, c', fs')) (hq : fs' q ≠ fs q) : c.inDir q = true := by
  rcases getBinary_inDir hs hp h hq with ht | hin
  · rw [ht]
    exact inDir_temp hd
  · exact hin

end call

/-! ## Over the executor's runs -/

/-- The claim carries a plain file name as its digest. -/
def Step.claimsPlain : Step → Bool
  | .claim _ sha => isPathElem sha
  | _ => true

/-- Every entry at its path, and every job still to fetch with a plain digest. -/
structure Executor.PlainDigests (ex : Executor) : Prop where
  paths : ex.cache.PathsOk
  plain : ∀ url sha, Phase.fetching url sha ∈ ex.jobs → isPathElem sha = true

section run

variable {sortBy : List CacheEntry → List CacheEntry} (hs : SortsByAccess sortBy)
include hs

theorem step_files_outside {ex ex' : Executor} {st : Step} (hi : ex.PlainDigests)
    (hc : st.claimsPlain = true) (h : ex.step sortBy st = some ex') :
    ex'.PlainDigests ∧ ex'.cache.cacheDir = ex.cache.cacheDir ∧
      ∀ q, ex.cache.inDir q = false → ex'.files q = ex.files q := by
  cases st with
  | claim url sha =>
    simp only [Executor.step] at h
    split at h
    · cases h
      refine ⟨⟨hi.paths, fun u d hm => ?_⟩, rfl, fun _ _ => rfl⟩
      rcases List.mem_append.mp hm with hm | hm
      · exact hi.plain u d hm
      · simp only [List.mem_singleton, Phase.fetching.injEq] at hm
        rw [hm.2]
        exact hc
    · cases h
  | fetch k env =>
    simp only [Executor.step] at h
    split at h
    · rename_i url sha hk
      cases h
      rcases hg : getBinary sortBy env ex.cache ex.files url sha with ⟨r, c', fs'⟩
      obtain ⟨hdir, hp'⟩ := getBinary_pathsOk hs hi.paths hg
      have hd := hi.plain url sha (List.getElem?_mem hk)
      refine ⟨⟨hp', fun u d hm => hi.plain u d ?_⟩, hdir, fun q hq => ?_⟩
      · split at hm
        · rcases List.mem_or_eq_of_mem_set hm with hm | hm
          · exact hm
          · cases hm
        · exact List.mem_of_mem_eraseIdx hm
      · by_contra hne
        exact absurd (getBinary_stays_inDir hs hi.paths hd hg hne) (by simp [hq])
    · cases h
  | launch k =>
    simp only [Executor.step] at h
    split at h
    · cases h
      exact ⟨⟨hi.paths, fun u d hm => hi.plain u d (List.mem_of_mem_eraseIdx hm)⟩, rfl, fun _ _ => rfl⟩
    · cases h

/-- Over a run whose claims carry plain digests, the cache directory stays and no file
outside it changes. -/
theorem run_files_outside {ex ex' : Executor} {steps : List Step} (hi : ex.PlainDigests)
    (hc : ∀ st ∈ steps, st.claimsPlain = true) (h : ex.run sortBy steps = some ex') :
    ex'.cache.cacheDir = ex.cache.cacheDir ∧ ∀ q, ex.cache.inDir q = false → ex'.files q = ex.files q := by
  induction steps generalizing ex with
  | nil =>
    cases h
    exact ⟨rfl, fun _ _ => rfl⟩
  | cons st steps ih =>
    simp only [Executor.run, List.foldlM_cons] at h
    cases h₁ : ex.step sortBy st with
    | none => simp [h₁] at h
    | some ex₁ =>
      rw [h₁] at h
      obtain ⟨hi₁, hdir₁, hf₁⟩ := step_files_outside hs hi (hc st (List.mem_cons_self _ _)) h₁
      obtain ⟨hdir, hf⟩ := ih hi₁ (fun st hst => hc st (List.mem_cons_of_mem _ hst)) h
      refine ⟨hdir.trans hdir₁, fun q hq => ?_⟩
      rw [hf q (by rw [inDir_of_cacheDir hdir₁]; exact hq), hf₁ q hq]

end run

/-- The default cache at `/cache`, with a file `/cache.tmp` beside it. -/
def besideDirStart : Executor :=
  ⟨1, ⟨"/cache", 400, []⟩, fun q => if q = "/cache.tmp" then some ⟨digestA, 1, by decide⟩ else none, []⟩

/-- A claim of digest `aaaa...` whose download succeeds. -/
def plainRun : List Step :=
  [.claim "http://binaries/a" digestA, .fetch 0 ⟨0, some ⟨digestA, 1, by decide⟩, none⟩]

theorem plain_digest_keeps_beside_dir :
    let ex' : Executor := besideDirStart.after sortByAccess plainRun
    ex'.cache.cacheDir = "/cache" ∧ ex'.files "/cache.tmp" = besideDirStart.files "/cache.tmp" :=
  have h := @run_files_outside sortByAccess sortByAccess_sorts besideDirStart _ plainRun
    ⟨(fun _ h => nomatch h), (fun _ _ h => nomatch h)⟩ (by decide) rfl
  ⟨h.1, h.2 "/cache.tmp" (by decide)⟩

/-- An empty digest's temporary file is `/cache.tmp`, which the failed download removes. -/
theorem empty_digest_removes_beside_dir :
    let ex : Executor := besideDirStart.after sortByAccess [.claim "http://binaries/x" "", .fetch 0 ⟨0, none, none⟩]
    besideDirStart.cache.inDir "/cache.tmp" = false ∧ besideDirStart.files "/cache.tmp" ≠ none ∧
      ex.files "/cache.tmp" = none := by
  decide

end executr.executor
